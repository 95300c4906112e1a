import CharClass.Proofs.Construction

/-!
# Histories of changes

A set is changed in place by inserting and removing intervals, one at a time, several, or between
two characters. The reference is a plain set of points that takes the same points in and out
(`Change.meaning`). One admissible change keeps the two together (`Represents.apply`), and so does
any run of them (`Represents.run`): after every step of every history the members are exactly those
of the reference.
-/

namespace CharClass

/-- A change of a set in place. Characters are given as they are, intervals are checked before. -/
inductive Change where
  | insert (i : Interval)
  | remove (i : Interval)
  | insertAll (is : List Interval)
  | insertBetween (c d : Char)
  | removeBetween (c d : Char)

namespace Change

/-- Intervals are valid, characters ascend. -/
def Admissible : Change → Prop
  | insert i | remove i => i.Valid
  | insertAll is => ∀ i ∈ is, i.Valid
  | insertBetween c d | removeBetween c d => c ≤ d

instance : (c : Change) → Decidable c.Admissible
  | insert i | remove i => inferInstanceAs (Decidable i.Valid)
  | insertAll is => inferInstanceAs (Decidable (∀ i ∈ is, i.Valid))
  | insertBetween c d | removeBetween c d => inferInstanceAs (Decidable (c ≤ d))

/-- The set after the change. Characters that descend are refused. -/
def apply (s : PointSet) : Change → Except BoundsError PointSet
  | insert i => .ok (s.insert i)
  | remove i => .ok (s.remove i)
  | insertAll is => .ok (s.insertAll is)
  | insertBetween c d => (Interval.between c d).map s.insert
  | removeBetween c d => (Interval.between c d).map s.remove

/-- The points after the change. -/
def meaning (S : Set Nat) : Change → Set Nat
  | insert i => S ∪ Set.Icc i.first i.last
  | remove i => S \ Set.Icc i.first i.last
  | insertAll is => S ∪ {p | Covered is p}
  | insertBetween c d => S ∪ Set.Icc c.toNat d.toNat
  | removeBetween c d => S \ Set.Icc c.toNat d.toNat

/-- The set after all changes. The first one that is refused ends the run. -/
def run (s : PointSet) (changes : List Change) : Except BoundsError PointSet :=
  changes.foldlM apply s

end Change

namespace Represents

variable {s : PointSet} {S : Set Nat}

theorem insert (h : Represents s S) {i : Interval} (hi : i.Valid) :
    Represents (s.insert i) (S ∪ Set.Icc i.first i.last) where
  wellFormed := h.wellFormed.insert hi
  contains_iff p := by
    rw [h.wellFormed.contains_insert hi, Bool.or_eq_true, h.contains_iff,
      Interval.includes_eq_true]
    rfl

theorem remove (h : Represents s S) {i : Interval} (hi : i.Valid) :
    Represents (s.remove i) (S \ Set.Icc i.first i.last) where
  wellFormed := h.wellFormed.remove hi
  contains_iff p := by
    rw [h.wellFormed.contains_remove hi, Bool.and_eq_true, h.contains_iff, Bool.not_eq_true',
      ← Bool.not_eq_true, Interval.includes_eq_true]
    rfl

theorem insertAll (h : Represents s S) {is : List Interval} (his : ∀ i ∈ is, i.Valid) :
    Represents (s.insertAll is) (S ∪ {p | Covered is p}) where
  wellFormed := h.wellFormed.insertAll his
  contains_iff p := by
    rw [h.wellFormed.contains_insertAll his, Bool.or_eq_true, h.contains_iff, ← covered_iff_any]
    rfl

/-- One admissible change succeeds and leaves the set the points it means. -/
theorem apply (h : Represents s S) {c : Change} (hc : c.Admissible) :
    ∃ t, c.apply s = .ok t ∧ Represents t (c.meaning S) := by
  cases c with
  | insert i => exact ⟨_, rfl, h.insert hc⟩
  | remove i => exact ⟨_, rfl, h.remove hc⟩
  | insertAll is => exact ⟨_, rfl, h.insertAll hc⟩
  | insertBetween c d =>
    have hmade := Interval.between_eq_ok hc
    exact ⟨_, by rw [Change.apply, hmade]; rfl, h.insert (Interval.valid_of_between hmade)⟩
  | removeBetween c d =>
    have hmade := Interval.between_eq_ok hc
    exact ⟨_, by rw [Change.apply, hmade]; rfl, h.remove (Interval.valid_of_between hmade)⟩

theorem run (h : Represents s S) {changes : List Change} (hadm : ∀ c ∈ changes, c.Admissible) :
    ∃ t, Change.run s changes = .ok t ∧ Represents t (changes.foldl Change.meaning S) := by
  induction changes generalizing s S with
  | nil => exact ⟨s, rfl, h⟩
  | cons c changes ih =>
    obtain ⟨hc, hadm⟩ := List.forall_mem_cons.1 hadm
    obtain ⟨t, happ, ht⟩ := h.apply hc
    obtain ⟨u, hrun, hu⟩ := ih ht hadm
    refine ⟨u, ?_, hu⟩
    rw [Change.run, List.foldlM_cons, happ]
    exact hrun

end Represents

/-- Whatever a set is built from and however it is changed, after each of the first steps the run
has succeeded and the members are the points of the reference, also those asked above the domain. -/
theorem Change.run_contains_iff {s : PointSet} {S : Set Nat} (h : Built s S)
    {changes : List Change} (hadm : ∀ c ∈ changes, c.Admissible) (k : Nat) :
    ∃ t, run s (changes.take k) = .ok t ∧
      ∀ p, t.contains p = true ↔ p ∈ (changes.take k).foldl meaning S := by
  obtain ⟨t, hrun, ht⟩ := h.represents.run fun c hc => hadm c (List.mem_of_mem_take hc)
  exact ⟨t, hrun, ht.contains_iff⟩

/-- The digits, grown behind the last one, split at `5`, and joined by letters further on. -/
theorem Change.run_contains_iff_of_digits :
    Built Predefined.digit.set {p | Covered Predefined.digit.intervals p} ∧
      (∀ c ∈ [insert ⟨0x3A, 0x40⟩, removeBetween '5' '5', insertAll [⟨0x61, 0x66⟩, ⟨0x41, 0x60⟩]],
        c.Admissible) ∧
      ∃ t, run Predefined.digit.set
          [insert ⟨0x3A, 0x40⟩, removeBetween '5' '5',
            insertAll [⟨0x61, 0x66⟩, ⟨0x41, 0x60⟩]] = .ok t ∧
        ∀ p, t.contains p = true ↔
          p ∈ [insert ⟨0x3A, 0x40⟩, removeBetween '5' '5',
            insertAll [⟨0x61, 0x66⟩, ⟨0x41, 0x60⟩]].foldl meaning
              {p | Covered Predefined.digit.intervals p} :=
  have hadm : ∀ c ∈ [insert ⟨0x3A, 0x40⟩, removeBetween '5' '5',
      insertAll [⟨0x61, 0x66⟩, ⟨0x41, 0x60⟩]], c.Admissible := by decide
  ⟨.predefined .digit, hadm, run_contains_iff (.predefined .digit) hadm 3⟩

end CharClass
