import CharClass.Proofs.Reachable
import Mathlib.Data.List.Induction

/-!
# The last change decides

What a run of changes leaves of a point depends on the last change that touches it, and on the set
before the run only where none does (`Change.mem_foldl_meaning`). Two runs whose verdicts agree at
every point of the domain end with the same members, so with the same set
(`PointSet.WellFormed.run_eq`), though the sets on the way may have nothing in common. The order of
changes that touch no common point, the order and the number of the intervals that are collected,
and whether they are collected before they are inserted make no difference.
-/

namespace CharClass

namespace Change

/-- Whether the change speaks of the point `p`. -/
def touches (p : Nat) : Change → Bool
  | insert i | remove i => i.includes p
  | insertAll is => is.any (·.includes p)
  | insertBetween c d | removeBetween c d => (⟨c.toNat, d.toNat⟩ : Interval).includes p

/-- Whether the points that the change touches are put in, and not taken out. -/
def inserts : Change → Bool
  | insert _ | insertAll _ | insertBetween _ _ => true
  | remove _ | removeBetween _ _ => false

/-- What the last of the changes that touch `p` does with it, if there is one. -/
def verdict (p : Nat) (changes : List Change) : Option Bool :=
  (changes.filter (touches p)).getLast?.map inserts

/-! ## Points -/

section
variable {c : Change} {p : Nat} {S : Set Nat}

theorem mem_meaning_of_touches (h : c.touches p = true) : p ∈ c.meaning S ↔ c.inserts = true := by
  cases c with
  | insert i | insertBetween c d =>
    have hp := Interval.includes_eq_true.1 h
    exact iff_of_true (.inr hp) rfl
  | insertAll is => exact iff_of_true (.inr (covered_iff_any.2 h)) rfl
  | remove i | removeBetween c d =>
    have hp := Interval.includes_eq_true.1 h
    exact iff_of_false (fun hmem => hmem.2 hp) Bool.false_ne_true

theorem mem_meaning_of_not_touches (h : ¬c.touches p = true) : p ∈ c.meaning S ↔ p ∈ S := by
  cases c with
  | insert i | insertBetween c d =>
    have hp := mt Interval.includes_eq_true.2 h
    exact or_iff_left hp
  | insertAll is => exact or_iff_left (mt covered_iff_any.1 h)
  | remove i | removeBetween c d =>
    have hp := mt Interval.includes_eq_true.2 h
    exact and_iff_left hp

end

theorem verdict_concat (p : Nat) (changes : List Change) (c : Change) :
    verdict p (changes ++ [c]) =
      if c.touches p = true then some c.inserts else verdict p changes := by
  unfold verdict
  rw [List.filter_append]
  by_cases h : c.touches p = true
  · rw [if_pos h, List.filter_singleton, h]
    simp
  · rw [if_neg h, List.filter_singleton, Bool.eq_false_iff.2 h]
    simp

/-- A run puts a point in or takes it out as the last change that touches it says. A point that no
change touches stays as it is. -/
theorem mem_foldl_meaning (p : Nat) (changes : List Change) (S : Set Nat) :
    p ∈ changes.foldl meaning S ↔ (verdict p changes).elim (p ∈ S) (· = true) := by
  -- from the back: where the last change touches `p`, what was before does not count
  induction changes using List.reverseRecOn with
  | nil => rfl
  | append_singleton changes c ih =>
    rw [List.foldl_append, verdict_concat]
    by_cases h : c.touches p = true
    · rw [if_pos h]
      exact mem_meaning_of_touches h
    · rw [if_neg h, ← ih]
      exact mem_meaning_of_not_touches h

/-- Where at most one of two changes touches a point, their order does not matter. -/
theorem verdict_swap {p : Nat} {c d : Change} (h : ¬(c.touches p = true ∧ d.touches p = true)) :
    verdict p [c, d] = verdict p [d, c] := by
  by_cases hc : c.touches p = true
  · have hd : ¬d.touches p = true := fun hd => h ⟨hc, hd⟩
    simp [verdict, hc, hd]
  · simp [verdict, List.filter_cons, hc]

end Change

namespace PointSet.WellFormed

variable {s : PointSet}

/-- Two runs with one verdict for each point end with one set. -/
theorem run_eq (h : s.WellFormed) {cs ds : List Change} (hcs : ∀ c ∈ cs, c.Admissible)
    (hds : ∀ d ∈ ds, d.Admissible)
    (hverdict : ∀ p ≤ maxPoint, Change.verdict p cs = Change.verdict p ds) :
    ∃ t, Change.run s cs = .ok t ∧ Change.run s ds = .ok t := by
  obtain ⟨t, ht, hrep⟩ := h.represents.run hcs
  obtain ⟨u, hu, hrep'⟩ := h.represents.run hds
  have heq : t = u := by
    refine hrep.wellFormed.ext_of_le_maxPoint hrep'.wellFormed fun p hp => ?_
    rw [Bool.eq_iff_iff, hrep.contains_iff, hrep'.contains_iff, Change.mem_foldl_meaning,
      Change.mem_foldl_meaning, hverdict p hp]
  exact ⟨t, ht, heq ▸ hu⟩

theorem insertAll_eq_union (h : s.WellFormed) {is : List Interval} (his : ∀ i ∈ is, i.Valid) :
    s.insertAll is = s.union (PointSet.ofList is) := by
  refine (h.insertAll his).ext (h.union (ofList his)) fun p => ?_
  rw [h.contains_insertAll his, h.contains_union (ofList his), contains_ofList his]

end PointSet.WellFormed

/-- The collected set depends only on which intervals there are. -/
theorem PointSet.ofList_congr {is js : List Interval} (his : ∀ i ∈ is, i.Valid)
    (h : ∀ i, i ∈ is ↔ i ∈ js) : ofList is = ofList js := by
  have hjs : ∀ j ∈ js, j.Valid := fun j hj => his j ((h j).2 hj)
  refine (ofList_eq_iff his hjs).2 fun p => ?_
  simp only [Covered, h]

/-- Runs that treat each point alike in the end reach one set: in particular two changes of no
common point in either order, intervals collected in any order and number, and intervals inserted at
once or collected before. -/
theorem Reachable.order_independent {s : PointSet} (hs : Reachable s) :
    (∀ cs ds : List Change, (∀ c ∈ cs, c.Admissible) → (∀ d ∈ ds, d.Admissible) →
        (∀ p ≤ maxPoint, Change.verdict p cs = Change.verdict p ds) →
        ∃ t, Change.run s cs = .ok t ∧ Change.run s ds = .ok t) ∧
      (∀ c d : Change, c.Admissible → d.Admissible →
        (∀ p, ¬(c.touches p = true ∧ d.touches p = true)) →
        ∃ t, Change.run s [c, d] = .ok t ∧ Change.run s [d, c] = .ok t) ∧
      (∀ is js : List Interval, (∀ i ∈ is, i.Valid) → (∀ i, i ∈ is ↔ i ∈ js) →
        PointSet.ofList is = PointSet.ofList js) ∧
      ∀ is : List Interval, (∀ i ∈ is, i.Valid) → s.insertAll is = s.union (.ofList is) := by
  have hs := hs.wellFormed
  refine ⟨fun cs ds => hs.run_eq, fun c d hc hd hdisjoint => ?_, fun is js => PointSet.ofList_congr,
    fun is => hs.insertAll_eq_union⟩
  refine hs.run_eq ?_ ?_ fun p _ => Change.verdict_swap (hdisjoint p)
  · simp [hc, hd]
  · simp [hc, hd]

/-- The letters `a` to `f` without `c` and `d`, on top of the digits: cut out afterwards, or never
put in. -/
theorem Reachable.order_independent_of_digits :
    Reachable Predefined.digit.set ∧
      (∀ p ≤ maxPoint, Change.verdict p [.insert ⟨0x61, 0x66⟩, .remove ⟨0x63, 0x64⟩] =
        Change.verdict p [.remove ⟨0x63, 0x64⟩, .insert ⟨0x65, 0x66⟩, .insert ⟨0x61, 0x62⟩]) ∧
      ∃ t, Change.run Predefined.digit.set [.insert ⟨0x61, 0x66⟩, .remove ⟨0x63, 0x64⟩] = .ok t ∧
        Change.run Predefined.digit.set
          [.remove ⟨0x63, 0x64⟩, .insert ⟨0x65, 0x66⟩, .insert ⟨0x61, 0x62⟩] = .ok t :=
  have hs : Reachable Predefined.digit.set := .built (.predefined .digit)
  have hverdict : ∀ p ≤ maxPoint, Change.verdict p [.insert ⟨0x61, 0x66⟩, .remove ⟨0x63, 0x64⟩] =
      Change.verdict p [.remove ⟨0x63, 0x64⟩, .insert ⟨0x65, 0x66⟩, .insert ⟨0x61, 0x62⟩] := by
    intro p _
    change Change.verdict p ([] ++ [_] ++ [_]) = Change.verdict p ([] ++ [_] ++ [_] ++ [_])
    simp only [Change.verdict_concat, Change.touches, Change.inserts, Interval.includes_eq_true]
    grind
  ⟨hs, hverdict, (order_independent hs).1 _ _ (by decide) (by decide) hverdict⟩

end CharClass
