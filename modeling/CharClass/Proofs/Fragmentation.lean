import CharClass.Proofs.Reachable
import Mathlib.Data.Finset.Card
import Mathlib.Data.Finset.Range
import Mathlib.Data.Nat.Find

/-!
# How many intervals a set can have

A border is a point that is a member while the point before it is none, or the other way round. Each
interval has two: where it starts, and the point behind its end. The intervals are separated, so no
border is one of two intervals, and a set has twice as many borders as intervals
(`WellFormed.card_borders`).

Borders are a matter of members only. Where neither of two sets has one, no set whose members are
told from theirs has one either (`isBorder_of_combine`). So whatever the algebra makes of two sets
on the way, what comes out has no more intervals than both together. An intersection has one less:
the least point of both sets is a border of each, or it is a border that is lost.
-/

namespace CharClass

/-! ## Borders -/

/-- Whether `q` changes from the point before `p` to `p`. Before the least point nothing satisfies
`q`. -/
def isBorder (q : Nat → Bool) : Nat → Bool
  | 0 => q 0
  | p + 1 => q p != q (p + 1)

/-- What is told from `q` and `r` changes only where one of them does. -/
theorem isBorder_of_combine {f : Bool → Bool → Bool} {q r : Nat → Bool} {p : Nat}
    (hf : f false false = false) (h : isBorder (fun p => f (q p) (r p)) p = true) :
    isBorder q p = true ∨ isBorder r p = true := by
  cases p with
  | zero =>
    by_cases hq : q 0 = true
    · exact .inl hq
    · have h : f (q 0) (r 0) = true := h
      refine .inr (Bool.of_not_eq_false fun hr => ?_)
      have hr : r 0 = false := hr
      rw [Bool.eq_false_iff.2 hq, hr, hf] at h
      exact Bool.false_ne_true h
  | succ p =>
    have h : f (q p) (r p) ≠ f (q (p + 1)) (r (p + 1)) := bne_iff_ne.1 h
    by_cases hq : q p = q (p + 1)
    · refine .inr (bne_iff_ne.2 fun hr => h ?_)
      rw [hq, hr]
    · exact .inl (bne_iff_ne.2 hq)

/-- Where the point before `p` is none, `p` is a border if it is a member. -/
theorem isBorder_eq {q : Nat → Bool} {p : Nat} (hbefore : 0 < p → q (p - 1) = false) :
    isBorder q p = q p := by
  cases p with
  | zero => rfl
  | succ p =>
    have hbefore : q p = false := hbefore (Nat.succ_pos p)
    rw [isBorder, hbefore]
    exact Bool.false_bne _

/-- The first point of an interval and the point behind its last one. -/
def Interval.borders (i : Interval) : List Nat := [i.first, i.last + 1]

theorem length_flatMap_borders (is : List Interval) :
    (is.flatMap Interval.borders).length = 2 * is.length := by
  induction is with
  | nil => rfl
  | cons i is ih =>
    rw [List.flatMap_cons, List.length_append, ih, List.length_cons]
    simp only [Interval.borders, List.length_cons, List.length_nil]
    omega

/-- No interval starts where another one ends, or right behind it. -/
theorem Normal.nodup_borders {is : List Interval} (h : Normal is) :
    (is.flatMap Interval.borders).Nodup := by
  have hascend : (is.flatMap Interval.borders).Pairwise (· < ·) := by
    refine List.pairwise_flatMap.2 ⟨?_, ?_⟩
    · intro i hi
      have hle : i.first < i.last + 1 := Nat.lt_succ_of_le (h.valid i hi).1
      simpa [Interval.borders] using hle
    · refine h.separated.imp_of_mem fun {i j} hi hj hsep => ?_
      have hgap : i.last + 1 < j.first := hsep
      have hfirst := (h.valid i hi).1
      have hlast := (h.valid j hj).1
      intro p hp r hr
      simp only [Interval.borders, List.mem_cons, List.not_mem_nil, or_false] at hp hr
      omega
  exact hascend.imp Nat.ne_of_lt

namespace PointSet

/-- The borders of the members. The point behind the domain may be one. -/
def borders (s : PointSet) : Finset Nat :=
  (Finset.range (maxPoint + 2)).filter fun p => isBorder s.contains p = true

namespace WellFormed

variable {s t u : PointSet}

theorem isBorder_first (h : s.WellFormed) {i : Interval} (hi : i ∈ s.intervals.toList) :
    isBorder s.contains i.first = true := by
  rw [isBorder_eq]
  · exact h.contains_iff.2 ⟨i, hi, Interval.includes_first (h.valid i hi)⟩
  · intro hpos
    have hbefore := h.normal.not_covered_pred_first hi hpos
    exact Bool.eq_false_iff.2 (mt h.contains_iff.1 hbefore)

theorem isBorder_succ_last (h : s.WellFormed) {i : Interval} (hi : i ∈ s.intervals.toList) :
    isBorder s.contains (i.last + 1) = true := by
  have hlast : s.contains i.last = true :=
    h.contains_iff.2 ⟨i, hi, Interval.includes_last (h.valid i hi)⟩
  have hbehind : s.contains (i.last + 1) = false :=
    Bool.eq_false_iff.2 (mt h.contains_iff.1 (h.normal.not_covered_succ_last hi))
  rw [isBorder, hlast, hbehind]
  rfl

/-- The borders of the members are those of the intervals. -/
theorem isBorder_iff (h : s.WellFormed) {p : Nat} :
    isBorder s.contains p = true ↔ ∃ i ∈ s.intervals.toList, p = i.first ∨ p = i.last + 1 := by
  constructor
  · intro hborder
    cases p with
    | zero =>
      obtain ⟨i, hi, hincl⟩ := h.contains_iff.1 hborder
      exact ⟨i, hi, .inl (Nat.le_zero.1 (Interval.includes_eq_true.1 hincl).1).symm⟩
    | succ p =>
      have hne : ¬(s.contains p = true ↔ s.contains (p + 1) = true) :=
        mt Bool.eq_iff_iff.2 (bne_iff_ne.1 hborder)
      rw [h.contains_iff, h.contains_iff] at hne
      by_cases hp : Covered s.intervals.toList p
      · obtain ⟨i, hi, hlast⟩ := hp.exists_last_eq fun hnext => hne (iff_of_true hp hnext)
        exact ⟨i, hi, .inr (congrArg Nat.succ hlast.symm)⟩
      · have hnext := not_not.1 fun hnext => hne (iff_of_false hp hnext)
        obtain ⟨i, hi, hfirst⟩ := Covered.exists_first_eq hnext fun _ => hp
        exact ⟨i, hi, .inl hfirst.symm⟩
  · intro ⟨i, hi, hp⟩
    rcases hp with rfl | rfl
    · exact h.isBorder_first hi
    · exact h.isBorder_succ_last hi

theorem mem_borders (h : s.WellFormed) {p : Nat} :
    p ∈ s.borders ↔ isBorder s.contains p = true := by
  rw [borders, Finset.mem_filter, Finset.mem_range]
  refine and_iff_right_of_imp fun hborder => ?_
  obtain ⟨i, hi, hp⟩ := h.isBorder_iff.1 hborder
  obtain ⟨hfirst, hlast⟩ := h.valid i hi
  omega

/-- The first border is the least member. -/
theorem mem_borders_of_least (h : s.WellFormed) {m : Nat} (hbelow : ∀ p < m, s.contains p = false) :
    m ∈ s.borders ↔ s.contains m = true := by
  rw [h.mem_borders, isBorder_eq fun hpos => hbelow (m - 1) (Nat.sub_one_lt_of_lt hpos)]

/-- There are two borders to an interval. -/
theorem card_borders (h : s.WellFormed) : s.borders.card = 2 * s.intervalCount := by
  have hlist : s.borders = (s.intervals.toList.flatMap Interval.borders).toFinset := by
    ext p
    rw [h.mem_borders, h.isBorder_iff, List.mem_toFinset, List.mem_flatMap]
    simp only [Interval.borders, List.mem_cons, List.not_mem_nil, or_false]
  rw [hlist, List.toFinset_card_of_nodup h.normal.nodup_borders, length_flatMap_borders,
    Array.length_toList]
  rfl

/-! ## Bounds for pairs of sets -/

section
variable {f : Bool → Bool → Bool} (hs : s.WellFormed) (ht : t.WellFormed) (hu : u.WellFormed)
  (hf : f false false = false) (hmem : ∀ p, u.contains p = f (s.contains p) (t.contains p))

include hs ht hu hf hmem

theorem borders_subset : u.borders ⊆ s.borders ∪ t.borders := by
  intro p hp
  rw [Finset.mem_union, hs.mem_borders, ht.mem_borders]
  have hborder := hu.mem_borders.1 hp
  rw [funext hmem] at hborder
  exact isBorder_of_combine hf hborder

/-- Whatever is told from the members of two sets has no more intervals than both together. -/
theorem intervalCount_le : u.intervalCount ≤ s.intervalCount + t.intervalCount := by
  have hcard := (Finset.card_le_card (borders_subset hs ht hu hf hmem)).trans
    (Finset.card_union_le _ _)
  rw [hs.card_borders, ht.card_borders, hu.card_borders] at hcard
  omega

/-- If a border is lost, or two become one, it has less. -/
theorem intervalCount_lt {p : Nat} (hp : p ∈ s.borders ∪ t.borders)
    (hlost : p ∉ u.borders ∨ p ∈ s.borders ∩ t.borders) :
    u.intervalCount < s.intervalCount + t.intervalCount := by
  have hsubset := borders_subset hs ht hu hf hmem
  have hsum := Finset.card_union_add_card_inter s.borders t.borders
  have hcard : u.borders.card < s.borders.card + t.borders.card := by
    rcases hlost with hlost | hboth
    · have hproper : u.borders.card < (s.borders ∪ t.borders).card :=
        Finset.card_lt_card ((Finset.ssubset_iff_of_subset hsubset).2 ⟨p, hp, hlost⟩)
      omega
    · have hle := Finset.card_le_card hsubset
      have hpos : 0 < (s.borders ∩ t.borders).card := Finset.card_pos.2 ⟨p, hboth⟩
      omega
  rw [hs.card_borders, ht.card_borders, hu.card_borders] at hcard
  omega

end

section
variable (hs : s.WellFormed) (ht : t.WellFormed)
include hs ht

theorem intervalCount_union_le :
    (s.union t).intervalCount ≤ s.intervalCount + t.intervalCount :=
  intervalCount_le hs ht (hs.union ht) (f := (· || ·)) rfl (hs.contains_union ht)

theorem intervalCount_difference_le :
    (s.difference t).intervalCount ≤ s.intervalCount + t.intervalCount :=
  intervalCount_le hs ht (hs.difference ht) (f := (· && !·)) rfl (hs.contains_difference ht)

theorem intervalCount_symmetricDifference_le :
    (s.symmetricDifference t).intervalCount ≤ s.intervalCount + t.intervalCount :=
  intervalCount_le hs ht (hs.symmetricDifference ht) (f := (· ^^ ·)) rfl
    (hs.contains_symmetricDifference ht)

/-- The least point of both sets is a border of each, or the intersection starts later. -/
theorem intervalCount_intersection_lt (hmember : ∃ p, s.contains p = true ∨ t.contains p = true) :
    (s.intersection t).intervalCount < s.intervalCount + t.intervalCount := by
  have hbelow : ∀ p < Nat.find hmember, s.contains p = false ∧ t.contains p = false := by
    intro p hp
    have hnone := Nat.find_min hmember hp
    simpa only [not_or, Bool.not_eq_true] using hnone
  have hleast := Nat.find_spec hmember
  generalize Nat.find hmember = m at hbelow hleast
  have hinter := hs.contains_intersection ht
  have hborder := hs.mem_borders_of_least fun p hp => (hbelow p hp).1
  have hborder' := ht.mem_borders_of_least fun p hp => (hbelow p hp).2
  have hborder'' : m ∈ (s.intersection t).borders ↔ (s.intersection t).contains m = true := by
    refine (hs.intersection ht).mem_borders_of_least fun p hp => ?_
    rw [hinter, (hbelow p hp).1, Bool.false_and]
  refine intervalCount_lt hs ht (hs.intersection ht) (f := (· && ·)) rfl hinter (p := m) ?_ ?_
  · rw [Finset.mem_union, hborder, hborder']
    exact hleast
  · rw [Finset.mem_inter, hborder, hborder', hborder'', hinter, Bool.and_eq_true]
    exact (em _).symm

end

/-! ## Bounds for runs -/

section
variable {i : Interval} (h : s.WellFormed) (hi : i.Valid)
include h hi

theorem intervalCount_insert_le : (s.insert i).intervalCount ≤ s.intervalCount + 1 := by
  have hmem : ∀ p, (s.insert i).contains p =
      (s.contains p || (PointSet.ofInterval i).contains p) := by
    intro p
    rw [h.contains_insert hi, contains_ofInterval hi]
  exact intervalCount_le h (.ofInterval hi) (h.insert hi) (f := (· || ·)) rfl hmem

theorem intervalCount_remove_le : (s.remove i).intervalCount ≤ s.intervalCount + 1 := by
  have hmem : ∀ p, (s.remove i).contains p =
      (s.contains p && !(PointSet.ofInterval i).contains p) := by
    intro p
    rw [h.contains_remove hi, contains_ofInterval hi]
  exact intervalCount_le h (.ofInterval hi) (h.remove hi) (f := (· && !·)) rfl hmem

end

theorem intervalCount_insertAll_le {is : List Interval} (h : s.WellFormed)
    (his : ∀ i ∈ is, i.Valid) :
    (s.insertAll is).intervalCount ≤ s.intervalCount + is.length := by
  induction is generalizing s with
  | nil => exact Nat.le_refl _
  | cons i is ih =>
    obtain ⟨hi, his⟩ := List.forall_mem_cons.1 his
    have hstep := h.intervalCount_insert_le hi
    have hrest := ih (h.insert hi) his
    rw [List.length_cons]
    exact Nat.le_trans hrest (by omega)

end WellFormed

end PointSet

/-- The intervals that a change puts in or takes out, one after the other. -/
def Change.intervals : Change → List Interval
  | insert i | remove i => [i]
  | insertAll is => is
  | insertBetween c d | removeBetween c d => [⟨c.toNat, d.toNat⟩]

/-- Changes that name one interval each name as many as they are. -/
theorem Change.length_flatMap_intervals {changes : List Change}
    (hone : ∀ c ∈ changes, c.intervals.length = 1) :
    (changes.flatMap intervals).length = changes.length := by
  rw [List.length_flatMap, List.map_congr_left hone, List.map_const', List.sum_replicate_nat,
    Nat.mul_one]

namespace PointSet.WellFormed

variable {s t : PointSet}

/-- A change makes at most one interval more for each one that it puts in or takes out. -/
theorem intervalCount_apply_le {c : Change} (h : s.WellFormed) (hc : c.Admissible)
    (happ : c.apply s = .ok t) : t.intervalCount ≤ s.intervalCount + c.intervals.length := by
  cases c with
  | insert i =>
    cases happ
    exact h.intervalCount_insert_le hc
  | remove i =>
    cases happ
    exact h.intervalCount_remove_le hc
  | insertAll is =>
    cases happ
    exact h.intervalCount_insertAll_le hc
  | insertBetween c d =>
    obtain ⟨i, hmade, rfl⟩ := map_ok_iff.1 happ
    exact h.intervalCount_insert_le (Interval.valid_of_between hmade)
  | removeBetween c d =>
    obtain ⟨i, hmade, rfl⟩ := map_ok_iff.1 happ
    exact h.intervalCount_remove_le (Interval.valid_of_between hmade)

theorem intervalCount_run_le {changes : List Change} (h : s.WellFormed)
    (hadm : ∀ c ∈ changes, c.Admissible) :
    ∃ t, Change.run s changes = .ok t ∧
      t.intervalCount ≤ s.intervalCount + (changes.flatMap Change.intervals).length := by
  induction changes generalizing s with
  | nil => exact ⟨s, rfl, Nat.le_refl _⟩
  | cons c changes ih =>
    obtain ⟨hc, hadm⟩ := List.forall_mem_cons.1 hadm
    obtain ⟨t, happ, ht⟩ := h.represents.apply hc
    obtain ⟨u, hrun, hcount⟩ := ih ht.wellFormed hadm
    have hstep := h.intervalCount_apply_le hc happ
    refine ⟨u, ?_, ?_⟩
    · rw [Change.run, List.foldlM_cons, happ]
      exact hrun
    · rw [List.flatMap_cons, List.length_append]
      omega

end PointSet.WellFormed

/-! ## The bounds -/

/-- How many intervals there are at most in what the algebra makes of two sets, and in what a run of
changes makes of the first one. A run is counted by the intervals that it puts in and takes out, so
by its changes if each of them names one. -/
structure CountBounds (a b : PointSet) : Prop where
  union : (a.union b).intervalCount ≤ a.intervalCount + b.intervalCount
  difference : (a.difference b).intervalCount ≤ a.intervalCount + b.intervalCount
  symmetricDifference : (a.symmetricDifference b).intervalCount ≤ a.intervalCount + b.intervalCount
  intersection : a.isEmpty = false → b.isEmpty = false →
    (a.intersection b).intervalCount + 1 ≤ a.intervalCount + b.intervalCount
  intersection_empty : a.isEmpty = true ∨ b.isEmpty = true → (a.intersection b).intervalCount = 0
  run : ∀ changes : List Change, (∀ c ∈ changes, c.Admissible) →
    ∃ t, Change.run a changes = .ok t ∧
      t.intervalCount ≤ a.intervalCount + (changes.flatMap Change.intervals).length ∧
      ((∀ c ∈ changes, c.intervals.length = 1) →
        t.intervalCount ≤ a.intervalCount + changes.length)

theorem Reachable.count_bounds {a b : PointSet} (ha : Reachable a) (hb : Reachable b) :
    CountBounds a b := by
  have ha := ha.wellFormed
  have hb := hb.wellFormed
  refine
    { union := ha.intervalCount_union_le hb
      difference := ha.intervalCount_difference_le hb
      symmetricDifference := ha.intervalCount_symmetricDifference_le hb
      intersection := ?_
      intersection_empty := ?_
      run := ?_ }
  · intro hsome _
    obtain ⟨p, hp⟩ := ha.exists_contains_iff.2 hsome
    exact ha.intervalCount_intersection_lt hb ⟨p, .inl hp⟩
  · intro hempty
    have hnone : (a.intersection b).isEmpty = true := by
      refine Bool.of_not_eq_false fun hsome => ?_
      obtain ⟨p, hp⟩ := (ha.intersection hb).exists_contains_iff.2 hsome
      rw [ha.contains_intersection hb, Bool.and_eq_true] at hp
      have ha' := ha.exists_contains_iff.1 ⟨p, hp.1⟩
      have hb' := hb.exists_contains_iff.1 ⟨p, hp.2⟩
      rw [ha', hb'] at hempty
      exact Bool.false_ne_true (or_self_iff.1 hempty)
    exact Array.size_eq_zero_iff.2 (Array.isEmpty_iff.1 hnone)
  · intro changes hadm
    obtain ⟨t, hrun, hcount⟩ := ha.intervalCount_run_le hadm
    refine ⟨t, hrun, hcount, fun hone => ?_⟩
    rw [Change.length_flatMap_intervals hone] at hcount
    exact hcount

/-- What is cut out of the letters by the points from `E` to `e` takes all that the bound allows,
and so does splitting the capitals and adding the digits. -/
theorem Reachable.count_bounds_of_letters :
    Reachable Predefined.alpha.set ∧ Reachable (.ofInterval ⟨0x45, 0x65⟩) ∧
      ((Predefined.alpha.set.intersection (.ofInterval ⟨0x45, 0x65⟩)).intervalCount = 2 ∧
        (Predefined.alpha.set.intersection (.ofInterval ⟨0x45, 0x65⟩)).intervalCount + 1 ≤
          Predefined.alpha.set.intervalCount +
            (PointSet.ofInterval ⟨0x45, 0x65⟩).intervalCount) ∧
      ∃ t, Change.run Predefined.alpha.set [.remove ⟨0x45, 0x45⟩, .insert ⟨0x30, 0x39⟩] = .ok t ∧
        t.intervalCount ≤ Predefined.alpha.set.intervalCount + 2 := by
  have ha : Reachable Predefined.alpha.set := .built (.predefined .alpha)
  have hb : Reachable (.ofInterval ⟨0x45, 0x65⟩) := .built (.ofInterval (by decide))
  have hbounds := count_bounds ha hb
  have hcount :
      (Predefined.alpha.set.intersection (.ofInterval ⟨0x45, 0x65⟩)).intervalCount = 2 := by
    decide +kernel
  have hsome : Predefined.alpha.set.isEmpty = false := by decide +kernel
  obtain ⟨t, hrun, -, hgrown⟩ :=
    hbounds.run [.remove ⟨0x45, 0x45⟩, .insert ⟨0x30, 0x39⟩] (by decide)
  exact ⟨ha, hb, ⟨hcount, hbounds.intersection hsome rfl⟩, t, hrun, hgrown (by decide)⟩

end CharClass
