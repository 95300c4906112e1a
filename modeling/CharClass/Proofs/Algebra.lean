import CharClass.PointSet.Algebra
import CharClass.Proofs.Insertion
import CharClass.Proofs.Removal

/-!
# The algebra on well-formed sets

Union and difference are folds of insertions and removals over the other operand's intervals, which
together include exactly its members (`any_includes`). The other operations are built of these two
and of the whole domain, so each keeps sets well formed and acts on members point by point.
-/

namespace CharClass.PointSet

@[simp] theorem contains_empty (p : Nat) : empty.contains p = false := by
  simp [contains, empty, AsciiMap.get, AsciiMap.empty, found]

theorem contains_ofInterval {i : Interval} (hi : i.Valid) (p : Nat) :
    (ofInterval i).contains p = i.includes p := by
  rw [Bool.eq_iff_iff, (WellFormed.ofInterval hi).contains_iff]
  simp [ofInterval, ofIntervals]

theorem contains_ofList {is : List Interval} (h : ∀ i ∈ is, i.Valid) (p : Nat) :
    (ofList is).contains p = is.any (·.includes p) := by
  rw [ofList, WellFormed.empty.contains_insertAll h, contains_empty, Bool.false_or]

theorem valid_domain : ∀ i ∈ [(⟨minPoint, maxPoint⟩ : Interval)], i.Valid := by decide

@[simp] theorem contains_everything (p : Nat) : everything.contains p = decide (p ≤ maxPoint) := by
  rw [everything, contains_ofList valid_domain]
  simp [Interval.includes, minPoint]

namespace WellFormed

variable {s t : PointSet}

theorem ofList {is : List Interval} (h : ∀ i ∈ is, i.Valid) : (PointSet.ofList is).WellFormed :=
  empty.insertAll h

theorem everything : PointSet.everything.WellFormed := ofList valid_domain

theorem any_includes (h : s.WellFormed) (p : Nat) :
    s.intervals.toList.any (·.includes p) = s.contains p := by
  rw [Bool.eq_iff_iff, ← covered_iff_any, h.contains_iff]

/-- A set without intervals has no members, and the others have some. -/
theorem exists_contains_iff (h : s.WellFormed) :
    (∃ p, s.contains p = true) ↔ s.isEmpty = false := by
  constructor
  · intro ⟨p, hp⟩
    refine Bool.eq_false_iff.2 fun hempty => ?_
    rw [h.isEmpty_iff.1 hempty, contains_empty] at hp
    exact Bool.false_ne_true hp
  · intro hsome
    cases hlist : s.intervals.toList with
    | nil =>
      rw [isEmpty, ← Array.isEmpty_toList, hlist] at hsome
      cases hsome
    | cons i is =>
      have hnormal := h.normal
      rw [hlist] at hnormal
      exact ⟨i.first, h.contains_iff.2 (hlist ▸ hnormal.covered_first)⟩

/-- Collecting the intervals of a set gives the set. -/
theorem ofList_intervals (h : s.WellFormed) : PointSet.ofList s.intervals.toList = s := by
  refine (ofList h.valid).ext h fun p => ?_
  rw [contains_ofList h.valid, h.any_includes]

theorem union (hs : s.WellFormed) (ht : t.WellFormed) : (s.union t).WellFormed :=
  hs.insertAll ht.valid

theorem contains_union (hs : s.WellFormed) (ht : t.WellFormed) (p : Nat) :
    (s.union t).contains p = (s.contains p || t.contains p) := by
  rw [PointSet.union, hs.contains_insertAll ht.valid, ht.any_includes]

theorem difference (hs : s.WellFormed) (ht : t.WellFormed) : (s.difference t).WellFormed :=
  hs.removeAll ht.valid

theorem contains_difference (hs : s.WellFormed) (ht : t.WellFormed) (p : Nat) :
    (s.difference t).contains p = (s.contains p && !t.contains p) := by
  rw [PointSet.difference, hs.contains_removeAll ht.valid, ht.any_includes]

theorem complement (hs : s.WellFormed) : s.complement.WellFormed := everything.difference hs

theorem contains_complement (hs : s.WellFormed) (p : Nat) :
    s.complement.contains p = (decide (p ≤ maxPoint) && !s.contains p) := by
  rw [PointSet.complement, everything.contains_difference hs, contains_everything]

theorem intersection (hs : s.WellFormed) (ht : t.WellFormed) : (s.intersection t).WellFormed :=
  hs.difference ht.complement

theorem contains_intersection (hs : s.WellFormed) (ht : t.WellFormed) (p : Nat) :
    (s.intersection t).contains p = (s.contains p && t.contains p) := by
  rw [PointSet.intersection, hs.contains_difference ht.complement, ht.contains_complement]
  -- above the domain `s` has no member, so nothing depends on the complement there
  by_cases hp : p ≤ maxPoint
  · simp [hp]
  · simp [hs.contains_eq_false (Nat.lt_of_not_le hp)]

theorem symmetricDifference (hs : s.WellFormed) (ht : t.WellFormed) :
    (s.symmetricDifference t).WellFormed :=
  (hs.difference ht).union (ht.difference hs)

theorem contains_symmetricDifference (hs : s.WellFormed) (ht : t.WellFormed) (p : Nat) :
    (s.symmetricDifference t).contains p = (s.contains p ^^ t.contains p) := by
  rw [PointSet.symmetricDifference, (hs.difference ht).contains_union (ht.difference hs),
    hs.contains_difference ht, ht.contains_difference hs]
  cases s.contains p <;> cases t.contains p <;> rfl

end WellFormed

theorem covered_ofList {is : List Interval} (h : ∀ i ∈ is, i.Valid) {p : Nat} :
    Covered (ofList is).intervals.toList p ↔ Covered is p := by
  rw [← (WellFormed.ofList h).contains_iff, contains_ofList h, covered_iff_any]

/-- Two lists are collected into one set just if they cover the same points. -/
theorem ofList_eq_iff {is js : List Interval} (his : ∀ i ∈ is, i.Valid) (hjs : ∀ i ∈ js, i.Valid) :
    ofList is = ofList js ↔ ∀ p, Covered is p ↔ Covered js p := by
  constructor
  · intro h p
    rw [← covered_ofList his, ← covered_ofList hjs, h]
  · intro h
    refine (WellFormed.ofList his).ext (.ofList hjs) fun p => ?_
    rw [contains_ofList his, contains_ofList hjs, Bool.eq_iff_iff, ← covered_iff_any,
      ← covered_iff_any, h p]

end CharClass.PointSet
