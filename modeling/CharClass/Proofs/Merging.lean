import CharClass.Proofs.Guarded

/-!
# Merging is union

Whether one interval can stand for two is decided by widths: their hull must be no wider than both
together. No end of one is compared with an end of the other, and still the answer is whether the
points of both are those of one interval (`Interval.mergeable_iff_exists_union`). If they are, the
hull is this interval. If not, a gap lies between the two, and the hull swallows it
(`Interval.exists_swallowed`).
-/

namespace CharClass.Interval

variable {i j k : Interval}

theorem includes_eq_false {p : Nat} : i.includes p = false ↔ p < i.first ∨ i.last < p := by
  rw [← Bool.not_eq_true, includes_eq_true]
  omega

/-- An interval that includes the points of two intervals includes those of their hull. -/
theorem includes_of_includes_hull (hi : i.Valid) (hj : j.Valid)
    (hincl : ∀ p, i.includes p = true ∨ j.includes p = true → k.includes p = true) {p : Nat}
    (hp : (i.hull j).includes p = true) : k.includes p = true := by
  have hfirst := hincl i.first (.inl (includes_first hi))
  have hlast := hincl i.last (.inl (includes_last hi))
  have hfirst' := hincl j.first (.inr (includes_first hj))
  have hlast' := hincl j.last (.inr (includes_last hj))
  simp only [includes_eq_true, hull] at hfirst hlast hfirst' hlast' hp ⊢
  omega

section
variable (hi : i.Valid) (hj : j.Valid)
include hi hj

/-- Where two intervals cannot be merged, the hull has the point behind the one that ends first, and
neither of the two has it. -/
theorem exists_swallowed (h : i.mergeable j = false) :
    ∃ p, (i.hull j).includes p = true ∧ i.includes p = false ∧ j.includes p = false := by
  have hgap : j.last + 1 < i.first ∨ i.last + 1 < j.first := by
    rw [← Bool.not_eq_true, mergeable_iff hi hj] at h
    omega
  obtain ⟨hi, -⟩ := hi
  obtain ⟨hj, -⟩ := hj
  simp only [includes_eq_true, includes_eq_false, hull]
  rcases hgap with hgap | hgap
  · exact ⟨j.last + 1, by omega⟩
  · exact ⟨i.last + 1, by omega⟩

theorem includes_hull_iff (h : i.mergeable j = true) (p : Nat) :
    (i.hull j).includes p = true ↔ i.includes p = true ∨ j.includes p = true := by
  simp only [includes_eq_true]
  exact mem_hull_iff hi hj h

theorem mergeable_iff_exists_union :
    i.mergeable j = true ↔
      ∃ k : Interval, ∀ p, k.includes p = true ↔ i.includes p = true ∨ j.includes p = true := by
  constructor
  · intro h
    exact ⟨i.hull j, includes_hull_iff hi hj h⟩
  · rintro ⟨k, hk⟩
    refine Bool.of_not_eq_false fun h => ?_
    obtain ⟨p, hp, hnot, hnot'⟩ := exists_swallowed hi hj h
    have hkp := includes_of_includes_hull hi hj (fun p => (hk p).2) hp
    rcases (hk p).1 hkp with hincl | hincl
    · exact absurd hincl (Bool.eq_false_iff.1 hnot)
    · exact absurd hincl (Bool.eq_false_iff.1 hnot')

end

/-! ## The laws -/

/-- What the comparison of widths says of two intervals. It can be done in 64 bits, without a
difference below zero, and the order of the two does not matter. It passes just if the points of
both are those of one interval, and so just if neither starts later than right behind the other; the
hull has these points then. Where it fails, the hull has a point of neither. -/
structure MergeLaws (i j : Interval) : Prop where
  guarded : Guarded.mergeable i j = .ok (i.mergeable j)
  contiguous : i.mergeable j = true ↔
    ∃ k : Interval, ∀ p, k.includes p = true ↔ i.includes p = true ∨ j.includes p = true
  ends : i.mergeable j = true ↔ i.first ≤ j.last + 1 ∧ j.first ≤ i.last + 1
  symmetric : j.mergeable i = i.mergeable j
  valid_hull : i.mergeable j = true → (i.hull j).Valid
  includes_hull : i.mergeable j = true →
    ∀ p, (i.hull j).includes p = true ↔ i.includes p = true ∨ j.includes p = true
  swallowed : i.mergeable j = false →
    ∃ p, (i.hull j).includes p = true ∧ i.includes p = false ∧ j.includes p = false

theorem merge_laws (hi : i.Valid) (hj : j.Valid) : MergeLaws i j where
  guarded := Guarded.mergeable_eq hi hj
  contiguous := mergeable_iff_exists_union hi hj
  ends := mergeable_iff hi hj
  symmetric := mergeable_comm j i
  valid_hull _ := Interval.valid_hull hi hj
  includes_hull := includes_hull_iff hi hj
  swallowed := exists_swallowed hi hj

/-- The least point and all points behind it make up the domain. Without the second point they do
not, and the hull would have it. -/
theorem merge_laws_of_edges :
    (⟨0, 0⟩ : Interval).Valid ∧ (⟨1, maxPoint⟩ : Interval).Valid ∧
      (⟨2, maxPoint⟩ : Interval).Valid ∧
      Guarded.mergeable ⟨0, 0⟩ ⟨1, maxPoint⟩ = .ok true ∧
      (∀ p, (⟨0, maxPoint⟩ : Interval).includes p = true ↔
        (⟨0, 0⟩ : Interval).includes p = true ∨ (⟨1, maxPoint⟩ : Interval).includes p = true) ∧
      Guarded.mergeable ⟨0, 0⟩ ⟨2, maxPoint⟩ = .ok false ∧
      ∃ p, (⟨0, maxPoint⟩ : Interval).includes p = true ∧
        (⟨0, 0⟩ : Interval).includes p = false ∧ (⟨2, maxPoint⟩ : Interval).includes p = false := by
  have hleast : (⟨0, 0⟩ : Interval).Valid := by decide
  have hbehind : (⟨1, maxPoint⟩ : Interval).Valid := by decide
  have hgap : (⟨2, maxPoint⟩ : Interval).Valid := by decide
  have htouch := merge_laws hleast hbehind
  have hapart := merge_laws hleast hgap
  have hmerges : (⟨0, 0⟩ : Interval).mergeable ⟨1, maxPoint⟩ = true := by decide
  have hnot : (⟨0, 0⟩ : Interval).mergeable ⟨2, maxPoint⟩ = false := by decide
  exact ⟨hleast, hbehind, hgap, htouch.guarded, htouch.includes_hull hmerges, hapart.guarded,
    hapart.swallowed hnot⟩

end CharClass.Interval
