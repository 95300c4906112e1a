import CharClass.Interval

/-!
# Merging two intervals

`Interval.mergeable` compares widths. For valid intervals it says that neither one ends before the
point that precedes the other, and then the hull includes no point that the two do not include.
-/

namespace CharClass

theorem toNat_le_maxPoint (c : Char) : c.toNat ≤ maxPoint := by
  have hc : c.toNat.isValidChar := c.valid
  unfold maxPoint
  rcases hc with hc | hc <;> omega

namespace Interval

theorem valid_single (c : Char) : (single c).Valid := ⟨Nat.le_refl _, toNat_le_maxPoint c⟩

theorem valid_of_between {c d : Char} {i : Interval} (h : between c d = .ok i) : i.Valid :=
  (make_eq_ok_iff.1 h).2

theorem between_eq_ok {c d : Char} (h : c ≤ d) : between c d = .ok ⟨c.toNat, d.toNat⟩ :=
  make_eq_ok_iff.2 ⟨rfl, UInt32.le_iff_toNat_le.1 h, toNat_le_maxPoint d⟩

theorem between_eq_error {c d : Char} (h : d < c) :
    between c d = .error (.descending c.toNat d.toNat) :=
  if_pos (UInt32.lt_iff_toNat_lt.1 h)

/-- Ends that descend are refused for that, wherever they lie. -/
theorem make_eq_error_iff {first last : Nat} {e : BoundsError} :
    make first last = .error e ↔
      (last < first ∧ e = .descending first last) ∨
        (first ≤ last ∧ maxPoint < last ∧ e = .outsideDomain last) := by
  unfold make
  by_cases hdesc : last < first
  · rw [if_pos hdesc, Except.error.injEq]
    have hasc : ¬first ≤ last := Nat.not_le.2 hdesc
    simp only [hdesc, hasc, true_and, false_and, or_false, eq_comm]
  · rw [if_neg hdesc]
    have hasc : first ≤ last := Nat.le_of_not_lt hdesc
    by_cases hout : maxPoint < last
    · rw [if_pos hout, Except.error.injEq]
      simp only [hdesc, hasc, hout, true_and, false_and, false_or, eq_comm]
    · rw [if_neg hout]
      simp only [hdesc, hout, false_and, and_false, or_false, reduceCtorEq]

theorem includes_first {i : Interval} (h : i.Valid) : i.includes i.first = true :=
  includes_eq_true.2 ⟨Nat.le_refl _, h.1⟩

theorem includes_last {i : Interval} (h : i.Valid) : i.includes i.last = true :=
  includes_eq_true.2 ⟨h.1, Nat.le_refl _⟩

theorem hull_first {i j : Interval} (h : i.first ≤ j.first) : (i.hull j).first = i.first :=
  Nat.min_eq_left h

theorem hull_comm (i j : Interval) : i.hull j = j.hull i := by
  rw [hull, hull, Nat.min_comm, Nat.max_comm]

theorem mergeable_comm (i j : Interval) : i.mergeable j = j.mergeable i := by
  rw [mergeable, mergeable, hull_comm, Nat.add_comm]

section
variable {i j : Interval} (hi : i.Valid) (hj : j.Valid)
include hi hj

theorem valid_hull : (i.hull j).Valid := by
  obtain ⟨hi, hi'⟩ := hi
  obtain ⟨hj, hj'⟩ := hj
  constructor <;> simp only [hull] <;> omega

/-- The hull is no wider than both together just if no gap lies between them. -/
theorem mergeable_iff : i.mergeable j = true ↔ i.first ≤ j.last + 1 ∧ j.first ≤ i.last + 1 := by
  obtain ⟨hi, -⟩ := hi
  obtain ⟨hj, -⟩ := hj
  rw [mergeable, decide_eq_true_iff]
  simp only [hull, width]
  omega

theorem last_lt_of_not_mergeable (h : ¬i.mergeable j = true) (hle : i.first ≤ j.first) :
    i.last + 1 < j.first := by
  rw [mergeable_iff hi hj] at h
  obtain ⟨hj, -⟩ := hj
  omega

/-- The hull of mergeable intervals is their union. -/
theorem mem_hull_iff (h : i.mergeable j = true) {p : Nat} :
    (i.hull j).first ≤ p ∧ p ≤ (i.hull j).last ↔
      (i.first ≤ p ∧ p ≤ i.last) ∨ (j.first ≤ p ∧ p ≤ j.last) := by
  rw [mergeable_iff hi hj] at h
  obtain ⟨hi, -⟩ := hi
  obtain ⟨hj, -⟩ := hj
  simp only [hull]
  omega

end

end Interval

end CharClass
