import CharClass.PointSet.Update
import CharClass.Proofs.WellFormed

/-!
# Removal

`Interval.minus` takes the points of one interval out of another and leaves at most two pieces.
Removing a valid interval from a well-formed set replaces each interval by its pieces
(`WellFormed.remove_eq`): the cut around the slot leaves alone just the intervals that the removed
one does not meet. Pieces stay inside the interval they come from, so the result is normal, and
membership is read off it (`WellFormed.contains_remove`).
-/

namespace CharClass

/-! ## Pieces of an interval -/

/-- What lies before `i` and what lies behind it, as far as there is any. -/
def Interval.minus (x i : Interval) : List Interval :=
  (if x.first < i.first then [⟨x.first, min x.last (i.first - 1)⟩] else []) ++
    (if i.last < x.last then [⟨max x.first (i.last + 1), x.last⟩] else [])

namespace Interval

variable {x i : Interval}

theorem minus_eq_self (hx : x.first ≤ x.last) (hi : i.first ≤ i.last)
    (h : x.last < i.first ∨ i.last < x.first) : x.minus i = [x] := by
  rcases h with h | h
  · have hleft : x.first < i.first := by omega
    have hright : ¬i.last < x.last := by omega
    have hmin : min x.last (i.first - 1) = x.last := by omega
    simp [minus, hleft, hright, hmin]
  · have hleft : ¬x.first < i.first := by omega
    have hright : i.last < x.last := by omega
    have hmax : max x.first (i.last + 1) = x.first := by omega
    simp [minus, hleft, hright, hmax]

theorem minus_eq_nil (h : i.covers x = true) : x.minus i = [] := by
  obtain ⟨hfirst, hlast⟩ := covers_eq_true.1 h
  simp [minus, Nat.not_lt.2 hfirst, Nat.not_lt.2 hlast]

/-- A piece lies inside the interval that it is a piece of. -/
theorem within_of_mem_minus (hx : x.first ≤ x.last) {k : Interval} (hk : k ∈ x.minus i) :
    x.first ≤ k.first ∧ k.first ≤ k.last ∧ k.last ≤ x.last := by
  rcases List.mem_append.1 hk with hk | hk
  · obtain ⟨hleft, rfl⟩ := List.mem_ite_nil_right.1 hk |>.imp_right List.mem_singleton.1
    simp only
    omega
  · obtain ⟨hright, rfl⟩ := List.mem_ite_nil_right.1 hk |>.imp_right List.mem_singleton.1
    simp only
    omega

theorem normal_minus (hx : x.Valid) (hi : i.Valid) : Normal (x.minus i) := by
  obtain ⟨hle, hdomain⟩ := hx
  have hvalid : ∀ k ∈ x.minus i, k.Valid := fun k hk => by
    obtain ⟨-, hk, hlast⟩ := within_of_mem_minus hle hk
    exact ⟨hk, Nat.le_trans hlast hdomain⟩
  refine ⟨hvalid, ?_⟩
  unfold minus
  by_cases hleft : x.first < i.first <;> by_cases hright : i.last < x.last
  · -- two pieces, with `i` between them
    have hgap : min x.last (i.first - 1) + 1 < max x.first (i.last + 1) := by
      have := hi.1
      omega
    simpa [hleft, hright, PointSet.Separated] using hgap
  · simp [hleft, hright]
  · simp [hleft, hright]
  · simp [hleft, hright]

theorem covered_minus {p : Nat} :
    Covered (x.minus i) p ↔
      (x.first ≤ p ∧ p ≤ x.last) ∧ ¬(i.first ≤ p ∧ p ≤ i.last) := by
  unfold minus
  split <;> split <;> simp <;> omega

end Interval

section
variable {is : List Interval} {i : Interval}

theorem normal_flatMap_minus (h : Normal is) (hi : i.Valid) :
    Normal (is.flatMap (·.minus i)) := by
  induction is with
  | nil => exact .nil
  | cons x is ih =>
    obtain ⟨hx, his, hsep⟩ := normal_cons.1 h
    refine normal_append.2 ⟨Interval.normal_minus hx hi, ih his, fun k hk m hm => ?_⟩
    obtain ⟨y, hy, hm⟩ := List.mem_flatMap.1 hm
    have hk := Interval.within_of_mem_minus hx.1 hk
    have hm := Interval.within_of_mem_minus (his.valid y hy).1 hm
    have hxy : x.last + 1 < y.first := hsep y hy
    show k.last + 1 < m.first
    omega

theorem covered_flatMap_minus {p : Nat} :
    Covered (is.flatMap (·.minus i)) p ↔ Covered is p ∧ ¬(i.first ≤ p ∧ p ≤ i.last) := by
  induction is with
  | nil => simp
  | cons x is ih =>
    rw [List.flatMap_cons, covered_append, Interval.covered_minus, ih, covered_cons, or_and_right]

/-- Intervals that `i` does not meet are left alone. -/
theorem flatMap_minus_eq_self (h : Normal is) (hi : i.Valid)
    (hout : ∀ x ∈ is, x.last < i.first ∨ i.last < x.first) : is.flatMap (·.minus i) = is := by
  induction is with
  | nil => rfl
  | cons x is ih =>
    obtain ⟨hx, his, -⟩ := normal_cons.1 h
    obtain ⟨hxout, hout⟩ := List.forall_mem_cons.1 hout
    rw [List.flatMap_cons, Interval.minus_eq_self hx.1 hi.1 hxout, ih his hout]
    rfl

end

namespace PointSet

/-! ## Cutting at a slot -/

theorem cutAfter_cons_of_covers {i x : Interval} (rest : List Interval) (h : i.covers x = true) :
    cutAfter i (x :: rest) = cutAfter i rest := by
  simp [cutAfter, h]

theorem cutAfter_cons_of_not_covers {i x : Interval} (rest : List Interval)
    (h : ¬i.covers x = true) :
    cutAfter i (x :: rest) =
      if x.includes i.last then ⟨i.last + 1, x.last⟩ :: rest else x :: rest := by
  simp [cutAfter, h]

@[simp] theorem cut_nil (i : Interval) (after : List Interval) :
    cut [] i after = cutAfter i after :=
  rfl

@[simp] theorem cut_concat (init : List Interval) (j i : Interval) (after : List Interval) :
    cut (init ++ [j]) i after =
      if j.includes i.first then
        if i.last < j.last then init ++ ⟨j.first, i.first - 1⟩ :: ⟨i.last + 1, j.last⟩ :: after
        else init ++ ⟨j.first, i.first - 1⟩ :: cutAfter i after
      else init ++ [j] ++ cutAfter i after := by
  simp [cut]

theorem cutAfter_eq {i : Interval} {after : List Interval} (hi : i.Valid) (h : Normal after)
    (hafter : ∀ j ∈ after, i.first ≤ j.first) : cutAfter i after = after.flatMap (·.minus i) := by
  induction after with
  | nil => rfl
  | cons x rest ih =>
    obtain ⟨hx, hrest, hsep⟩ := normal_cons.1 h
    obtain ⟨hix, hafter⟩ := List.forall_mem_cons.1 hafter
    by_cases hcov : i.covers x = true
    · rw [cutAfter_cons_of_covers rest hcov, List.flatMap_cons, Interval.minus_eq_nil hcov]
      exact ih hrest hafter
    · -- the first interval that is not covered reaches beyond `i`, and so does everything behind it
      have hlast : i.last < x.last := by
        rw [Interval.covers_eq_true] at hcov
        omega
      have htail : rest.flatMap (·.minus i) = rest :=
        flatMap_minus_eq_self hrest hi fun y hy => by
          have : x.last + 1 < y.first := hsep y hy
          omega
      have hmax : max x.first (i.last + 1) = if x.includes i.last then i.last + 1 else x.first := by
        split
        · next hin =>
          have := (Interval.includes_eq_true.1 hin).1
          omega
        · next hout =>
          rw [Interval.includes_eq_true] at hout
          omega
      rw [cutAfter_cons_of_not_covers rest hcov, List.flatMap_cons, htail]
      simp only [Interval.minus, Nat.not_lt.2 hix, hlast, hmax, ↓reduceIte]
      split <;> rfl

theorem cut_eq {before after : List Interval} {i : Interval} (h : Normal (before ++ after))
    (hi : i.Valid) (hbefore : ∀ j ∈ before, j.first < i.first)
    (hafter : ∀ j ∈ after, i.first ≤ j.first) :
    cut before i after = (before ++ after).flatMap (·.minus i) := by
  obtain ⟨hB, hA, hBA⟩ := normal_append.1 h
  have hafter := cutAfter_eq hi hA hafter
  cases hlast : before.getLast? with
  | none =>
    obtain rfl := List.getLast?_eq_none_iff.1 hlast
    rw [cut_nil, List.nil_append, hafter]
  | some j =>
    obtain ⟨init, rfl⟩ := List.getLast?_eq_some_iff.1 hlast
    obtain ⟨hinit, hj, hsep⟩ := normal_concat.1 hB
    have hji : j.first < i.first := hbefore j (by simp)
    have hinit : init.flatMap (·.minus i) = init :=
      flatMap_minus_eq_self hinit hi fun x hx => by
        have : x.last + 1 < j.first := hsep x hx
        omega
    rw [cut_concat, List.flatMap_append, List.flatMap_append, hinit, ← hafter,
      List.flatMap_singleton]
    split
    · next hin =>
      have hin : i.first ≤ j.last := (Interval.includes_eq_true.1 hin).2
      split
      · next hlast =>
        -- `j` reaches beyond `i`, and with it everything behind `j`
        have hrest : cutAfter i after = after := by
          rw [hafter]
          refine flatMap_minus_eq_self hA hi fun x hx => ?_
          have : j.last + 1 < x.first := hBA j (by simp) x hx
          omega
        have hmin : min j.last (i.first - 1) = i.first - 1 := by omega
        have hmax : max j.first (i.last + 1) = i.last + 1 := by
          have := hi.1
          omega
        simp [Interval.minus, hji, hlast, hmin, hmax, hrest]
      · next hlast =>
        have hmin : min j.last (i.first - 1) = i.first - 1 := by omega
        simp [Interval.minus, hji, hlast, hmin]
    · next hout =>
      have hout : j.last < i.first := by
        rw [Interval.includes_eq_true] at hout
        omega
      rw [Interval.minus_eq_self hj.1 hi.1 (.inl hout)]

/-! ## Removal from a set -/

namespace WellFormed

variable {s : PointSet} {i : Interval}

/-- The set after a removal is that of the pieces its intervals leave. -/
theorem remove_eq (h : s.WellFormed) (hi : i.Valid) :
    s.remove i = PointSet.ofIntervals (s.intervals.toList.flatMap (·.minus i)).toArray := by
  by_cases hempty : s.isEmpty = true
  · have hnil : s.intervals = #[] := Array.isEmpty_iff.1 hempty
    have hsame : s.remove i = s := if_pos hempty
    rw [hsame, h.eq_ofIntervals, hnil]
    rfl
  · obtain ⟨hbefore, hafter⟩ := splits_insertionPoint h.normal.ascending i.first
    have hlist := List.take_append_drop (insertionPoint s.intervals i.first) s.intervals.toList
    have hcut : s.remove i = PointSet.ofIntervals (cut
        (s.intervals.toList.take (insertionPoint s.intervals i.first)) i
        (s.intervals.toList.drop (insertionPoint s.intervals i.first))).toArray := if_neg hempty
    have hnormal := h.normal
    rw [← hlist] at hnormal
    rw [hcut, cut_eq hnormal hi hbefore hafter, hlist]

theorem remove (h : s.WellFormed) (hi : i.Valid) : (s.remove i).WellFormed := by
  rw [h.remove_eq hi]
  exact ofIntervals (normal_flatMap_minus h.normal hi)

theorem contains_remove (h : s.WellFormed) (hi : i.Valid) (p : Nat) :
    (s.remove i).contains p = (s.contains p && !i.includes p) := by
  rw [Bool.eq_iff_iff, Bool.and_eq_true, (h.remove hi).contains_iff, h.contains_iff,
    Bool.not_eq_true', ← Bool.not_eq_true, Interval.includes_eq_true, h.remove_eq hi]
  exact covered_flatMap_minus

theorem removeAll {is : List Interval} (h : s.WellFormed) (his : ∀ i ∈ is, i.Valid) :
    (s.removeAll is).WellFormed := by
  induction is generalizing s with
  | nil => exact h
  | cons i is ih =>
    obtain ⟨hi, his⟩ := List.forall_mem_cons.1 his
    exact ih (h.remove hi) his

theorem contains_removeAll {is : List Interval} (h : s.WellFormed) (his : ∀ i ∈ is, i.Valid)
    (p : Nat) : (s.removeAll is).contains p = (s.contains p && !is.any (·.includes p)) := by
  induction is generalizing s with
  | nil => simp [PointSet.removeAll]
  | cons i is ih =>
    obtain ⟨hi, his⟩ := List.forall_mem_cons.1 his
    rw [List.any_cons, Bool.not_or, ← Bool.and_assoc, ← h.contains_remove hi]
    exact ih (h.remove hi) his

end WellFormed

end PointSet

end CharClass
