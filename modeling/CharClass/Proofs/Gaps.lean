import CharClass.Proofs.Reachable
import Mathlib.Data.List.Induction

/-!
# The complement as the list of gaps

The complement of a set is made without looking for gaps: the intervals are taken out of the whole
domain one by one. Since they ascend, each of them meets only the last piece that is left, and cuts
it, shortens it or takes it away. So after any number of intervals what is left is the list of their
gaps (`PointSet.removeAll_everything`), with one step for one interval more
(`flatMap_minus_gapsFrom`).

One gap more than there are intervals can be had. The first is missing just if the set starts with
the domain, the last if it ends with it; between two intervals there always is one.
-/

namespace CharClass

/-! ## Gaps -/

/-- What the intervals leave free from `p` on: the points before the first, between two neighbours
and behind the last, as far as there are any. -/
def gapsFrom (p : Nat) : List Interval → List Interval
  | [] => if p ≤ maxPoint then [⟨p, maxPoint⟩] else []
  | i :: is => (if p < i.first then [⟨p, i.first - 1⟩] else []) ++ gapsFrom (i.last + 1) is

/-- What the intervals leave free of the domain. -/
def gaps (is : List Interval) : List Interval := gapsFrom minPoint is

/-- An interval behind all others takes its points out of the last gap only. -/
theorem flatMap_minus_gapsFrom {is : List Interval} {i : Interval} (h : Normal (is ++ [i]))
    {p : Nat} (hp : ∀ j ∈ is ++ [i], p ≤ j.first) :
    (gapsFrom p is).flatMap (·.minus i) = gapsFrom p (is ++ [i]) := by
  induction is generalizing p with
  | nil =>
    obtain ⟨⟨hle, hdomain⟩, -, -⟩ := normal_cons.1 h
    have hfirst : p ≤ i.first := hp i List.mem_cons_self
    have hpoint : p ≤ maxPoint := by omega
    have hmin : min maxPoint (i.first - 1) = i.first - 1 := by omega
    have hmax : max p (i.last + 1) = i.last + 1 := by omega
    rw [gapsFrom, if_pos hpoint, List.flatMap_singleton]
    simp only [Interval.minus, hmin, hmax, List.nil_append, gapsFrom, Nat.succ_le_iff]
  | cons j is ih =>
    obtain ⟨hj, hrest, hsep⟩ := normal_cons.1 h
    have hmem : i ∈ is ++ [i] := List.mem_append_right _ List.mem_cons_self
    have hji : j.last + 1 < i.first := hsep i hmem
    have hgap : (if p < j.first then [(⟨p, j.first - 1⟩ : Interval)] else []).flatMap (·.minus i) =
        if p < j.first then [⟨p, j.first - 1⟩] else [] := by
      split
      · next hpj =>
        have hi : i.first ≤ i.last := (hrest.valid i hmem).1
        have hleft : j.first - 1 < i.first := by
          have := hj.1
          omega
        rw [List.flatMap_singleton]
        exact Interval.minus_eq_self (Nat.le_pred_of_lt hpj) hi (.inl hleft)
      · rfl
    have hbehind : ∀ k ∈ is ++ [i], j.last + 1 ≤ k.first := fun k hk => Nat.le_of_lt (hsep k hk)
    rw [gapsFrom, List.flatMap_append, hgap, ih hrest hbehind]
    rfl

/-- The point behind an interval is behind the domain just if the interval ends with the domain. -/
theorem any_includes_maxPoint_cons {i : Interval} (hi : i.Valid) (is : List Interval) :
    (i :: is).any (·.includes maxPoint) =
      (decide (maxPoint < i.last + 1) || is.any (·.includes maxPoint)) := by
  have hfirst : i.first ≤ maxPoint := Nat.le_trans hi.1 hi.2
  rw [List.any_cons, Interval.includes, decide_eq_true hfirst, Bool.true_and]
  simp only [Nat.lt_succ_iff]

/-- Where the first interval starts behind `p` there is one gap more than there are intervals, but
for the last one, which is missing at the end of the domain. -/
theorem length_gapsFrom {is : List Interval} (h : Normal is) {p : Nat}
    (hp : ∀ j ∈ is, p < j.first) :
    (gapsFrom p is).length +
        (decide (maxPoint < p) || is.any (·.includes maxPoint)).toNat = is.length + 1 := by
  induction is generalizing p with
  | nil =>
    rw [gapsFrom]
    by_cases hpoint : p ≤ maxPoint
    · simp [hpoint, Nat.not_lt.2 hpoint]
    · simp [hpoint, Nat.lt_of_not_le hpoint]
  | cons i is ih =>
    obtain ⟨hi, his, hsep⟩ := normal_cons.1 h
    have hpi : p < i.first := hp i List.mem_cons_self
    have hpoint : ¬maxPoint < p := by
      have := hi.1
      have := hi.2
      omega
    have hrest := ih his (fun j hj => hsep j hj)
    rw [decide_eq_false hpoint, Bool.false_or, any_includes_maxPoint_cons hi, gapsFrom, if_pos hpi,
      List.length_append, List.length_cons, List.length_cons]
    simp only [List.length_nil]
    omega

/-- One gap more than there are intervals, but for the first one, which is missing at the start of
the domain, and the last one. -/
theorem length_gaps {is : List Interval} (h : Normal is) :
    (gaps is).length + (is.any (·.includes minPoint)).toNat +
      (is.any (·.includes maxPoint)).toNat = is.length + 1 := by
  cases is with
  | nil => rfl
  | cons i is =>
    obtain ⟨hi, his, hsep⟩ := normal_cons.1 h
    have hstart : (i :: is).any (·.includes minPoint) = decide (i.first = minPoint) := by
      rw [Bool.eq_iff_iff, ← covered_iff_any, decide_eq_true_iff]
      constructor
      · intro hcov
        exact Nat.le_zero.1 (h.first_le_of_covered hcov)
      · intro hfirst
        exact hfirst ▸ h.covered_first
    rw [hstart]
    by_cases hfirst : i.first = minPoint
    · have hskip : gaps (i :: is) = gapsFrom (i.last + 1) is := by
        rw [gaps, gapsFrom, if_neg (by omega), List.nil_append]
      have hcount := length_gapsFrom his (fun j hj => hsep j hj)
      rw [hskip, any_includes_maxPoint_cons hi, List.length_cons, decide_eq_true hfirst,
        Bool.toNat_true]
      omega
    · have hbehind : ∀ j ∈ i :: is, minPoint < j.first := by
        intro j hj
        have hle : i.first ≤ j.first :=
          h.first_le_of_covered ⟨j, hj, Interval.includes_first (h.valid j hj)⟩
        exact Nat.lt_of_lt_of_le (Nat.pos_of_ne_zero hfirst) hle
      have hcount := length_gapsFrom h hbehind
      rw [decide_eq_false (by decide), Bool.false_or] at hcount
      rw [decide_eq_false hfirst, Bool.toNat_false]
      exact hcount

/-! ## The complement -/

namespace PointSet

theorem intervals_everything : everything.intervals = #[⟨minPoint, maxPoint⟩] := by decide +kernel

/-- After any number of intervals that ascend, what is left of the domain are their gaps. -/
theorem removeAll_everything {is : List Interval} (h : Normal is) :
    everything.removeAll is = ofIntervals (gaps is).toArray := by
  induction is using List.reverseRecOn with
  | nil =>
    have hgaps : (gaps []).toArray = #[⟨minPoint, maxPoint⟩] := rfl
    rw [hgaps, ← intervals_everything]
    exact WellFormed.everything.eq_ofIntervals
  | append_singleton is i ih =>
    obtain ⟨his, hi, -⟩ := normal_concat.1 h
    have hleft := WellFormed.everything.removeAll his.valid
    have hstep : everything.removeAll (is ++ [i]) = (everything.removeAll is).remove i :=
      List.foldl_concat remove everything i is
    have hgaps : (gaps is).flatMap (·.minus i) = gaps (is ++ [i]) :=
      flatMap_minus_gapsFrom h fun j _ => Nat.zero_le j.first
    rw [hstep, hleft.remove_eq hi, ih his, ← hgaps]
    rfl

end PointSet

namespace Reachable

/-- The intervals of the complement are the gaps of the set: the whole domain for the empty set,
else what lies before the first interval, between two neighbours and behind the last, as far as
there is anything. So there is one interval more, less one for each end of the domain that is a
member. -/
theorem complement_eq_gaps {x : PointSet} (h : Reachable x) :
    x.complement.intervals.toList = gaps x.intervals.toList ∧
      (x.intervals = #[] → x.complement.intervals = #[⟨minPoint, maxPoint⟩]) ∧
      x.complement.intervalCount + (x.contains minPoint).toNat + (x.contains maxPoint).toNat =
        x.intervalCount + 1 := by
  have hx := h.wellFormed
  have hcomplement : x.complement = PointSet.ofIntervals (gaps x.intervals.toList).toArray :=
    PointSet.removeAll_everything hx.normal
  have hlist : x.complement.intervals = (gaps x.intervals.toList).toArray := by
    rw [hcomplement]
    rfl
  refine ⟨congrArg Array.toList hlist, ?_, ?_⟩
  · intro hempty
    rw [hlist, hempty]
    rfl
  · have hcount := length_gaps hx.normal
    rw [hx.any_includes, hx.any_includes, Array.length_toList] at hcount
    rw [PointSet.intervalCount, hlist, List.size_toArray]
    exact hcount

/-- Everything but the digits reaches both ends of the domain, so the only gap is the one in
between. -/
theorem complement_eq_gaps_of_edges :
    Reachable Predefined.digit.set.complement ∧
      Predefined.digit.set.complement.complement.intervals.toList = [⟨0x30, 0x39⟩] ∧
      Predefined.digit.set.complement.complement.intervalCount + 1 + 1 =
        Predefined.digit.set.complement.intervalCount + 1 := by
  have h : Reachable Predefined.digit.set.complement := .complement (.built (.predefined .digit))
  obtain ⟨hlist, -, hcount⟩ := complement_eq_gaps h
  have hmin : Predefined.digit.set.complement.contains minPoint = true := by decide +kernel
  have hmax : Predefined.digit.set.complement.contains maxPoint = true := by decide +kernel
  rw [hmin, hmax] at hcount
  refine ⟨h, hlist.trans ?_, hcount⟩
  decide +kernel

end Reachable

end CharClass
