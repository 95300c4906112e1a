import CharClass.PointSet.Update
import CharClass.Proofs.Interval
import CharClass.Proofs.WellFormed
import Mathlib.Tactic.Tauto

/-!
# Insertion

Inserting a valid interval into a well-formed set adds its points and leaves a well-formed set
(`WellFormed.insert`, `WellFormed.contains_insert`). The argument follows the code: `absorb` merges
forward, `join` looks back at one interval, `insert` finds the slot. What carries it is that the
interval that is absorbed into never moves its first end past those that follow, so that everything
separated from its first end stays separated from the result.
-/

namespace CharClass.PointSet

/-! ## Merging forward -/

section
variable {i : Interval} {after : List Interval}

theorem first_le_of_mem_absorb (hfirst : ∀ j ∈ after, i.first ≤ j.first) {k : Interval}
    (hk : k ∈ absorb i after) : i.first ≤ k.first := by
  fun_induction absorb i after with
  | case1 i =>
    obtain rfl := List.mem_singleton.1 hk
    exact Nat.le_refl _
  | case2 i j rest hmerge ih =>
    rw [Interval.hull_first (hfirst j List.mem_cons_self)] at ih
    exact ih (fun k hk => hfirst k (List.mem_cons_of_mem _ hk)) hk
  | case3 i j rest hmerge =>
    rcases List.mem_cons.1 hk with rfl | hk
    · exact Nat.le_refl _
    · exact hfirst k hk

theorem normal_absorb (hi : i.Valid) (h : Normal after) (hfirst : ∀ j ∈ after, i.first ≤ j.first) :
    Normal (absorb i after) := by
  fun_induction absorb i after with
  | case1 i => exact .singleton hi
  | case2 i j rest hmerge ih =>
    obtain ⟨hj, hrest, -⟩ := normal_cons.1 h
    refine ih (Interval.valid_hull hi hj) hrest fun k hk => ?_
    exact Nat.le_trans (Nat.min_le_left _ _) (hfirst k (List.mem_cons_of_mem _ hk))
  | case3 i j rest hmerge =>
    obtain ⟨hj, hrest, hsep⟩ := normal_cons.1 h
    have hij : i.last + 1 < j.first :=
      Interval.last_lt_of_not_mergeable hi hj hmerge (hfirst j List.mem_cons_self)
    refine normal_cons.2 ⟨hi, h, fun k hk => ?_⟩
    rcases List.mem_cons.1 hk with rfl | hk
    · exact hij
    · have : j.last + 1 < k.first := hsep k hk
      have : j.first ≤ j.last := hj.1
      show i.last + 1 < k.first
      omega

theorem covered_absorb (hi : i.Valid) (h : Normal after) {p : Nat} :
    Covered (absorb i after) p ↔ (i.first ≤ p ∧ p ≤ i.last) ∨ Covered after p := by
  fun_induction absorb i after with
  | case1 i => simp
  | case2 i j rest hmerge ih =>
    obtain ⟨hj, hrest, -⟩ := normal_cons.1 h
    rw [ih (Interval.valid_hull hi hj) hrest, Interval.mem_hull_iff hi hj hmerge, covered_cons,
      or_assoc]
  | case3 i j rest hmerge => exact covered_cons

/-- Intervals separated from `i` stay separated from what `i` grows to. -/
theorem normal_append_absorb {before : List Interval} (hB : Normal before) (hA : Normal after)
    (hi : i.Valid) (hsep : ∀ j ∈ before, Separated j i) (hfirst : ∀ j ∈ after, i.first ≤ j.first) :
    Normal (before ++ absorb i after) := by
  refine normal_append.2 ⟨hB, normal_absorb hi hA hfirst, fun j hj k hk => ?_⟩
  exact Nat.lt_of_lt_of_le (hsep j hj) (first_le_of_mem_absorb hfirst hk)

end

/-! ## Joining at a slot -/

@[simp] theorem join_nil (i : Interval) (after : List Interval) :
    join [] i after = absorb i after :=
  rfl

@[simp] theorem join_concat (init : List Interval) (j i : Interval) (after : List Interval) :
    join (init ++ [j]) i after =
      if j.mergeable i then init ++ absorb (j.hull i) after else init ++ [j] ++ absorb i after := by
  simp [join]

section
variable {before after : List Interval} {i : Interval} (h : Normal (before ++ after)) (hi : i.Valid)
  (hbefore : ∀ j ∈ before, j.first < i.first) (hafter : ∀ j ∈ after, i.first ≤ j.first)

include h hi hbefore hafter in
theorem normal_join : Normal (join before i after) := by
  obtain ⟨hB, hA, -⟩ := normal_append.1 h
  cases hlast : before.getLast? with
  | none =>
    obtain rfl := List.getLast?_eq_none_iff.1 hlast
    exact normal_absorb hi hA hafter
  | some j =>
    obtain ⟨init, rfl⟩ := List.getLast?_eq_some_iff.1 hlast
    obtain ⟨hinit, hj, hsep⟩ := normal_concat.1 hB
    have hji : j.first ≤ i.first := Nat.le_of_lt (hbefore j (by simp))
    rw [join_concat]
    split
    · next hmerge =>
      -- the hull starts where `j` does, so what is before `j` is as far from it as before
      refine normal_append_absorb hinit hA (Interval.valid_hull hj hi) (fun k hk => ?_)
        (fun k hk => ?_)
      · rw [Separated, Interval.hull_first hji]
        exact hsep k hk
      · rw [Interval.hull_first hji]
        exact Nat.le_trans hji (hafter k hk)
    · next hmerge =>
      refine normal_append_absorb hB hA hi (fun k hk => ?_) hafter
      rcases List.mem_append.1 hk with hk | hk
      · exact Nat.lt_of_lt_of_le (hsep k hk) hji
      · obtain rfl := List.mem_singleton.1 hk
        exact Interval.last_lt_of_not_mergeable hj hi hmerge hji

include h hi in
theorem covered_join {p : Nat} :
    Covered (join before i after) p ↔
      Covered (before ++ after) p ∨ (i.first ≤ p ∧ p ≤ i.last) := by
  obtain ⟨hB, hA, -⟩ := normal_append.1 h
  cases hlast : before.getLast? with
  | none =>
    obtain rfl := List.getLast?_eq_none_iff.1 hlast
    rw [join_nil, covered_absorb hi hA, List.nil_append, or_comm]
  | some j =>
    obtain ⟨init, rfl⟩ := List.getLast?_eq_some_iff.1 hlast
    have hj : j.Valid := (normal_concat.1 hB).2.1
    rw [join_concat]
    split
    · next hmerge =>
      rw [covered_append, covered_absorb (Interval.valid_hull hj hi) hA,
        Interval.mem_hull_iff hj hi hmerge]
      simp only [covered_append, covered_cons, covered_nil, or_false]
      tauto
    · simp only [covered_append, covered_absorb hi hA]
      tauto

end

/-! ## Insertion into a set -/

namespace WellFormed

variable {s : PointSet} {i : Interval}

/-- The two ways an insertion goes: an interval of the set covers the new one and nothing changes,
or the new one is joined to the intervals on both sides of the slot. -/
theorem insert_cases (h : s.WellFormed) (i : Interval) :
    ((∃ j ∈ s.intervals.toList, j.first ≤ i.first ∧ i.last ≤ j.last) ∧ s.insert i = s) ∨
      ∃ before after, s.intervals.toList = before ++ after ∧ (∀ j ∈ before, j.first < i.first) ∧
        (∀ j ∈ after, i.first ≤ j.first) ∧
          s.insert i = PointSet.ofIntervals (join before i after).toArray := by
  obtain ⟨hbefore, hafter⟩ := splits_insertionPoint h.normal.ascending i.first
  by_cases hcov : nearby s.intervals (insertionPoint s.intervals i.first) (·.covers i) = true
  · obtain ⟨j, hj, hji⟩ := exists_of_nearby hcov
    exact .inl ⟨⟨j, hj, Interval.covers_eq_true.1 hji⟩, if_pos hcov⟩
  · exact .inr ⟨_, _, (List.take_append_drop _ _).symm, hbefore, hafter, if_neg hcov⟩

theorem insert (h : s.WellFormed) (hi : i.Valid) : (s.insert i).WellFormed := by
  obtain ⟨-, heq⟩ | ⟨before, after, hlist, hbefore, hafter, heq⟩ := h.insert_cases i
  · rw [heq]
    exact h
  · rw [heq]
    exact ofIntervals (normal_join (hlist ▸ h.normal) hi hbefore hafter)

theorem contains_insert (h : s.WellFormed) (hi : i.Valid) (p : Nat) :
    (s.insert i).contains p = (s.contains p || i.includes p) := by
  rw [Bool.eq_iff_iff, Bool.or_eq_true, (h.insert hi).contains_iff, h.contains_iff,
    Interval.includes_eq_true]
  obtain ⟨⟨j, hj, hfirst, hlast⟩, heq⟩ | ⟨before, after, hlist, -, -, heq⟩ := h.insert_cases i
  · rw [heq]
    refine ⟨.inl, ?_⟩
    rintro (hp | hp)
    · exact hp
    · exact ⟨j, hj, Interval.includes_eq_true.2 (by omega)⟩
  · rw [heq, hlist]
    exact covered_join (hlist ▸ h.normal) hi

theorem insertAll {is : List Interval} (h : s.WellFormed) (his : ∀ i ∈ is, i.Valid) :
    (s.insertAll is).WellFormed := by
  induction is generalizing s with
  | nil => exact h
  | cons i is ih =>
    obtain ⟨hi, his⟩ := List.forall_mem_cons.1 his
    exact ih (h.insert hi) his

theorem contains_insertAll {is : List Interval} (h : s.WellFormed) (his : ∀ i ∈ is, i.Valid)
    (p : Nat) : (s.insertAll is).contains p = (s.contains p || is.any (·.includes p)) := by
  induction is generalizing s with
  | nil => simp [PointSet.insertAll]
  | cons i is ih =>
    obtain ⟨hi, his⟩ := List.forall_mem_cons.1 his
    rw [List.any_cons, ← Bool.or_assoc, ← h.contains_insert hi]
    exact ih (h.insert hi) his

end WellFormed

end CharClass.PointSet
