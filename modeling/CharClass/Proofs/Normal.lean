import CharClass.PointSet.Basic
import CharClass.Proofs.Interval
import CharClass.Proofs.Search

/-!
# Normal lists of intervals

A list is *normal* when its intervals are valid and every earlier one is separated from every later
one. The points it covers lie in one interval each, in the order of the list, and the points right
before and right behind an interval are never covered. That is enough for the two facts everything
else rests on: bisection finds exactly the covered points (`Normal.found_iff`), and two normal lists
that cover the same points are the same list (`Normal.ext`). A list that is not normal has more ends
than a normal one needs, but the ends of the normal one are among them (`Normal.exists_first_eq`,
`Normal.exists_last_eq`).
-/

namespace CharClass

open PointSet (Separated)

/-! ## The points of a list -/

/-- Some interval of the list includes `p`. -/
def Covered (is : List Interval) (p : Nat) : Prop := ∃ i ∈ is, i.includes p = true

@[simp] theorem covered_nil {p : Nat} : Covered [] p ↔ False := by simp [Covered]

@[simp] theorem covered_cons {i : Interval} {is : List Interval} {p : Nat} :
    Covered (i :: is) p ↔ (i.first ≤ p ∧ p ≤ i.last) ∨ Covered is p := by
  simp [Covered]

@[simp] theorem covered_append {is js : List Interval} {p : Nat} :
    Covered (is ++ js) p ↔ Covered is p ∨ Covered js p := by
  simp [Covered, or_and_right, exists_or]

theorem covered_iff_any {is : List Interval} {p : Nat} :
    Covered is p ↔ is.any (·.includes p) = true := by
  simp [Covered]

/-- Where the intervals of a list stop covering, one of them ends. -/
theorem Covered.exists_last_eq {is : List Interval} {p : Nat} (h : Covered is p)
    (hnext : ¬Covered is (p + 1)) : ∃ i ∈ is, i.last = p := by
  obtain ⟨i, hi, hincl⟩ := h
  have hends := Interval.includes_eq_true.1 hincl
  refine ⟨i, hi, Nat.le_antisymm (Nat.le_of_not_lt fun hlt => hnext ?_) hends.2⟩
  exact ⟨i, hi, Interval.includes_eq_true.2 (by omega)⟩

/-- And where they start, one of them starts. -/
theorem Covered.exists_first_eq {is : List Interval} {p : Nat} (h : Covered is p)
    (hbefore : 0 < p → ¬Covered is (p - 1)) : ∃ i ∈ is, i.first = p := by
  obtain ⟨i, hi, hincl⟩ := h
  have hends := Interval.includes_eq_true.1 hincl
  refine ⟨i, hi, Nat.le_antisymm hends.1 (Nat.le_of_not_lt fun hlt => hbefore (by omega) ?_)⟩
  exact ⟨i, hi, Interval.includes_eq_true.2 (by omega)⟩

/-! ## Normal lists -/

/-- The intervals are valid, and at least one point lies between any two of them. -/
structure Normal (is : List Interval) : Prop where
  valid : ∀ i ∈ is, i.Valid
  separated : is.Pairwise Separated

namespace Normal

theorem nil : Normal [] := ⟨by simp, .nil⟩

theorem singleton {i : Interval} (h : i.Valid) : Normal [i] := ⟨by simpa using h, by simp⟩

end Normal

theorem normal_append {is js : List Interval} :
    Normal (is ++ js) ↔ Normal is ∧ Normal js ∧ ∀ i ∈ is, ∀ j ∈ js, Separated i j := by
  constructor
  · intro h
    obtain ⟨his, hjs, hsep⟩ := List.pairwise_append.1 h.separated
    exact ⟨⟨fun i hi => h.valid i (List.mem_append_left _ hi), his⟩,
      ⟨fun j hj => h.valid j (List.mem_append_right _ hj), hjs⟩, hsep⟩
  · rintro ⟨his, hjs, hsep⟩
    refine ⟨fun i hi => ?_, List.pairwise_append.2 ⟨his.separated, hjs.separated, hsep⟩⟩
    rcases List.mem_append.1 hi with hi | hi
    · exact his.valid i hi
    · exact hjs.valid i hi

theorem normal_cons {i : Interval} {is : List Interval} :
    Normal (i :: is) ↔ i.Valid ∧ Normal is ∧ ∀ j ∈ is, Separated i j := by
  constructor
  · intro h
    obtain ⟨hsep, his⟩ := List.pairwise_cons.1 h.separated
    exact ⟨h.valid i List.mem_cons_self, ⟨fun j hj => h.valid j (List.mem_cons_of_mem _ hj), his⟩,
      hsep⟩
  · rintro ⟨hi, his, hsep⟩
    refine ⟨fun j hj => ?_, List.pairwise_cons.2 ⟨hsep, his.separated⟩⟩
    rcases List.mem_cons.1 hj with rfl | hj
    · exact hi
    · exact his.valid j hj

theorem normal_concat {init : List Interval} {j : Interval} :
    Normal (init ++ [j]) ↔ Normal init ∧ j.Valid ∧ ∀ i ∈ init, Separated i j := by
  rw [normal_append, normal_cons]
  simp [Normal.nil]

namespace Normal

/-- Of two intervals the later one begins and ends behind the earlier one. -/
theorem pairwise_le {is : List Interval} (h : Normal is) :
    is.Pairwise fun x y => x.first ≤ y.first ∧ x.last ≤ y.last := by
  refine h.separated.imp_of_mem fun {x y} hx hy hsep => ?_
  have hgap : x.last + 1 < y.first := hsep
  have := (h.valid x hx).1
  have := (h.valid y hy).1
  omega

theorem ascending {is : List Interval} (h : Normal is) : Ascending is :=
  h.pairwise_le.imp And.left

/-- The intervals behind the first one cover nothing up to the point after it. -/
theorem last_lt_of_covered {i : Interval} {is : List Interval} (h : Normal (i :: is)) {p : Nat}
    (hp : Covered is p) : i.last + 1 < p := by
  obtain ⟨j, hj, hincl⟩ := hp
  have hgap : i.last + 1 < j.first := (normal_cons.1 h).2.2 j hj
  have := (Interval.includes_eq_true.1 hincl).1
  omega

theorem first_le_of_covered {i : Interval} {is : List Interval} (h : Normal (i :: is)) {p : Nat}
    (hp : Covered (i :: is) p) : i.first ≤ p := by
  rcases covered_cons.1 hp with hp | hp
  · exact hp.1
  · have := h.last_lt_of_covered hp
    have : i.first ≤ i.last := (normal_cons.1 h).1.1
    omega

theorem covered_first {i : Interval} {is : List Interval} (h : Normal (i :: is)) :
    Covered (i :: is) i.first :=
  covered_cons.2 (.inl ⟨Nat.le_refl _, (normal_cons.1 h).1.1⟩)

/-- No point above the domain is covered. -/
theorem le_maxPoint_of_covered {is : List Interval} (h : Normal is) {p : Nat} (hp : Covered is p) :
    p ≤ maxPoint := by
  obtain ⟨i, hi, hincl⟩ := hp
  exact Nat.le_trans (Interval.includes_eq_true.1 hincl).2 (h.valid i hi).2

/-! ## Ends -/

/-- Two intervals of the list are one, or a point lies between them. -/
theorem eq_or_separated {is : List Interval} (h : Normal is) {i j : Interval} (hi : i ∈ is)
    (hj : j ∈ is) : i = j ∨ i.last + 1 < j.first ∨ j.last + 1 < i.first := by
  induction is with
  | nil => cases hi
  | cons k is ih =>
    obtain ⟨-, his, hsep⟩ := normal_cons.1 h
    rcases List.mem_cons.1 hi with rfl | hi' <;> rcases List.mem_cons.1 hj with rfl | hj'
    · exact .inl rfl
    · exact .inr (.inl (hsep j hj'))
    · exact .inr (.inr (hsep i hi'))
    · exact ih his hi' hj'

/-- No interval can be continued: the point after it is not covered. -/
theorem not_covered_succ_last {is : List Interval} (h : Normal is) {j : Interval} (hj : j ∈ is) :
    ¬Covered is (j.last + 1) := by
  rintro ⟨i, hi, hincl⟩
  have hends := Interval.includes_eq_true.1 hincl
  have : j.first ≤ j.last := (h.valid j hj).1
  rcases h.eq_or_separated hi hj with rfl | hgap | hgap <;> omega

/-- No interval could have started earlier: the point before it is not covered. -/
theorem not_covered_pred_first {is : List Interval} (h : Normal is) {j : Interval} (hj : j ∈ is)
    (hpos : 0 < j.first) : ¬Covered is (j.first - 1) := by
  rintro ⟨i, hi, hincl⟩
  have hends := Interval.includes_eq_true.1 hincl
  have : j.first ≤ j.last := (h.valid j hj).1
  rcases h.eq_or_separated hi hj with rfl | hgap | hgap <;> omega

/-- Whatever list covers the points of a normal one, an interval of the normal one starts where an
interval of the other does: the point before it is not covered. -/
theorem exists_first_eq {is js : List Interval} (h : Normal js)
    (hcov : ∀ p, Covered js p ↔ Covered is p) {j : Interval} (hj : j ∈ js) :
    ∃ i ∈ is, i.first = j.first := by
  have hfirst := (hcov _).1 ⟨j, hj, Interval.includes_first (h.valid j hj)⟩
  exact hfirst.exists_first_eq fun hpos => mt (hcov _).2 (h.not_covered_pred_first hj hpos)

/-- And it ends where one of them ends. -/
theorem exists_last_eq {is js : List Interval} (h : Normal js)
    (hcov : ∀ p, Covered js p ↔ Covered is p) {j : Interval} (hj : j ∈ js) :
    ∃ i ∈ is, i.last = j.last := by
  have hlast := (hcov _).1 ⟨j, hj, Interval.includes_last (h.valid j hj)⟩
  exact hlast.exists_last_eq (mt (hcov _).2 (h.not_covered_succ_last hj))

/-! ## Search -/

/-- Bisection finds exactly the covered points. -/
theorem found_iff {intervals : Array Interval} (h : Normal intervals.toList) {p : Nat} :
    found intervals p = true ↔ Covered intervals.toList p :=
  found_iff_of_last_le h.ascending h.valid (h.pairwise_le.imp And.right)

/-! ## Uniqueness -/

/-- The first interval of the list that covers less does not start earlier. -/
theorem first_le_first {i j : Interval} {is js : List Interval} (hi : Normal (i :: is))
    (hj : Normal (j :: js)) (h : ∀ p, Covered (i :: is) p → Covered (j :: js) p) :
    j.first ≤ i.first :=
  hj.first_le_of_covered (h _ hi.covered_first)

/-- Where two first intervals start at one point, that of the list that covers less does not reach
further: the point behind the other would be covered. -/
theorem last_le_last {i j : Interval} {is js : List Interval} (hj : Normal (j :: js))
    (heq : i.first = j.first) (h : ∀ p, Covered (i :: is) p → Covered (j :: js) p) :
    i.last ≤ j.last := by
  have hvalid : j.first ≤ j.last := (normal_cons.1 hj).1.1
  refine Nat.le_of_not_lt fun hlt => ?_
  exact hj.not_covered_succ_last List.mem_cons_self (h _ (covered_cons.2 (.inl (by omega))))

theorem covered_tail {i : Interval} {is js : List Interval} (hi : Normal (i :: is))
    (h : ∀ p, Covered (i :: is) p → Covered (i :: js) p) {p : Nat} (hp : Covered is p) :
    Covered js p := by
  have := hi.last_lt_of_covered hp
  rcases covered_cons.1 (h p (covered_cons.2 (.inr hp))) with hhead | htail
  · omega
  · exact htail

/-- Two normal lists that cover the same points are the same. The first intervals start at the least
covered point and end before the least point above it that is not covered. -/
theorem ext {is js : List Interval} (hi : Normal is) (hj : Normal js)
    (h : ∀ p, Covered is p ↔ Covered js p) : is = js := by
  induction is generalizing js with
  | nil =>
    cases js with
    | nil => rfl
    | cons j js => exact absurd ((h _).2 hj.covered_first) (by simp)
  | cons i is ih =>
    cases js with
    | nil => exact absurd ((h _).1 hi.covered_first) (by simp)
    | cons j js =>
      have hij := fun p => (h p).1
      have hji := fun p => (h p).2
      have hfirst : i.first = j.first :=
        Nat.le_antisymm (first_le_first hj hi hji) (first_le_first hi hj hij)
      have hlast : i.last = j.last :=
        Nat.le_antisymm (last_le_last hj hfirst hij) (last_le_last hi hfirst.symm hji)
      obtain rfl : i = j := by cases i; cases j; simp_all
      rw [ih (normal_cons.1 hi).2.1 (normal_cons.1 hj).2.1
        fun p => ⟨hi.covered_tail hij, hj.covered_tail hji⟩]

end Normal

end CharClass
