import Mathlib.Data.List.Forall2

/-!
# Outcomes

What it takes for a computation that may fail to succeed, or to fail with an error, one equivalence
for each way of composing computations. The proofs about readers and scripts take them apart with
these and never unfold a bind.

Where only the failure counts, `reason?` forgets what a computation gives. Of computations that run
one after the other the first reason is the reason of all.
-/

namespace CharClass

variable {ε ε' α β γ : Type}

theorem bind_ok_iff {x : Except ε α} {f : α → Except ε β} {b : β} :
    (x >>= f) = .ok b ↔ ∃ a, x = .ok a ∧ f a = .ok b := by
  cases x with
  | error e => exact ⟨nofun, nofun⟩
  | ok a =>
    refine ⟨fun h => ⟨a, rfl, h⟩, ?_⟩
    rintro ⟨a', ha, h⟩
    cases ha
    exact h

theorem bind_error_iff {x : Except ε α} {f : α → Except ε β} {e : ε} :
    (x >>= f) = .error e ↔ x = .error e ∨ ∃ a, x = .ok a ∧ f a = .error e := by
  cases x with
  | error e' =>
    constructor
    · intro h
      cases h
      exact .inl rfl
    · rintro (h | ⟨a, ha, -⟩)
      · cases h
        rfl
      · cases ha
  | ok a =>
    constructor
    · intro h
      exact .inr ⟨a, rfl, h⟩
    · rintro (h | ⟨a', ha, h⟩)
      · cases h
      · cases ha
        exact h

theorem bind₂_ok_iff {x : Except ε α} {y : Except ε β} {f : α → β → γ} {c : γ} :
    (x >>= fun a => y >>= fun b => .ok (f a b)) = .ok c ↔
      ∃ a b, x = .ok a ∧ y = .ok b ∧ f a b = c := by
  simp only [bind_ok_iff, Except.ok.injEq, exists_and_left]

theorem map_ok_iff {x : Except ε α} {f : α → β} {b : β} :
    x.map f = .ok b ↔ ∃ a, x = .ok a ∧ f a = b := by
  cases x with
  | error e => exact ⟨nofun, nofun⟩
  | ok a => simp [Except.map]

theorem mapError_ok_iff {x : Except ε α} {f : ε → ε'} {a : α} :
    x.mapError f = .ok a ↔ x = .ok a := by
  cases x with
  | error e => exact ⟨nofun, nofun⟩
  | ok b => simp [Except.mapError]

/-- A traversal succeeds with the results of its elements, in order. -/
theorem mapM_ok_iff {f : α → Except ε β} {as : List α} {bs : List β} :
    as.mapM f = .ok bs ↔ List.Forall₂ (fun a b => f a = .ok b) as bs := by
  induction as generalizing bs with
  | nil =>
    rw [List.mapM_nil, List.forall₂_nil_left_iff]
    exact ⟨fun h => by cases h; rfl, fun h => by rw [h]; rfl⟩
  | cons a as ih =>
    rw [List.mapM_cons, bind_ok_iff, List.forall₂_cons_left_iff]
    constructor
    · rintro ⟨b, hb, h⟩
      obtain ⟨bs', hbs, h⟩ := bind_ok_iff.1 h
      cases h
      exact ⟨b, bs', hb, ih.1 hbs, rfl⟩
    · rintro ⟨b, bs', hb, hbs, rfl⟩
      exact ⟨b, hb, bind_ok_iff.2 ⟨bs', ih.2 hbs, rfl⟩⟩

/-- A traversal fails as the first of its elements that does. -/
theorem mapM_error_iff {f : α → Except ε β} {as : List α} {e : ε} :
    as.mapM f = .error e ↔
      ∃ before a after, as = before ++ a :: after ∧ (∀ x ∈ before, ∃ b, f x = .ok b) ∧
        f a = .error e := by
  induction as with
  | nil =>
    rw [List.mapM_nil]
    constructor
    · nofun
    · rintro ⟨before, a, after, has, -⟩
      exact absurd has (by simp)
  | cons x as ih =>
    rw [List.mapM_cons, bind_error_iff]
    constructor
    · rintro (hx | ⟨b, hx, h⟩)
      · exact ⟨[], x, as, rfl, nofun, hx⟩
      · rcases bind_error_iff.1 h with hrest | ⟨bs, -, h⟩
        · obtain ⟨before, a, after, rfl, hbefore, ha⟩ := ih.1 hrest
          exact ⟨x :: before, a, after, rfl, List.forall_mem_cons.2 ⟨⟨b, hx⟩, hbefore⟩, ha⟩
        · cases h
    · rintro ⟨before, a, after, has, hbefore, ha⟩
      cases before with
      | nil =>
        cases has
        exact .inl ha
      | cons y before =>
        cases has
        obtain ⟨⟨b, hx⟩, hbefore⟩ := List.forall_mem_cons.1 hbefore
        exact .inr ⟨b, hx, bind_error_iff.2 (.inl (ih.2 ⟨before, a, after, rfl, hbefore, ha⟩))⟩

/-- What every successful element has, every element of the results has. -/
theorem forall_mem_of_mapM_ok {f : α → Except ε β} {P : β → Prop}
    (hf : ∀ a b, f a = .ok b → P b) {as : List α} {bs : List β} (h : as.mapM f = .ok bs) :
    ∀ b ∈ bs, P b := by
  have hall := mapM_ok_iff.1 h
  clear h
  induction hall with
  | nil => simp
  | cons hab _ ih => exact List.forall_mem_cons.2 ⟨hf _ _ hab, ih⟩

/-! ## The reason of a failure -/

/-- The error of a computation that fails. -/
def reason? : Except ε α → Option ε
  | .error e => some e
  | .ok _ => none

theorem reason?_eq_some_iff {x : Except ε α} {e : ε} : reason? x = some e ↔ x = .error e := by
  cases x with
  | error e' => simp [reason?]
  | ok a => exact ⟨nofun, nofun⟩

@[simp] theorem reason?_map (x : Except ε α) (f : α → β) : reason? (x.map f) = reason? x := by
  cases x <;> rfl

@[simp] theorem reason?_mapError (x : Except ε α) (f : ε → ε') :
    reason? (x.mapError f) = (reason? x).map f := by
  cases x <;> rfl

theorem reason?_bind_ok (x : Except ε α) (f : α → β) :
    reason? (x >>= fun a => .ok (f a)) = reason? x := by
  cases x <;> rfl

theorem reason?_bind₂_ok (x : Except ε α) (y : Except ε β) (f : α → β → γ) :
    reason? (x >>= fun a => y >>= fun b => .ok (f a b)) = (reason? x).or (reason? y) := by
  cases x with
  | error e => rfl
  | ok a => exact reason?_bind_ok y (f a)

/-- A traversal fails as the first of its elements that does. -/
theorem reason?_mapM (f : α → Except ε β) (as : List α) :
    reason? (as.mapM f) = as.findSome? fun a => reason? (f a) := by
  induction as with
  | nil => rfl
  | cons a as ih =>
    have hstep := reason?_bind₂_ok (f a) (as.mapM f) List.cons
    rw [ih] at hstep
    rw [List.mapM_cons, List.findSome?_cons]
    refine hstep.trans ?_
    cases reason? (f a) <;> rfl

end CharClass
