import CharClass.Proofs.Outcome
import CharClass.Script

/-!
# Computations on registers

A computation that is refused leaves the registers as they are at that moment, with all that it has
written by then. That it leaves no trace is a matter of the order in which it checks and writes. It
reads and checks first, which writes nothing (`ReadOnly`), and what it does then is not refused any
more (`Unfailing`). Such a computation is atomic (`ReadOnly.bind_atomic`, `Unfailing.atomic`). One
that checks again after it has written is not.

What a computation keeps true of the registers and what is true of its result are followed from part
to part in the same way (`Keeps.bind`).
-/

namespace CharClass.Updating

variable {α β : Type} {x : Updating α} {k : α → Updating β} {r r' : Registers}

/-! ## One computation after another -/

theorem outcome_bind_of_ok {a : α} (h : x.outcome r = (.ok a, r')) :
    outcome (x >>= k) r = (k a).outcome r' := by
  have hrun : (ExceptT.run x).run r = (.ok a, r') := h
  rw [outcome, ExceptT.run_bind, StateT.run_bind, hrun]
  rfl

theorem outcome_bind_of_error {e : Error} (h : x.outcome r = (.error e, r')) :
    outcome (x >>= k) r = (.error e, r') := by
  have hrun : (ExceptT.run x).run r = (.error e, r') := h
  rw [outcome, ExceptT.run_bind, StateT.run_bind, hrun]
  rfl

/-! ## Checking before writing -/

/-- The computation writes nothing. -/
def ReadOnly (x : Updating α) : Prop := ∀ r, (x.outcome r).2 = r

/-- The computation is not refused. -/
def Unfailing (x : Updating α) : Prop := ∀ r, ∃ a, (x.outcome r).1 = .ok a

/-- If the computation is refused, the registers that it leaves are those that it started with. -/
def Atomic (x : Updating α) : Prop :=
  ∀ r e, (x.outcome r).1 = .error e → (x.outcome r).2 = r

theorem readOnly_get : ReadOnly (get : Updating Registers) := fun _ => rfl

theorem readOnly_check (c : Except Error α) : ReadOnly (check c) := fun _ => rfl

theorem readOnly_load (name : String) : ReadOnly (load name) := fun _ => rfl

theorem unfailing_pure (a : α) : Unfailing (pure a : Updating α) := fun _ => ⟨a, rfl⟩

theorem unfailing_store (name : String) (s : PointSet) : Unfailing (store name s) :=
  fun _ => ⟨(), rfl⟩

theorem unfailing_update (name : String) (f : PointSet → PointSet) : Unfailing (update name f) :=
  fun _ => ⟨(), rfl⟩

theorem Unfailing.bind (hx : Unfailing x) (hk : ∀ a, Unfailing (k a)) : Unfailing (x >>= k) := by
  intro r
  obtain ⟨a, ha⟩ := hx r
  rw [outcome_bind_of_ok (Prod.ext ha rfl)]
  exact hk a _

theorem Unfailing.bind_pure (hx : Unfailing x) (f : α → β) :
    Unfailing (x >>= fun a => pure (f a)) :=
  hx.bind fun a => unfailing_pure (f a)

theorem Unfailing.forM {f : α → Updating Unit} (hf : ∀ a, Unfailing (f a)) (as : List α) :
    Unfailing (as.forM f) := by
  induction as with
  | nil => exact unfailing_pure ()
  | cons a as ih => exact (hf a).bind fun _ => ih

theorem Unfailing.atomic (hx : Unfailing x) : Atomic x := by
  intro r e herror
  obtain ⟨a, ha⟩ := hx r
  rw [ha] at herror
  cases herror

/-- What is read and checked before an atomic computation leaves it atomic. -/
theorem ReadOnly.bind_atomic (hx : ReadOnly x) (hk : ∀ a, Atomic (k a)) : Atomic (x >>= k) := by
  intro r e herror
  have hsame := hx r
  cases hout : (x.outcome r).1 with
  | error e' => rw [outcome_bind_of_error (Prod.ext hout hsame)]
  | ok a =>
    rw [outcome_bind_of_ok (Prod.ext hout hsame)] at herror ⊢
    exact hk a r e herror

/-- Where nothing behind a check is refused, the check says whether and why the whole is. -/
theorem reason?_outcome_check (c : Except Error α) (hk : ∀ a, Unfailing (k a)) (r : Registers) :
    reason? (outcome (check c >>= k) r).1 = reason? c := by
  cases c with
  | error e => rfl
  | ok a =>
    obtain ⟨b, hb⟩ := hk a r
    exact congrArg reason? hb

/-- Checked when their turn comes, ends that are refused leave the intervals before them
inserted. -/
example : ¬Atomic ([(0x61, 0x66), (9, 5)].forM fun ends => do
    let i ← check (Ends.interval ends)
    update "x" (·.insert i)) := by
  intro h
  have hsame := congrArg (·.get "x") (h .empty _ rfl)
  revert hsame
  decide +kernel

/-! ## What is kept -/

/-- From registers with `P` the computation comes to registers with `P`, refused or not, and what it
gives has `Q`. -/
def Keeps (P : Registers → Prop) (x : Updating α) (Q : α → Prop) : Prop :=
  ∀ r, P r → P (x.outcome r).2 ∧ ∀ a, (x.outcome r).1 = .ok a → Q a

section
variable {P : Registers → Prop} {Q : α → Prop} {Q' : β → Prop}

theorem keeps_pure {a : α} (h : Q a) : Keeps P (pure a : Updating α) Q := by
  intro r hr
  refine ⟨hr, fun b hb => ?_⟩
  cases hb
  exact h

theorem keeps_get : Keeps P (get : Updating Registers) P := by
  intro r hr
  refine ⟨hr, fun r' hr' => ?_⟩
  cases hr'
  exact hr

theorem keeps_check {c : Except Error α} (h : ∀ a, c = .ok a → Q a) : Keeps P (check c) Q :=
  fun _ hr => ⟨hr, h⟩

theorem keeps_load {name : String} {Q : PointSet → Prop} (h : ∀ r, P r → Q (r.get name)) :
    Keeps P (load name) Q := by
  intro r hr
  refine ⟨hr, fun s hs => ?_⟩
  cases hs
  exact h r hr

theorem keeps_store {name : String} {s : PointSet} (h : ∀ r, P r → P (r.put name s)) :
    Keeps P (store name s) fun _ => True :=
  fun r hr => ⟨h r hr, fun _ _ => trivial⟩

theorem keeps_update {name : String} {f : PointSet → PointSet}
    (h : ∀ r, P r → P (r.put name (f (r.get name)))) : Keeps P (update name f) fun _ => True :=
  fun r hr => ⟨h r hr, fun _ _ => trivial⟩

theorem Keeps.bind (hx : Keeps P x Q) (hk : ∀ a, Q a → Keeps P (k a) Q') :
    Keeps P (x >>= k) Q' := by
  intro r hr
  obtain ⟨hafter, hgives⟩ := hx r hr
  cases hout : (x.outcome r).1 with
  | error e =>
    rw [outcome_bind_of_error (Prod.ext hout rfl)]
    exact ⟨hafter, nofun⟩
  | ok a =>
    rw [outcome_bind_of_ok (Prod.ext hout rfl)]
    exact hk a (hgives a hout) _ hafter

theorem Keeps.bind_pure (hx : Keeps P x Q) (f : α → β) :
    Keeps P (x >>= fun a => pure (f a)) fun _ => True :=
  hx.bind fun _ _ => keeps_pure trivial

theorem Keeps.forM {f : α → Updating Unit} {as : List α}
    (hf : ∀ a ∈ as, Keeps P (f a) fun _ => True) : Keeps P (as.forM f) fun _ => True := by
  induction as with
  | nil => exact keeps_pure trivial
  | cons a as ih =>
    obtain ⟨ha, has⟩ := List.forall_mem_cons.1 hf
    exact ha.bind fun _ _ => ih has

end

end CharClass.Updating
