import CharClass.Proofs.Grammar
import CharClass.Proofs.Json.RoundTrip
import CharClass.Proofs.Script

/-!
# What makes a step fail

A step checks the ends of the intervals and the texts that it is given, from left to right. It fails
just if one of these checks is refused, and the first that is gives the error
(`Step.error_iff_refusal?`): what the registers hold has no part in it.

A step that fails leaves the registers as they were. Nothing restores them. The step has written
nothing yet, because it makes all its checks before it writes (`Step.atomic_perform`); in particular
the ends of all intervals are checked before the first is inserted. So a script ends with the
registers that it ends with when all steps that fail are left out (`Script.final_filter`).
-/

namespace CharClass

/-! ## Checks -/

/-- What is checked on the way to a set. -/
inductive Check where
  /-- Two points as the ends of an interval. -/
  | ends (e : Ends)
  /-- A text as a spec string. -/
  | spec (text : String)
  /-- A text as the JSON text of a set. -/
  | json (text : String)
deriving DecidableEq

namespace Check

/-- The error of a check that is refused. -/
inductive Refuses : Check → Error → Prop
  /-- Where the domain ends is not asked for when the ends descend. -/
  | descending {first last : Nat} (h : last < first) :
    Refuses (.ends (first, last)) (.bounds (.descending first last))
  | outsideDomain {first last : Nat} (h : first ≤ last) (h' : maxPoint < last) :
    Refuses (.ends (first, last)) (.bounds (.outsideDomain last))
  | spec {text : String} {c d : Char} (h : Spec.DescendsFirst text c d) :
    Refuses (.spec text) (.bounds (.descending c.toNat d.toNat))
  | json {text : String} {reason : Json.Error} (h : PointSet.ofJson text = .error reason)
    (h' : ¬∃ is, Json.Describes text is ∧ ∀ i ∈ is, i.Valid) : Refuses (.json text) (.json reason)

/-- The error of a check, if it is refused. -/
def refusal? : Check → Option Error
  | ends e => reason? e.interval
  | spec text => (reason? (PointSet.ofSpec text)).map .bounds
  | json text => (reason? (PointSet.ofJson text)).map .json

theorem refusal?_eq_some_iff {check : Check} {err : Error} :
    check.refusal? = some err ↔ check.Refuses err := by
  cases check with
  | ends e =>
    rw [refusal?, Ends.interval, reason?_mapError, Option.map_eq_some_iff]
    simp only [reason?_eq_some_iff, Interval.make_eq_error_iff]
    constructor
    · rintro ⟨reason, ⟨hdesc, rfl⟩ | ⟨hasc, hout, rfl⟩, rfl⟩
      · exact .descending hdesc
      · exact .outsideDomain hasc hout
    · rintro (⟨hdesc⟩ | ⟨hasc, hout⟩)
      · exact ⟨_, .inl ⟨hdesc, rfl⟩, rfl⟩
      · exact ⟨_, .inr ⟨hasc, hout, rfl⟩, rfl⟩
  | spec text =>
    rw [refusal?, PointSet.ofSpec, reason?_map, Option.map_eq_some_iff]
    simp only [reason?_eq_some_iff, Spec.compile_eq_error_iff]
    constructor
    · rintro ⟨reason, ⟨c, d, hfirst, rfl⟩, rfl⟩
      exact .spec hfirst
    · rintro (⟨⟩ | ⟨⟩ | ⟨hfirst⟩)
      exact ⟨_, ⟨_, _, hfirst, rfl⟩, rfl⟩
  | json text =>
    rw [refusal?, Option.map_eq_some_iff]
    simp only [reason?_eq_some_iff]
    constructor
    · rintro ⟨reason, hread, rfl⟩
      refine .json hread ?_
      rintro ⟨is, htext, hvalid⟩
      have hok := PointSet.ofJson_eq_ok_iff.2 ⟨is, htext, hvalid, rfl⟩
      exact absurd (hread.symm.trans hok) nofun
    · rintro ⟨⟩
      exact ⟨_, ‹_›, rfl⟩

theorem refusal?_eq_none_iff {check : Check} :
    check.refusal? = none ↔ ∀ err, ¬check.Refuses err := by
  simp only [Option.eq_none_iff_forall_ne_some, ne_eq, refusal?_eq_some_iff]

theorem exists_refuses_ends_iff {e : Ends} :
    (∃ err, (ends e).Refuses err) ↔ e.2 < e.1 ∨ maxPoint < e.2 := by
  constructor
  · rintro ⟨err, h⟩
    cases h with
    | descending h => exact .inl h
    | outsideDomain _ h => exact .inr h
  · intro h
    by_cases hdesc : e.2 < e.1
    · exact ⟨_, .descending hdesc⟩
    · exact ⟨_, .outsideDomain (Nat.le_of_not_lt hdesc) (h.resolve_left hdesc)⟩

end Check

/-! ## The checks of a step -/

/-- The checks on the way to the set of an expression, from left to right. -/
def Expr.checks : Expr → List Check
  | spec text => [.spec text]
  | between c d => [.ends (c.toNat, d.toNat)]
  | points ends => [.ends ends]
  | intervals ends => ends.map .ends
  | json text => [.json text]
  | char _ | chars _ | predefined _ | register _ => []
  | complement a => a.checks
  | union a b | difference a b | intersection a b | symmetricDifference a b => a.checks ++ b.checks

namespace Step

/-- The checks of a step, from left to right. -/
def checks (step : Step) : List Check :=
  match step.action with
  | .assign e | .equal e => e.checks
  | .insert ends | .remove ends => [.ends ends]
  | .extend ends => ends.map .ends
  | .clear | .roundTrip | .contains _ | .insertionPoint _ | .matchText _ _ => []

/-- The error of a step, if one of its checks is refused. -/
def refusal? (step : Step) : Option Error := step.checks.findSome? Check.refusal?

theorem refusal?_eq_some_iff {step : Step} {e : Error} :
    step.refusal? = some e ↔
      ∃ before check after, step.checks = before ++ check :: after ∧ check.Refuses e ∧
        ∀ other ∈ before, ∀ err, ¬other.Refuses err := by
  simp only [refusal?, List.findSome?_eq_some_iff, Check.refusal?_eq_some_iff,
    Check.refusal?_eq_none_iff]

theorem exists_refusal?_iff {step : Step} :
    (∃ e, step.refusal? = some e) ↔ ∃ check ∈ step.checks, ∃ e, check.Refuses e := by
  rw [← Option.isSome_iff_exists, refusal?, List.findSome?_isSome_iff]
  simp only [Option.isSome_iff_exists, Check.refusal?_eq_some_iff]

end Step

theorem reason?_mapM_interval (ends : List Ends) :
    reason? (ends.mapM Ends.interval) = (ends.map Check.ends).findSome? Check.refusal? := by
  rw [reason?_mapM, List.findSome?_map]
  rfl

section
variable (r : Registers)

/-- Whatever the registers hold, an expression has no set just if a check on the way to it is
refused. -/
theorem Expr.reason?_eval (e : Expr) : reason? (e.eval r) = e.checks.findSome? Check.refusal? := by
  induction e with
  | spec text =>
    rw [checks, List.findSome?_singleton]
    exact reason?_mapError _ _
  | char c => rfl
  | between c d =>
    rw [checks, List.findSome?_singleton]
    exact reason?_map _ _
  | points ends =>
    rw [checks, List.findSome?_singleton]
    exact reason?_map _ _
  | intervals ends => exact (reason?_map _ _).trans (reason?_mapM_interval ends)
  | chars text => rfl
  | json text =>
    rw [checks, List.findSome?_singleton]
    exact reason?_mapError _ _
  | predefined p => rfl
  | register name => rfl
  | complement a iha => exact (reason?_bind_ok _ _).trans iha
  | union a b iha ihb | difference a b iha ihb | intersection a b iha ihb
  | symmetricDifference a b iha ihb =>
    rw [checks, List.findSome?_append, ← iha, ← ihb]
    exact reason?_bind₂_ok _ _ _

end

/-! ## What a step leaves -/

namespace Step

open Updating

/-- A step that is refused has written nothing: it makes its checks first. -/
theorem atomic_perform (step : Step) : Atomic step.perform := by
  obtain ⟨register, action⟩ := step
  have hstore : ∀ s (reply : Reply), Atomic (store register s >>= fun _ => pure reply) :=
    fun s _ => ((unfailing_store register s).bind_pure _).atomic
  have hupdate : ∀ f, Atomic (update register f >>= fun _ => pure Reply.done) :=
    fun f => ((unfailing_update register f).bind_pure _).atomic
  have hreply : ∀ reply : Reply, Atomic (pure reply) := fun reply => (unfailing_pure reply).atomic
  cases action with
  | clear => exact hstore _ _
  | assign e =>
    exact readOnly_get.bind_atomic fun _ => (readOnly_check _).bind_atomic fun s => hstore s _
  | insert ends | remove ends => exact (readOnly_check _).bind_atomic fun _ => hupdate _
  | extend ends =>
    -- all ends are checked by now, so no insertion is followed by a check
    refine (readOnly_check _).bind_atomic fun is => Unfailing.atomic ?_
    exact (Unfailing.forM (fun _ => unfailing_update _ _) is).bind_pure _
  | roundTrip =>
    exact (readOnly_load _).bind_atomic fun _ => (readOnly_check _).bind_atomic fun s => hstore s _
  | contains p | insertionPoint p | matchText text offset =>
    exact (readOnly_load _).bind_atomic fun _ => hreply _
  | equal e =>
    refine (readOnly_load _).bind_atomic fun _ => readOnly_get.bind_atomic fun _ => ?_
    exact (readOnly_check _).bind_atomic fun _ => hreply _

theorem next_of_error {r : Registers} {step : Step} {e : Error}
    (h : (step.run r).1 = .error e) : step.next r = r :=
  step.atomic_perform r e h

/-- Intervals are inserted one after the other, and no other register is written. -/
theorem outcome_forM_insert (register : String) (is : List Interval) (r : Registers) :
    ∃ r', outcome (is.forM fun i => update register (·.insert i)) r = (.ok (), r') ∧
      ∀ name, r'.get name =
        if name = register then (r.get register).insertAll is else r.get name := by
  induction is generalizing r with
  | nil =>
    refine ⟨r, rfl, fun name => ?_⟩
    split
    · next h =>
      rw [h]
      rfl
    · rfl
  | cons i is ih =>
    obtain ⟨r', hrun, hget⟩ := ih (r.put register ((r.get register).insert i))
    refine ⟨r', (outcome_bind_of_ok rfl).trans hrun, fun name => ?_⟩
    rw [hget, Registers.get_put, if_pos rfl, Registers.get_put]
    split <;> rfl

theorem get_next_extend {ends : List Ends} {is : List Interval}
    (h : ends.mapM Ends.interval = .ok is) (r : Registers) (register name : String) :
    (next r ⟨register, .extend ends⟩).get name =
      if name = register then (r.get register).insertAll is else r.get name := by
  obtain ⟨r', hrun, hget⟩ := outcome_forM_insert register is r
  have hcheck : outcome (check (ends.mapM Ends.interval)) r = (.ok is, r) :=
    congrArg (·, r) h
  have hinserted : outcome ((is.forM fun i => update register (·.insert i)) >>= fun _ =>
      pure Reply.done) r = (.ok .done, r') :=
    outcome_bind_of_ok hrun
  have hstep : run r ⟨register, .extend ends⟩ = (.ok .done, r') :=
    (outcome_bind_of_ok hcheck).trans hinserted
  rw [next, hstep, hget]

end Step

section
open Updating

variable {r : Registers} (hr : r.Reachable)
include hr

/-- A round trip gives the set back to its register. -/
theorem Step.run_roundTrip (register : String) :
    run r ⟨register, .roundTrip⟩ =
      (.ok (.text (r.get register).toJson), r.put register (r.get register)) := by
  have hread : (PointSet.ofJson (r.get register).toJson).mapError Error.json =
      .ok (r.get register) :=
    mapError_ok_iff.2 (hr register).wellFormed.ofJson_toJson
  have hcheck : outcome (check ((PointSet.ofJson (r.get register).toJson).mapError .json)) r =
      (.ok (r.get register), r) :=
    congrArg (·, r) hread
  have hload : outcome (load register) r = (.ok (r.get register), r) := rfl
  exact (outcome_bind_of_ok hload).trans (outcome_bind_of_ok hcheck)

/-- Over reachable registers a step fails just if one of its checks is refused, and the first gives
the error. -/
theorem Step.reason?_run (step : Step) : reason? (step.run r).1 = step.refusal? := by
  obtain ⟨register, action⟩ := step
  have hstore : ∀ s, Unfailing (store register s >>= fun _ => pure Reply.done) :=
    fun s => (unfailing_store register s).bind_pure _
  cases action with
  | clear => rfl
  | assign e => exact (reason?_outcome_check (e.eval r) hstore r).trans (e.reason?_eval r)
  | insert ends | remove ends =>
    refine (reason?_outcome_check _ (fun i => ?_) r).trans List.findSome?_singleton.symm
    exact (unfailing_update register _).bind_pure _
  | extend ends =>
    refine (reason?_outcome_check _ (fun is => ?_) r).trans (reason?_mapM_interval ends)
    exact (Unfailing.forM (fun _ => unfailing_update _ _) is).bind_pure _
  | roundTrip =>
    -- the one step that could fail for what its register holds
    rw [run_roundTrip hr]
    rfl
  | contains p => rfl
  | insertionPoint p => rfl
  | matchText text offset => rfl
  | equal e =>
    exact (reason?_outcome_check (e.eval r) (fun _ => unfailing_pure _) r).trans (e.reason?_eval r)

theorem Step.error_iff_refusal? {step : Step} {e : Error} :
    (step.run r).1 = .error e ↔ step.refusal? = some e := by
  rw [← reason?_run hr, reason?_eq_some_iff]

theorem Step.next_of_refusal? {step : Step} {e : Error} (h : step.refusal? = some e) :
    step.next r = r :=
  next_of_error ((error_iff_refusal? hr).2 h)

theorem Script.map_reason?_run (steps : List Step) :
    (Script.run r steps).map (fun report => reason? report.reply) = steps.map Step.refusal? := by
  induction steps generalizing r with
  | nil => rfl
  | cons step rest ih =>
    rw [List.map_cons, ← Step.reason?_run hr, ← ih (Step.reachable_next hr step)]
    rfl

/-- Steps that fail can be left out. -/
theorem Script.final_filter (steps : List Step) :
    Script.final r (steps.filter (·.refusal?.isNone)) = Script.final r steps := by
  induction steps generalizing r with
  | nil => rfl
  | cons step rest ih =>
    cases hstep : step.refusal? with
    | none =>
      rw [List.filter_cons_of_pos (by simp [hstep])]
      exact ih (Step.reachable_next hr step)
    | some e =>
      have hnext : step.next r = r := Step.next_of_refusal? hr hstep
      have hfinal : Script.final r (step :: rest) = Script.final r rest :=
        congrArg (Script.final · rest) hnext
      rw [List.filter_cons_of_neg (by simp [hstep]), ih hr, hfinal]

end

/-! ## Steps and scripts -/

/-- What holds of every step on the registers `r`. It fails just if one of its checks is refused,
with the error of the first that is, and then it leaves the registers as they are. Ends that will
not do keep all intervals of an extension out, and else all are inserted, into one register. A round
trip goes well and changes nothing. -/
structure Step.Laws (r : Registers) : Prop where
  error_iff : ∀ (step : Step) e, (step.run r).1 = .error e ↔
    ∃ before check after, step.checks = before ++ check :: after ∧ check.Refuses e ∧
      ∀ other ∈ before, ∀ err, ¬other.Refuses err
  fails_iff : ∀ step : Step, (∃ e, (step.run r).1 = .error e) ↔
    ∃ check ∈ step.checks, ∃ e, check.Refuses e
  unchanged : ∀ (step : Step) e, (step.run r).1 = .error e → step.next r = r
  extend_refused : ∀ register ends, (∃ e ∈ ends, e.2 < e.1 ∨ maxPoint < e.2) →
    (∃ err, (Step.run r ⟨register, .extend ends⟩).1 = .error err) ∧
      Step.next r ⟨register, .extend ends⟩ = r
  extend : ∀ register ends is, ends.mapM Ends.interval = .ok is → ∀ name,
    (Step.next r ⟨register, .extend ends⟩).get name =
      if name = register then (r.get register).insertAll is else r.get name
  roundTrip : ∀ register,
    (Step.run r ⟨register, .roundTrip⟩).1 = .ok (.text (r.get register).toJson) ∧
      ∀ name, (Step.next r ⟨register, .roundTrip⟩).get name = r.get name

section
variable {r : Registers} (hr : r.Reachable)
include hr

theorem Step.laws : Step.Laws r where
  error_iff step e := by
    rw [error_iff_refusal? hr, refusal?_eq_some_iff]
  fails_iff step := by
    simp only [error_iff_refusal? hr, exists_refusal?_iff]
  unchanged step e := next_of_error
  extend_refused register ends := by
    rintro ⟨e, he, hbad⟩
    have hcheck : Check.ends e ∈ (Step.mk register (.extend ends)).checks :=
      List.mem_map_of_mem he
    obtain ⟨err, herr⟩ := exists_refusal?_iff.2
      ⟨_, hcheck, Check.exists_refuses_ends_iff.2 hbad⟩
    have hfails := (error_iff_refusal? hr).2 herr
    exact ⟨⟨err, hfails⟩, next_of_error hfails⟩
  extend register ends is h := get_next_extend h r register
  roundTrip register := by
    rw [next, run_roundTrip hr]
    refine ⟨rfl, fun name => ?_⟩
    rw [Registers.get_put]
    split
    · next h => rw [h]
    · rfl

/-- Wherever in a script a step stands, its failure is told by its checks alone and leaves every
register, intervals and bitmap, as it is. So the script reports the failures that the checks of its
steps tell, and ends as it does without the steps that fail. -/
theorem Script.failures_leave_no_trace (steps : List Step) :
    (∀ before after, steps = before ++ after → Step.Laws (Script.final r before)) ∧
      (Script.run r steps).map (fun report => reason? report.reply) = steps.map Step.refusal? ∧
      Script.final r (steps.filter (·.refusal?.isNone)) = Script.final r steps :=
  ⟨fun before _ _ => Step.laws (Script.reachable_final hr before), Script.map_reason?_run hr steps,
    Script.final_filter hr steps⟩

end

/-- The second ends descend and lie outside the domain, and the spec string descends: of four steps
the first and the last remain, and the first of the pairs stays out as well. -/
theorem Script.failures_leave_no_trace_of_descending :
    Registers.empty.Reachable ∧
      (Script.run .empty [⟨"x", .assign (.predefined .digit)⟩,
          ⟨"x", .extend [(0x61, 0x66), (0x110005, 0x110000)]⟩,
          ⟨"y", .assign (.union (.register "x") (.spec "z-a"))⟩, ⟨"x", .roundTrip⟩]).map
          (fun report => reason? report.reply) =
        [none, some (.bounds (.descending 0x110005 0x110000)),
          some (.bounds (.descending 0x7A 0x61)), none] ∧
      Script.final .empty [⟨"x", .assign (.predefined .digit)⟩, ⟨"x", .roundTrip⟩] =
        Script.final .empty [⟨"x", .assign (.predefined .digit)⟩,
          ⟨"x", .extend [(0x61, 0x66), (0x110005, 0x110000)]⟩,
          ⟨"y", .assign (.union (.register "x") (.spec "z-a"))⟩, ⟨"x", .roundTrip⟩] ∧
      Step.next (Script.final .empty [⟨"x", .assign (.predefined .digit)⟩])
          ⟨"x", .extend [(0x61, 0x66), (0x110005, 0x110000)]⟩ =
        Script.final .empty [⟨"x", .assign (.predefined .digit)⟩] := by
  obtain ⟨hlaws, hreasons, hfinal⟩ := failures_leave_no_trace Registers.reachable_empty
    [⟨"x", .assign (.predefined .digit)⟩, ⟨"x", .extend [(0x61, 0x66), (0x110005, 0x110000)]⟩,
      ⟨"y", .assign (.union (.register "x") (.spec "z-a"))⟩, ⟨"x", .roundTrip⟩]
  have hextend := (hlaws [⟨"x", .assign (.predefined .digit)⟩] _ rfl).extend_refused "x"
    [(0x61, 0x66), (0x110005, 0x110000)]
  refine ⟨Registers.reachable_empty, hreasons.trans (by decide), hfinal, (hextend ?_).2⟩
  exact ⟨(0x110005, 0x110000), by decide, by decide⟩

end CharClass
