import CharClass.Expr
import CharClass.Json.Write
import CharClass.Match

/-!
# Scripts

A script is a list of steps, each of which reads or writes one register. A step may be refused, and
the next step runs all the same, on the registers that the refused one leaves: nothing takes back
what it has written by then. `run` reports for each step its reply and the set that its register
holds afterwards.
-/

namespace CharClass

/-- What a step does with the set in its register. -/
inductive Action where
  /-- Empties the register. -/
  | clear
  | assign (e : Expr)
  | insert (ends : Ends)
  | remove (ends : Ends)
  /-- Inserts several intervals, all of which are checked before the first is inserted. -/
  | extend (ends : List Ends)
  /-- Writes the set as JSON text and reads it back into the register. -/
  | roundTrip
  | contains (p : Nat)
  | insertionPoint (p : Nat)
  | matchText (text : String) (offset : Nat)
  /-- Compares the set with that of an expression. -/
  | equal (e : Expr)
deriving DecidableEq

structure Step where
  register : String
  action : Action
deriving DecidableEq

/-- What a step answers. -/
inductive Reply where
  | done
  | flag (b : Bool)
  | count (n : Nat)
  | length (n : Option Nat)
  | text (s : String)
deriving DecidableEq

/-- A computation on registers that may be refused. What it writes before it is refused stays
written. -/
abbrev Updating (α : Type) : Type := ExceptT Error (StateM Registers) α

namespace Updating

/-- What a computation without registers gives, or its refusal. -/
def check {α : Type} (c : Except Error α) : Updating α := ExceptT.mk (pure c)

/-- The set that a register holds. -/
def load (name : String) : Updating PointSet := return (← get).get name

/-- Writes a set to a register. -/
def store (name : String) (s : PointSet) : Updating Unit := modify (·.put name s)

/-- Changes the set of a register in place. -/
def update (name : String) (f : PointSet → PointSet) : Updating Unit :=
  modify fun r => r.put name (f (r.get name))

/-- What the computation gives, or its refusal, and the registers that it leaves in either case. -/
def outcome {α : Type} (x : Updating α) (r : Registers) : Except Error α × Registers :=
  (ExceptT.run x).run r

end Updating

namespace Step

open Updating (check load store update)

/-- Does what the step says and gives its reply. -/
def perform (step : Step) : Updating Reply :=
  let name := step.register
  match step.action with
  | .clear => do
    store name .empty
    return .done
  | .assign e => do
    let s ← check (e.eval (← get))
    store name s
    return .done
  | .insert ends => do
    let i ← check ends.interval
    update name (·.insert i)
    return .done
  | .remove ends => do
    let i ← check ends.interval
    update name (·.remove i)
    return .done
  | .extend ends => do
    let is ← check (ends.mapM Ends.interval)
    is.forM fun i => update name (·.insert i)
    return .done
  | .roundTrip => do
    let text := (← load name).toJson
    let s ← check ((PointSet.ofJson text).mapError .json)
    store name s
    return .text text
  | .contains p => return .flag ((← load name).contains p)
  | .insertionPoint p => return .count (CharClass.insertionPoint (← load name).intervals p)
  | .matchText text offset => return .length ((← load name).matchText text offset)
  | .equal e => do
    let s ← load name
    let t ← check (e.eval (← get))
    return .flag (decide (s = t))

/-- The reply or the error of the step, and the registers that it leaves. -/
def run (r : Registers) (step : Step) : Except Error Reply × Registers := step.perform.outcome r

/-- The registers after the step. -/
def next (r : Registers) (step : Step) : Registers := (step.run r).2

end Step

/-- What a step reports: its reply or its error, and its register's set after it. -/
structure Report where
  reply : Except Error Reply
  state : PointSet

namespace Script

/-- The reports of the steps, in order. -/
def run (r : Registers) : List Step → List Report
  | [] => []
  | step :: rest =>
    let outcome := step.run r
    ⟨outcome.1, outcome.2.get step.register⟩ :: run outcome.2 rest

/-- The registers after all steps. -/
def final (r : Registers) (steps : List Step) : Registers := steps.foldl Step.next r

end Script

end CharClass
