import CharClass.Error
import CharClass.Json.Read
import CharClass.Predefined
import CharClass.Spec

/-!
# Set expressions

An expression names every way of building a set: from characters, points, texts and predefined
classes, from the set held by a register, and by the set algebra. Its value is computed from left to
right, and the first part that cannot be built is its error.
-/

namespace CharClass

/-- Sets by name. A register that was never written holds the empty set. -/
structure Registers where
  entries : List (String × PointSet)
deriving DecidableEq

namespace Registers

/-- All registers empty. -/
def empty : Registers := ⟨[]⟩

/-- The set that a register holds. -/
def get (r : Registers) (name : String) : PointSet := (r.entries.lookup name).getD .empty

/-- The entries with `s` under `name`, in the place of an older entry if there is one. -/
def putEntry (name : String) (s : PointSet) : List (String × PointSet) → List (String × PointSet)
  | [] => [(name, s)]
  | (other, t) :: rest =>
    if name = other then (name, s) :: rest else (other, t) :: putEntry name s rest

/-- The registers with `s` written to `name`. -/
def put (r : Registers) (name : String) (s : PointSet) : Registers := ⟨putEntry name s r.entries⟩

end Registers

/-- The ends of an interval as they are given, before they are checked. -/
abbrev Ends := Nat × Nat

/-- The interval with the given ends. -/
def Ends.interval (e : Ends) : Except Error Interval :=
  (Interval.make e.1 e.2).mapError .bounds

inductive Expr where
  | spec (text : String)
  | char (c : Char)
  | between (c d : Char)
  | points (ends : Ends)
  | intervals (ends : List Ends)
  | chars (text : String)
  | json (text : String)
  | predefined (p : Predefined)
  | register (name : String)
  | complement (a : Expr)
  | union (a b : Expr)
  | difference (a b : Expr)
  | intersection (a b : Expr)
  | symmetricDifference (a b : Expr)
deriving DecidableEq

namespace Expr

/-- The set that an expression denotes. -/
def eval (r : Registers) : Expr → Except Error PointSet
  | spec text => (PointSet.ofSpec text).mapError .bounds
  | char c => .ok (.ofChar c)
  | between c d => (Ends.interval (c.toNat, d.toNat)).map .ofInterval
  | points ends => ends.interval.map .ofInterval
  | intervals ends => (ends.mapM Ends.interval).map .ofList
  | chars text => .ok (.ofChars text.toList)
  | json text => (PointSet.ofJson text).mapError .json
  | predefined p => .ok p.set
  | register name => .ok (r.get name)
  | complement a => do .ok (← a.eval r).complement
  | union a b => do .ok ((← a.eval r).union (← b.eval r))
  | difference a b => do .ok ((← a.eval r).difference (← b.eval r))
  | intersection a b => do .ok ((← a.eval r).intersection (← b.eval r))
  | symmetricDifference a b => do .ok ((← a.eval r).symmetricDifference (← b.eval r))

end Expr

end CharClass
