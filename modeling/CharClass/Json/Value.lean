import CharClass.Json.Point
import CharClass.PointSet.Update

/-!
# Sets and intervals as JSON values

A JSON value as a tree, the tree of a set (`PointSet.toValue`), and the set that a tree describes
(`PointSet.ofValue`). The tree has no positions, so the errors have none either. The elements of a
list are looked at in order, and the first failure is the error; a pair with more than two elements
is refused after its first two were read as points and before they are made an interval.
-/

namespace CharClass.Json

inductive Value where
  | null
  | boolean (b : Bool)
  | number (n : Number)
  | text (s : String)
  | list (elements : List Value)
  | object (members : List (String × Value))

namespace Value

/-- What the value looks like from outside. -/
def shape : Value → Shape
  | null => .null
  | boolean b => .boolean b
  | number n => .number n
  | text s => .text s
  | list _ => .list
  | object _ => .object

/-- The end of an interval that a value describes. -/
def point : Value → Except Cause Nat
  | number n => n.point
  | v => .error (.wrongType v.shape .point)

/-- The interval that a value describes. -/
def interval : Value → Except Cause Interval
  | list [] => .error (.tooShort 0)
  | list [v] => do
    let _ ← v.point
    .error (.tooShort 1)
  | list (v :: w :: rest) => do
    let first ← v.point
    let last ← w.point
    if rest.isEmpty then (Interval.make first last).mapError .bounds
    else .error (.tooLong (rest.length + 2))
  | v => .error (.wrongType v.shape .interval)

/-- The intervals of the set that a value describes. -/
def intervals : Value → Except Cause (List Interval)
  | list vs => vs.mapM interval
  | v => .error (.wrongType v.shape .set)

end Value

end CharClass.Json

namespace CharClass

/-- The list of both ends. -/
def Interval.toValue (i : Interval) : Json.Value :=
  .list [.number (.integer i.first), .number (.integer i.last)]

/-- The list of the intervals. -/
def PointSet.toValue (s : PointSet) : Json.Value := .list (s.intervals.toList.map Interval.toValue)

/-- The set that a JSON value describes. -/
def PointSet.ofValue (v : Json.Value) : Except Json.Error PointSet :=
  match v.intervals with
  | .error cause => .error ⟨cause, none⟩
  | .ok is => .ok (.ofList is)

end CharClass
