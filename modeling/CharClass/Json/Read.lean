import CharClass.Json.Point
import CharClass.Json.Scan.Marks
import CharClass.Json.Scan.Number
import CharClass.Json.Scan.Text
import CharClass.PointSet.Update

/-!
# Reading sets and intervals from JSON text

A set is a list of intervals, an interval is the list of its two ends. Nothing is kept of the text
but these numbers. Whether two ends make an interval is asked as soon as their list is closed, and
the first pair that does not is the error, whatever follows; its position is the place that reading
reaches when the outer list is left. A lone interval has no outer list, and its error no position.
-/

namespace CharClass.Json

open Cursor

/-- The error for a value of another kind than `target`. The value is read if it is no list or
object, and what is wrong with its text comes first. -/
def mismatch (target : Target) (c : Cursor) : Error :=
  let found (shape : Shape) : Except Error Cursor → Error
    | .error e => e
    | .ok d => d.here (.wrongType shape target)
  match c.rest with
  | [] => c.ahead .expectedValue
  | 'n' :: _ => found .null (word ['u', 'l', 'l'] c.advance)
  | 't' :: _ => found (.boolean true) (word ['r', 'u', 'e'] c.advance)
  | 'f' :: _ => found (.boolean false) (word ['a', 'l', 's', 'e'] c.advance)
  | '[' :: _ => found .list (.ok c)
  | '\x7b' :: _ => found .object (.ok c)
  | '"' :: _ =>
    match stringBody c.advance with
    | .error e => e
    | .ok (s, d) => found (.text s) (.ok d)
  | x :: _ =>
    if startsNumber x then
      match number c with
      | .error e => e
      | .ok (n, d) => found (.number n) (.ok d)
    else c.ahead .expectedValue

/-- Reads an end of an interval. The cursor is behind the blanks before it. -/
def pointAt (c : Cursor) : Except Error (Nat × Cursor) :=
  match c.rest with
  | [] => .error (c.ahead .endInValue)
  | x :: _ =>
    if startsNumber x then
      match number c with
      | .error e => .error e
      | .ok (n, d) =>
        match n.point with
        | .error cause => .error (d.here cause)
        | .ok p => .ok (p, d)
    else .error (mismatch .point c)

/-- Reads an end of an interval. -/
def readPoint (c : Cursor) : Except Error (Nat × Cursor) := pointAt c.skipBlanks

/-- Reads the `index`-th end of an interval, counting from zero. A list that ends before it is too
short. -/
def readEnd (index : Nat) (c : Cursor) : Except Error (Nat × Cursor) :=
  match nextElement (index == 0) c with
  | .error e => .error e
  | .ok (true, d) => readPoint d
  | .ok (false, d) => .error ⟨.tooShort index, some (leaveList d)⟩

/-- Reads both ends of an interval and the end of their list, whose opening bracket is read
already. -/
def endsFrom (c : Cursor) : Except Error ((Nat × Nat) × Cursor) := do
  let (first, c) ← readEnd 0 c
  let (last, c) ← readEnd 1 c
  let c ← closeList c
  .ok ((first, last), c)

/-- Reads a list of two points, whatever their order. -/
def readEnds (c : Cursor) : Except Error ((Nat × Nat) × Cursor) :=
  match c.skipBlanks.rest with
  | [] => .error (c.skipBlanks.ahead .endInValue)
  | '[' :: _ => endsFrom c.skipBlanks.advance
  | _ => .error (mismatch .interval c.skipBlanks)

/-! ## An interval takes characters -/

theorem length_pointAt_le {c d : Cursor} {p : Nat} (read : pointAt c = .ok (p, d)) :
    d.rest.length ≤ c.rest.length := by
  unfold pointAt at read
  split at read
  · cases read
  · split at read
    · split at read
      · cases read
      · rename_i taken
        split at read <;> cases read
        exact Nat.le_of_lt (length_number_lt taken)
    · cases read

theorem length_readEnd_le {index : Nat} {c d : Cursor} {p : Nat}
    (read : readEnd index c = .ok (p, d)) : d.rest.length ≤ c.rest.length := by
  unfold readEnd at read
  split at read
  · cases read
  · rename_i e went
    have := length_nextElement_le went
    have := length_skipBlanks_le e
    have := length_pointAt_le read
    omega
  · cases read

theorem length_endsFrom_le {c d : Cursor} {ends : Nat × Nat} (read : endsFrom c = .ok (ends, d)) :
    d.rest.length ≤ c.rest.length := by
  simp only [endsFrom, bind, Except.bind] at read
  split at read
  · cases read
  · rename_i first
    split at read
    · cases read
    · rename_i second
      split at read
      · cases read
      · rename_i closed
        cases read
        have := length_readEnd_le first
        have := length_readEnd_le second
        have := length_closeList_le closed
        omega

theorem length_readEnds_lt {c d : Cursor} {ends : Nat × Nat} (read : readEnds c = .ok (ends, d)) :
    d.rest.length < c.rest.length := by
  have blanks := length_skipBlanks_le c
  unfold readEnds at read
  split at read
  · cases read
  · rename_i rest starts
    have := length_advance_lt (c := c.skipBlanks) (by simp [starts])
    have := length_endsFrom_le read
    omega
  · cases read

/-! ## The set -/

/-- Reads the intervals of a list up to its closing bracket. -/
def readIntervals (first : Bool) (c : Cursor) : Except Error (List Interval × Cursor) :=
  match went : nextElement first c with
  | .error e => .error e
  | .ok (false, d) => .ok ([], d)
  | .ok (true, d) =>
    match read : readEnds d with
    | .error e => .error e
    | .ok (ends, e) =>
      match Interval.make ends.1 ends.2 with
      | .error reason => .error ⟨.bounds reason, some (leaveList e)⟩
      | .ok i =>
        have := length_readEnds_lt read
        have := length_nextElement_le went
        (readIntervals false e).map fun (is, f) => (i :: is, f)
termination_by c.rest.length

theorem readIntervals_eq (first : Bool) (c : Cursor) :
    readIntervals first c =
      match nextElement first c with
      | .error e => .error e
      | .ok (false, d) => .ok ([], d)
      | .ok (true, d) =>
        match readEnds d with
        | .error e => .error e
        | .ok (ends, e) =>
          match Interval.make ends.1 ends.2 with
          | .error reason => .error ⟨.bounds reason, some (leaveList e)⟩
          | .ok i => (readIntervals false e).map fun (is, f) => (i :: is, f) := by
  rw [readIntervals]
  split
  · next hnext => simp only [hnext]
  · next hnext => simp only [hnext]
  · next hnext =>
    simp only [hnext]
    split
    · next hread => simp only [hread]
    · next hread => simp only [hread]

/-- Reads the list of a set's intervals. -/
def readSet (c : Cursor) : Except Error (List Interval × Cursor) :=
  match c.skipBlanks.rest with
  | [] => .error (c.skipBlanks.ahead .endInValue)
  | '[' :: _ => do
    let (is, c) ← readIntervals true c.skipBlanks.advance
    let c ← closeList c
    .ok (is, c)
  | _ => .error (mismatch .set c.skipBlanks)

/-- Nothing but blanks is left. -/
def expectEnd (c : Cursor) : Except Error Unit :=
  if c.skipBlanks.rest.isEmpty then .ok () else .error (c.skipBlanks.ahead .trailingText)

end CharClass.Json

namespace CharClass

/-- The set that a JSON text describes. Its intervals may come in any order and may overlap. -/
def PointSet.ofJson (text : String) : Except Json.Error PointSet := do
  let (is, c) ← Json.readSet (.ofString text)
  Json.expectEnd c
  .ok (.ofList is)

/-- The interval that a JSON text describes. -/
def Interval.ofJson (text : String) : Except Json.Error Interval := do
  let (ends, c) ← Json.readEnds (.ofString text)
  match Interval.make ends.1 ends.2 with
  | .error reason => .error ⟨.bounds reason, none⟩
  | .ok i =>
    Json.expectEnd c
    .ok i

end CharClass
