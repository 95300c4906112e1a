import CharClass.Json.Cursor

/-!
# Reading the words and the punctuation of JSON

`word` reads one of the three words letter by letter. `nextElement` goes from one element of a list
to the next, and `closeList` reads what ends a list. A list whose element was refused is left
without regard to what follows; `leaveList` is the place that reading reaches.
-/

namespace CharClass.Json

open Cursor

/-- Reads the characters `letters` and no others. -/
def word : List Char → Cursor → Except Error Cursor
  | [], c => .ok c
  | x :: letters, c =>
    match c.rest with
    | [] => .error (c.here .endInValue)
    | y :: _ => if x = y then word letters c.advance else .error (c.ahead .expectedWord)

/-- Looks for the element behind a comma; the cursor is behind the comma and the blanks after it. -/
def afterComma (c : Cursor) : Except Error (Bool × Cursor) :=
  match c.rest with
  | [] => .error (c.ahead .endInValue)
  | ']' :: _ => .error (c.ahead .trailingComma)
  | _ => .ok (true, c)

/-- Goes to the next element of a list, or to the bracket that closes it. The flag tells which. -/
def nextElement (first : Bool) (c : Cursor) : Except Error (Bool × Cursor) :=
  match c.skipBlanks.rest with
  | [] => .error (c.skipBlanks.ahead .endInList)
  | ']' :: _ => .ok (false, c.skipBlanks)
  | x :: _ =>
    if first then .ok (true, c.skipBlanks)
    else if x = ',' then afterComma c.skipBlanks.advance.skipBlanks
    else .error (c.skipBlanks.ahead .expectedComma)

/-- Reads the end of a list. -/
def closeList (c : Cursor) : Except Error Cursor :=
  match c.skipBlanks.rest with
  | [] => .error (c.skipBlanks.ahead .endInList)
  | ']' :: _ => .ok c.skipBlanks.advance
  | ',' :: _ =>
    let d := c.skipBlanks.advance.skipBlanks
    .error (d.ahead (if d.rest.head? = some ']' then .trailingComma else .trailingText))
  | _ => .error (c.skipBlanks.ahead .trailingText)

/-- The place that reading reaches when a list is left behind a refused element: behind the closing
bracket, or behind a comma and blanks, or where neither follows. -/
def leaveList (c : Cursor) : Position :=
  match c.skipBlanks.rest with
  | ']' :: _ => c.skipBlanks.advance.position
  | ',' :: _ => c.skipBlanks.advance.skipBlanks.position
  | _ => c.skipBlanks.position

theorem length_skipBlanks_le (c : Cursor) : c.skipBlanks.rest.length ≤ c.rest.length :=
  length_skipWhile_le ..

theorem length_nextElement_le {first more : Bool} {c d : Cursor}
    (went : nextElement first c = .ok (more, d)) : d.rest.length ≤ c.rest.length := by
  have blanks := length_skipBlanks_le c
  have comma := length_advance_le c.skipBlanks
  have behind := length_skipBlanks_le c.skipBlanks.advance
  unfold nextElement afterComma at went
  repeat' split at went
  all_goals cases went
  all_goals omega

theorem length_closeList_le {c d : Cursor} (closed : closeList c = .ok d) :
    d.rest.length ≤ c.rest.length := by
  have blanks := length_skipBlanks_le c
  have bracket := length_advance_le c.skipBlanks
  unfold closeList at closed
  split at closed <;> cases closed
  omega

end CharClass.Json
