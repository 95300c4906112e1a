import CharClass.Json.Read
import CharClass.Json.Value

/-!
# JSON texts as trees

`Value.parse?` reads any JSON text as a tree, to whatever depth. It reads numbers, strings, words
and lists as the reader of sets does, and objects besides; the members of an object are kept in the
order of the text.
-/

namespace CharClass.Json.Value

/-- Goes to the name of the next member of an object, or to the brace that closes it. -/
def nextMember? (first : Bool) (c : Cursor) : Option (Bool × Cursor) :=
  let c := c.skipBlanks
  match c.rest with
  | '\x7d' :: _ => some (false, c)
  | '"' :: _ => if first then some (true, c) else none
  | ',' :: _ =>
    let c := c.advance.skipBlanks
    if first then none else if c.rest.head? = some '"' then some (true, c) else none
  | _ => none

/-- Reads the colon behind a name. -/
def colon? (c : Cursor) : Option Cursor :=
  let c := c.skipBlanks
  if c.rest.head? = some ':' then some c.advance else none

mutual

/-- Reads a value. A character costs at most two calls, one for the element that starts with it and
one for its place in the list around it, so fuel for twice the text is enough. -/
def read? (fuel : Nat) (c : Cursor) : Option (Value × Cursor) :=
  match fuel with
  | 0 => none
  | fuel + 1 =>
    let c := c.skipBlanks
    match c.rest with
    | [] => none
    | 'n' :: _ => (word ['u', 'l', 'l'] c.advance).toOption.map (null, ·)
    | 't' :: _ => (word ['r', 'u', 'e'] c.advance).toOption.map (boolean true, ·)
    | 'f' :: _ => (word ['a', 'l', 's', 'e'] c.advance).toOption.map (boolean false, ·)
    | '"' :: _ => (stringBody c.advance).toOption.map fun (s, c) => (text s, c)
    | '[' :: _ => do
      let (vs, c) ← readElements? fuel true c.advance
      let c ← (closeList c).toOption
      some (list vs, c)
    | '\x7b' :: _ => (readMembers? fuel true c.advance).map fun (ms, c) => (object ms, c)
    | x :: _ => if startsNumber x then (Json.number c).toOption.map fun (n, c) => (number n, c)
      else none

/-- Reads the elements of a list up to its closing bracket. -/
def readElements? (fuel : Nat) (first : Bool) (c : Cursor) : Option (List Value × Cursor) :=
  match fuel with
  | 0 => none
  | fuel + 1 => do
    let (more, c) ← (nextElement first c).toOption
    if more then
      let (v, c) ← read? fuel c
      let (vs, c) ← readElements? fuel false c
      some (v :: vs, c)
    else some ([], c)

/-- Reads the members of an object and its closing brace. -/
def readMembers? (fuel : Nat) (first : Bool) (c : Cursor) :
    Option (List (String × Value) × Cursor) :=
  match fuel with
  | 0 => none
  | fuel + 1 => do
    let (more, c) ← nextMember? first c
    if more then
      let (name, c) ← (stringBody c.advance).toOption
      let c ← colon? c
      let (v, c) ← read? fuel c
      let (ms, c) ← readMembers? fuel false c
      some ((name, v) :: ms, c)
    else some ([], c.advance)

end

/-- The tree of a JSON text, however deep its values are nested. A reader that stops at some depth,
as most do at 128 levels, reads fewer texts, and those it reads as the same trees. -/
def parse? (text : String) : Option Value := do
  let c := Cursor.ofString text
  let (v, c) ← read? (2 * c.rest.length + 2) c
  (expectEnd c).toOption
  some v

end CharClass.Json.Value
