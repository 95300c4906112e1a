import CharClass.Json.Error

/-!
# A cursor over a text

The characters that are still to be read and the position of the first of them. Errors are raised at
the cursor (`here`) or one byte further (`ahead`), which is the place behind a byte that was looked
at or was read and found wrong; a character of several bytes is cut by it.
-/

namespace CharClass.Json

namespace Position

/-- The place behind the first byte of `c`. -/
def pastByte (p : Position) (c : Char) : Position :=
  if c = '\n' then ⟨p.line + 1, 0⟩ else ⟨p.line, p.column + 1⟩

/-- The place behind `c`. -/
def past (p : Position) (c : Char) : Position :=
  if c = '\n' then ⟨p.line + 1, 0⟩ else ⟨p.line, p.column + c.utf8Size⟩

/-- The place `n` bytes further on in the text `cs`, if it has so many. -/
def skipBytes? (n : Nat) : List Char → Position → Option Position
  | [], p => if n = 0 then some p else none
  | c :: cs, p =>
    if n = 0 then some p
    else if n < c.utf8Size then some ⟨p.line, p.column + n⟩
    else skipBytes? (n - c.utf8Size) cs (p.past c)

end Position

structure Cursor where
  rest : List Char
  position : Position
deriving DecidableEq

namespace Cursor

/-- The cursor before the first character. -/
def ofString (s : String) : Cursor := ⟨s.toList, ⟨1, 0⟩⟩

/-- The cursor behind the next character. At the end it stays. -/
def advance (c : Cursor) : Cursor :=
  match c.rest with
  | [] => c
  | x :: rest => ⟨rest, c.position.past x⟩

/-- The place behind the next byte. At the end it is that of the cursor. -/
def peek (c : Cursor) : Position :=
  match c.rest with
  | [] => c.position
  | x :: _ => c.position.pastByte x

/-- The cursor behind the last character. -/
def atEnd (c : Cursor) : Cursor := ⟨[], c.rest.foldl Position.past c.position⟩

/-- An error at the cursor. -/
def here (c : Cursor) (cause : Cause) : Error := ⟨cause, some c.position⟩

/-- An error behind the next byte. -/
def ahead (c : Cursor) (cause : Cause) : Error := ⟨cause, some c.peek⟩

/-- The four characters that may stand between tokens. -/
def isBlank (c : Char) : Bool := c == ' ' || c == '\n' || c == '\t' || c == '\r'

/-- The cursor behind the characters that satisfy `q`. -/
def skipWhile (q : Char → Bool) (c : Cursor) : Cursor :=
  ⟨c.rest.dropWhile q, (c.rest.takeWhile q).foldl Position.past c.position⟩

theorem rest_advance {c : Cursor} {x : Char} {tail : List Char} (starts : c.rest = x :: tail) :
    c.advance.rest = tail := by
  unfold advance
  rw [starts]

theorem length_advance_le (c : Cursor) : c.advance.rest.length ≤ c.rest.length := by
  unfold advance
  split <;> simp_all

theorem length_advance_lt {c : Cursor} (more : c.rest ≠ []) :
    c.advance.rest.length < c.rest.length := by
  unfold advance
  split <;> simp_all

theorem length_skipWhile_le (q : Char → Bool) (c : Cursor) :
    (c.skipWhile q).rest.length ≤ c.rest.length :=
  (List.dropWhile_suffix q).length_le

/-- The cursor behind the blanks. -/
def skipBlanks (c : Cursor) : Cursor := c.skipWhile isBlank

/-- The digits at the cursor. -/
def digits (c : Cursor) : List Char := c.rest.takeWhile Char.isDigit

/-- The cursor behind the digits. -/
def skipDigits (c : Cursor) : Cursor := c.skipWhile Char.isDigit

end Cursor

end CharClass.Json
