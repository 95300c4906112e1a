import CharClass.PointSet.Basic

/-!
# Matching one character

A class answers one question about an input: does the character under the cursor belong to you? Over
a buffer of characters the cursor is an index inside a window and a match has length one; over a
text it is an offset in bytes of UTF-8, and the length of a match is that of the character. A match
never looks past the cursor and never fails with an error.
-/

namespace CharClass

/-- What a cursor without a match reports. -/
def noMatch : Option Nat := none

/-- The character of a text that starts `offset` bytes into it. An offset inside a character or at
the end names none. -/
def charAtOffset : List Char → Nat → Option Char
  | [], _ => none
  | c :: rest, offset =>
    if offset = 0 then some c
    else if offset < c.utf8Size then none
    else charAtOffset rest (offset - c.utf8Size)

namespace PointSet

/-- Matches the character at index `start` of `buffer`, if the window that ends before `stop` holds
it. -/
def matchAt (s : PointSet) (buffer : Array Char) (start stop : Nat) : Option Nat :=
  if start < stop then
    match buffer[start]? with
    | some c => if s.containsChar c then some 1 else noMatch
    | none => noMatch
  else noMatch

/-- Matches the character that starts `offset` bytes into `text`. -/
def matchText (s : PointSet) (text : String) (offset : Nat) : Option Nat :=
  match charAtOffset text.toList offset with
  | some c => if s.containsChar c then some c.utf8Size else noMatch
  | none => noMatch

end PointSet

end CharClass
