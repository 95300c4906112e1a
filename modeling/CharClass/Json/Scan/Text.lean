import CharClass.Json.Cursor

/-!
# Reading a JSON string

A string goes up to the first quote that no backslash escapes. An escape is one letter or the four
hexadecimal digits of a code unit; a code unit that is the first half of a surrogate pair has to be
followed by the escape of the second half. The four digits are read as four bytes before they are
looked at, so an error in them can stand inside a character.
-/

namespace CharClass.Json

open Cursor

/-- The character that a letter behind a backslash stands for. -/
def escaped? : Char → Option Char
  | '"' => some '"'
  | '\\' => some '\\'
  | '/' => some '/'
  | 'b' => some '\x08'
  | 'f' => some '\x0c'
  | 'n' => some '\n'
  | 'r' => some '\r'
  | 't' => some '\t'
  | _ => none

/-- The value of a hexadecimal digit. -/
def hexValue? (c : Char) : Option Nat :=
  if c.isDigit then some (c.toNat - '0'.toNat)
  else if 'a' ≤ c ∧ c ≤ 'f' then some (c.toNat - 'a'.toNat + 10)
  else if 'A' ≤ c ∧ c ≤ 'F' then some (c.toNat - 'A'.toNat + 10)
  else none

/-- The value of the hexadecimal digits `ds`. -/
def hexNumber? (ds : List Char) : Option Nat :=
  ds.foldlM (fun n d => (hexValue? d).map (16 * n + ·)) 0

/-- Reads four hexadecimal digits. Four bytes are read whatever they are. -/
def codeUnit (c : Cursor) : Except Error (Nat × Cursor) :=
  match Position.skipBytes? 4 c.rest c.position with
  | none => .error (c.atEnd.here .endInString)
  | some p =>
    match hexNumber? (c.rest.take 4) with
    | some n => .ok (n, ⟨c.rest.drop 4, p⟩)
    | none => .error ⟨.invalidEscape, some p⟩

/-- The first half of a surrogate pair. -/
def isHighSurrogate (n : Nat) : Bool := 0xD800 ≤ n && n ≤ 0xDBFF

/-- The second half of a surrogate pair. -/
def isLowSurrogate (n : Nat) : Bool := 0xDC00 ≤ n && n ≤ 0xDFFF

/-- The character of a surrogate pair. -/
def pairedChar (high low : Nat) : Char :=
  Char.ofNat (0x10000 + (high - 0xD800) * 0x400 + (low - 0xDC00))

/-- Reads the escape of the second half of a surrogate pair. -/
def lowEscape (high : Nat) (c : Cursor) : Except Error (Char × Cursor) :=
  match c.rest with
  | [] => .error (c.here .endInString)
  | ['\\'] => .error (c.advance.here .endInString)
  | '\\' :: 'u' :: _ =>
    match codeUnit c.advance.advance with
    | .error e => .error e
    | .ok (low, d) =>
      if isLowSurrogate low then .ok (pairedChar high low, d) else .error (d.here .loneSurrogate)
  | '\\' :: _ => .error (c.advance.ahead .unpairedEscape)
  | _ => .error (c.ahead .unpairedEscape)

/-- Reads the digits of an escape, and a second escape if they are half of a pair. -/
def unicodeEscape (c : Cursor) : Except Error (Char × Cursor) :=
  match codeUnit c with
  | .error e => .error e
  | .ok (n, d) =>
    if isLowSurrogate n then .error (d.here .loneSurrogate)
    else if isHighSurrogate n then lowEscape n d
    else .ok (Char.ofNat n, d)

/-- Reads an escape; its backslash is read already. -/
def escape (c : Cursor) : Except Error (Char × Cursor) :=
  match c.rest with
  | [] => .error (c.here .endInString)
  | 'u' :: _ => unicodeEscape c.advance
  | x :: _ =>
    match escaped? x with
    | some y => .ok (y, c.advance)
    | none => .error (c.ahead .invalidEscape)

/-! ## An escape takes characters -/

theorem length_codeUnit_le {c d : Cursor} {n : Nat} (read : codeUnit c = .ok (n, d)) :
    d.rest.length ≤ c.rest.length := by
  unfold codeUnit at read
  split at read
  · cases read
  · split at read <;> cases read
    simp

theorem length_lowEscape_le {high : Nat} {c d : Cursor} {x : Char}
    (read : lowEscape high c = .ok (x, d)) : d.rest.length ≤ c.rest.length := by
  have first := length_advance_le c
  have second := length_advance_le c.advance
  unfold lowEscape at read
  split at read
  any_goals cases read
  split at read
  · cases read
  · rename_i digits
    have := length_codeUnit_le digits
    split at read
    · simp only [Except.ok.injEq, Prod.mk.injEq] at read
      rw [← read.2]
      omega
    · cases read

theorem length_unicodeEscape_le {c d : Cursor} {x : Char}
    (read : unicodeEscape c = .ok (x, d)) : d.rest.length ≤ c.rest.length := by
  unfold unicodeEscape at read
  split at read
  · cases read
  · rename_i digits
    have := length_codeUnit_le digits
    split at read
    · cases read
    · split at read
      · have := length_lowEscape_le read
        omega
      · simp only [Except.ok.injEq, Prod.mk.injEq] at read
        exact read.2 ▸ this

theorem length_escape_lt {c d : Cursor} {x : Char} (read : escape c = .ok (x, d)) :
    d.rest.length < c.rest.length := by
  unfold escape at read
  split at read
  · cases read
  · rename_i rest starts
    have := length_advance_lt (c := c) (by simp [starts])
    have := length_unicodeEscape_le read
    omega
  · rename_i y rest _ starts
    have := length_advance_lt (c := c) (by simp [starts])
    split at read <;> cases read
    assumption

/-! ## The string -/

/-- Reads up to the closing quote. The characters read before come in `read`, the last one first. -/
def stringFrom (read : List Char) (c : Cursor) : Except Error (String × Cursor) :=
  match starts : c.rest with
  | [] => .error (c.here .endInString)
  | '"' :: _ => .ok (String.ofList read.reverse, c.advance)
  | '\\' :: _ =>
    match taken : escape c.advance with
    | .error e => .error e
    | .ok (x, d) =>
      have := length_escape_lt taken
      have := length_advance_le c
      stringFrom (x :: read) d
  | x :: _ =>
    have := length_advance_lt (c := c) (by simp [starts])
    if x.toNat < 0x20 then .error (c.ahead .controlCharacter)
    else stringFrom (x :: read) c.advance
termination_by c.rest.length

/-- Reads a string; its opening quote is read already. -/
def stringBody (c : Cursor) : Except Error (String × Cursor) := stringFrom [] c

end CharClass.Json
