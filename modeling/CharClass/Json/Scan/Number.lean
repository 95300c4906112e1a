import CharClass.Json.Cursor

/-!
# Reading a JSON number

A number is read digit by digit into a significand of 64 bits (`fill`): an integer digit that does
not fit only raises the exponent, and a fraction stops counting at the first digit that does not
fit. Each function returns what it read with the cursor behind it; `number` reads at least one
character (`length_number_lt`).
-/

namespace CharClass.Json

/-! ## Digits -/

/-- The value of a decimal digit. -/
def digitValue (c : Char) : Nat := c.toNat - '0'.toNat

/-- The value of a run of digits. -/
def digitsValue (ds : List Char) : Nat := Nat.ofDigitChars 10 ds 0

/-- Appends digits to the significand `n` while it fits, and returns those that are left. -/
def fill (n : Nat) : List Char → Nat × List Char
  | [] => (n, [])
  | d :: ds =>
    if 10 * n + digitValue d ≤ Number.maxSignificand then fill (10 * n + digitValue d) ds
    else (n, d :: ds)

/-- The fewest digits of `ds`, from the left, whose value is above the greatest exponent. -/
def overflowing (ds : List Char) : Nat :=
  ((List.range (ds.length + 1)).find? fun k =>
    decide (Number.maxExponent < digitsValue (ds.take k))).getD ds.length

/-! ## The parts of a number -/

/-- The number with the significand `n` and the decimal exponent `e`; the cursor is behind it. -/
def finishReal (negative : Bool) (n : Nat) (e : Int) (c : Cursor) :
    Except Error (Number × Cursor) :=
  match (Binary64.ofNat? n).bind (·.shift? e) with
  | some x => .ok (.real negative x, c)
  | none => .error (c.here .numberTooLarge)

/-- Reads the digits of an exponent, which lowers `e` if `down` and raises it otherwise. One that is
too large by itself is an error behind the digit that makes it so. -/
def exponentDigits (negative down : Bool) (n : Nat) (e : Int) (c : Cursor) :
    Except Error (Number × Cursor) :=
  if c.rest.isEmpty then .error (c.here .endInValue)
  else if c.digits.isEmpty then .error (c.ahead .invalidNumber)
  else if down then finishReal negative n (e - digitsValue c.digits) c.skipDigits
  else if Number.maxExponent < digitsValue c.digits ∧ n ≠ 0 then
    .error ⟨.numberTooLarge,
      some ⟨c.position.line, c.position.column + overflowing c.digits⟩⟩
  else finishReal negative n (e + digitsValue c.digits) c.skipDigits

/-- Reads an exponent; the cursor is behind its mark. -/
def exponent (negative : Bool) (n : Nat) (e : Int) (c : Cursor) : Except Error (Number × Cursor) :=
  match c.rest with
  | '+' :: _ => exponentDigits negative false n e c.advance
  | '-' :: _ => exponentDigits negative true n e c.advance
  | _ => exponentDigits negative false n e c

/-- Reads an exponent, if one follows. -/
def afterFraction (negative : Bool) (n : Nat) (e : Int) (c : Cursor) :
    Except Error (Number × Cursor) :=
  match c.rest with
  | 'e' :: _ | 'E' :: _ => exponent negative n e c.advance
  | _ => finishReal negative n e c

/-- Reads a fraction; the cursor is behind its point. Each digit that fits the significand lowers
`e`. -/
def fraction (negative : Bool) (n : Nat) (e : Int) (c : Cursor) : Except Error (Number × Cursor) :=
  if c.rest.isEmpty then .error (c.ahead .endInValue)
  else if c.digits.isEmpty then .error (c.ahead .invalidNumber)
  else
    let filled := fill n c.digits
    afterFraction negative filled.1 (e - (c.digits.length - filled.2.length : Nat)) c.skipDigits

/-- Reads what follows the integer digits `ds`, behind which the cursor is. -/
def afterInteger (negative : Bool) (ds : List Char) (c : Cursor) : Except Error (Number × Cursor) :=
  let filled := fill 0 ds
  match c.rest with
  | '.' :: _ => fraction negative filled.1 filled.2.length c.advance
  | 'e' :: _ | 'E' :: _ => exponent negative filled.1 filled.2.length c.advance
  | _ =>
    match (if filled.2.isEmpty then Number.ofDigits? negative filled.1 else none) with
    | some number => .ok (number, c)
    | none => finishReal negative filled.1 filled.2.length c

/-- Reads a number; its sign is read already. No digit follows a zero. -/
def unsigned (negative : Bool) (c : Cursor) : Except Error (Number × Cursor) :=
  match c.rest with
  | [] => .error (c.here .endInValue)
  | '0' :: _ =>
    if c.advance.digits.isEmpty then afterInteger negative ['0'] c.advance
    else .error (c.advance.ahead .invalidNumber)
  | _ :: _ =>
    if c.digits.isEmpty then .error (c.ahead .invalidNumber)
    else afterInteger negative c.digits c.skipDigits

/-- Whether a number starts with `c`. -/
def startsNumber (c : Char) : Bool := c == '-' || c.isDigit

/-- Reads a number. -/
def number (c : Cursor) : Except Error (Number × Cursor) :=
  match c.rest with
  | '-' :: _ => unsigned true c.advance
  | _ => unsigned false c

/-! ## A number takes characters -/

open Cursor

theorem length_skipDigits_lt {c : Cursor} (digits : c.digits.isEmpty = false) :
    c.skipDigits.rest.length < c.rest.length := by
  have split : c.digits ++ c.skipDigits.rest = c.rest := List.takeWhile_append_dropWhile
  have := congrArg List.length split
  rw [List.length_append] at this
  have : c.digits.length ≠ 0 := by
    intro zero
    rw [List.length_eq_zero_iff.1 zero] at digits
    cases digits
  omega

theorem eq_of_finishReal {negative : Bool} {n : Nat} {e : Int} {c d : Cursor} {x : Number}
    (read : finishReal negative n e c = .ok (x, d)) : d = c := by
  unfold finishReal at read
  split at read <;> cases read
  rfl

theorem length_exponentDigits_le {negative down : Bool} {n : Nat} {e : Int} {c d : Cursor}
    {x : Number} (read : exponentDigits negative down n e c = .ok (x, d)) :
    d.rest.length ≤ c.rest.length := by
  unfold exponentDigits at read
  repeat' split at read
  all_goals first | cases read | skip
  all_goals
    rw [eq_of_finishReal read]
    exact length_skipWhile_le ..

theorem length_exponent_le {negative : Bool} {n : Nat} {e : Int} {c d : Cursor} {x : Number}
    (read : exponent negative n e c = .ok (x, d)) : d.rest.length ≤ c.rest.length := by
  have step := length_advance_le c
  unfold exponent at read
  split at read <;> have := length_exponentDigits_le read <;> omega

theorem length_afterFraction_le {negative : Bool} {n : Nat} {e : Int} {c d : Cursor} {x : Number}
    (read : afterFraction negative n e c = .ok (x, d)) : d.rest.length ≤ c.rest.length := by
  have step := length_advance_le c
  unfold afterFraction at read
  split at read
  · have := length_exponent_le read
    omega
  · have := length_exponent_le read
    omega
  · obtain rfl := eq_of_finishReal read
    exact Nat.le_refl _

theorem length_fraction_le {negative : Bool} {n : Nat} {e : Int} {c d : Cursor} {x : Number}
    (read : fraction negative n e c = .ok (x, d)) : d.rest.length ≤ c.rest.length := by
  unfold fraction at read
  split at read
  · cases read
  · split at read
    · cases read
    · exact Nat.le_trans (length_afterFraction_le read) (length_skipWhile_le ..)

theorem length_afterInteger_le {negative : Bool} {ds : List Char} {c d : Cursor} {x : Number}
    (read : afterInteger negative ds c = .ok (x, d)) : d.rest.length ≤ c.rest.length := by
  have step := length_advance_le c
  unfold afterInteger at read
  dsimp only at read
  split at read
  · have := length_fraction_le read
    omega
  · have := length_exponent_le read
    omega
  · have := length_exponent_le read
    omega
  · split at read
    · cases read
      exact Nat.le_refl _
    · obtain rfl := eq_of_finishReal read
      exact Nat.le_refl _

theorem length_unsigned_lt {negative : Bool} {c d : Cursor} {x : Number}
    (read : unsigned negative c = .ok (x, d)) : d.rest.length < c.rest.length := by
  unfold unsigned at read
  split at read
  · cases read
  · rename_i rest starts
    split at read
    · have := length_advance_lt (c := c) (by simp [starts])
      have := length_afterInteger_le read
      omega
    · cases read
  · split at read
    · cases read
    · rename_i digits
      have := length_skipDigits_lt (by simpa using digits)
      have := length_afterInteger_le read
      omega

theorem length_number_lt {c d : Cursor} {x : Number} (read : number c = .ok (x, d)) :
    d.rest.length < c.rest.length := by
  have step := length_advance_le c
  unfold number at read
  split at read <;> have := length_unsigned_lt read <;> omega

end CharClass.Json
