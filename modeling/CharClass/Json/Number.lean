import CharClass.Decimal.Shortest

/-!
# JSON numbers

A number without fraction and exponent is an integer as long as it fits 64 bits, with a sign or
without; every other number is a double, `-0` among them. The kind is kept, because a point is never
a double.
-/

namespace CharClass.Json

inductive Number where
  | integer (n : Int)
  /-- The double `x`, or `-x` if `negative`. -/
  | real (negative : Bool) (x : Binary64)
deriving DecidableEq

namespace Number

/-- The greatest significand that is kept while digits are read, one less than `2 ^ 64`. -/
def maxSignificand : Nat := 0xFFFFFFFFFFFFFFFF

/-- The least integer with a sign is the negation of this, `2 ^ 63`. -/
def maxNegated : Nat := 0x8000000000000000

/-- The greatest exponent that is read as a number, one less than `2 ^ 31`. -/
def maxExponent : Nat := 0x7FFFFFFF

/-- The integer with the digits `n`, unless it does not fit or is `-0`. -/
def ofDigits? (negative : Bool) (n : Nat) : Option Number :=
  if negative then
    if n = 0 ∨ maxNegated < n then none else some (integer (-n))
  else some (integer n)

/-- What the number is called in a message. -/
def describe : Number → String
  | integer n => "integer \x60" ++ Int.repr n ++ "\x60"
  | real negative x =>
    let sign := if negative then "-" else ""
    "floating point \x60" ++ sign ++ String.ofList x.text ++ "\x60"

end Number

end CharClass.Json
