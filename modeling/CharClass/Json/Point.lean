import CharClass.Json.Error

/-!
# Numbers as points

The ends of an interval are written as integers of 32 bits. Whether they lie in the domain is not
asked here, but when the interval is made of them.
-/

namespace CharClass.Json.Number

/-- The greatest integer that is read as a point, one less than `2 ^ 32`. -/
def maxWord : Nat := 0xFFFFFFFF

/-- The point that a number stands for. -/
def point : Number → Except Cause Nat
  | integer v => if 0 ≤ v ∧ v ≤ maxWord then .ok v.toNat else .error (.wrongInteger v)
  | n => .error (.wrongType (.number n) .point)

end CharClass.Json.Number
