/-!
# Doubles as exact numbers

A finite double without its sign is a natural number times a power of two. The operations round as
the hardware does, to the nearest double and a tie to the even one, but they are plain arithmetic on
natural numbers. `shift?` moves a number by powers of ten in the steps in which a decimal is read,
with one rounding a step, so its result can differ in the last bit from that of rounding once.
-/

namespace CharClass

/-- The number `mantissa · 2 ^ exponent`. -/
structure Binary64 where
  mantissa : Nat
  exponent : Int
deriving DecidableEq

namespace Binary64

/-- The exponent of the least positive double. -/
def minExponent : Int := -1074

/-- The exponent of the greatest finite double. -/
def maxExponent : Int := 971

/-- The least mantissa of 53 bits, `2 ^ 52`. -/
def leadingBit : Nat := 0x10000000000000

def zero : Binary64 := ⟨0, minExponent⟩

/-- `num / den` rounded to a whole number, a tie to the even one. -/
def roundDiv (num den : Nat) : Nat :=
  let q := num / den
  let twice := 2 * (num % den)
  if twice < den then q else if den < twice then q + 1 else q + q % 2

/-- `num / den · 2 ^ (-e)` as a fraction. -/
def scaled (num den : Nat) (e : Int) : Nat × Nat := (num <<< (-e).toNat, den <<< e.toNat)

/-- The double nearest to `num / den`, or none if that is above all finite doubles. The exponent is
the one that leaves 53 bits, as far as it may fall. -/
def ofRatio? (num den : Nat) : Option Binary64 :=
  if num = 0 then some zero
  else
    let low := max ((num.log2 : Int) - den.log2 - 53) minExponent
    let (n, d) := scaled num den low
    let e := if n / d < 2 * leadingBit then low else low + 1
    let (n, d) := scaled num den e
    let m := roundDiv n d
    let x : Binary64 := if m < 2 * leadingBit then ⟨m, e⟩ else ⟨leadingBit, e + 1⟩
    if maxExponent < x.exponent then none else some x

/-- The double nearest to `n`. -/
def ofNat? (n : Nat) : Option Binary64 := ofRatio? n 1

/-- The number as a fraction. -/
def ratio (x : Binary64) : Nat × Nat := scaled x.mantissa 1 (-x.exponent)

/-- The greatest power of ten that is a finite double. -/
def maxTenPower : Nat := 308

/-- The double nearest to `10 ^ k`. -/
def tenPower (k : Nat) : Binary64 := (ofNat? (Nat.pow 10 k)).getD zero

def mul? (x y : Binary64) : Option Binary64 :=
  ofRatio? (x.ratio.1 * y.ratio.1) (x.ratio.2 * y.ratio.2)

def div? (x y : Binary64) : Option Binary64 :=
  ofRatio? (x.ratio.1 * y.ratio.2) (x.ratio.2 * y.ratio.1)

/-- `x · 10 ^ e`, or none if it is too large. A power of ten that is no double is reached by
dividing by the greatest one first. -/
def shift? (x : Binary64) (e : Int) : Option Binary64 :=
  if e.natAbs ≤ maxTenPower then
    if 0 ≤ e then x.mul? (tenPower e.natAbs) else x.div? (tenPower e.natAbs)
  else if x.mantissa = 0 then some x
  else if 0 ≤ e then none
  else (x.div? (tenPower maxTenPower)).bind fun y => shift? y (e + maxTenPower)
termination_by e.natAbs
decreasing_by
  simp only [maxTenPower] at *
  omega

end Binary64

end CharClass
