import CharClass.Decimal.Binary64

/-!
# The shortest decimal of a double

Of the decimals that a double stands for, those nearer to it than to any other double, the text
shows one with the fewest digits, and among these the one nearest to the double (`shortest`). `text`
lays the digits out: with a decimal point while the first digit stands at most 15 places before it
or 5 behind it, and with an exponent otherwise.
-/

namespace CharClass

/-- The number `digits · 10 ^ exponent`. -/
structure Decimal where
  digits : Nat
  exponent : Int
deriving DecidableEq

namespace Decimal

/-- Compares `a · 10 ^ i` with `m · 2 ^ q`. -/
def compareScaled (a : Nat) (i : Int) (m : Nat) (q : Int) : Ordering :=
  compare ((a * Nat.pow 10 i.toNat) <<< (-q).toNat) ((m * Nat.pow 10 (-i).toNat) <<< q.toNat)

/-- `d` reads back as `x`: it lies between the midpoints to the next doubles, an end included if the
mantissa is even. Below a power of two the next double is half as far. -/
def readsBack (x : Binary64) (d : Decimal) : Bool :=
  let narrow := x.mantissa = Binary64.leadingBit ∧ Binary64.minExponent < x.exponent
  let low := if narrow then 4 * x.mantissa - 1 else 4 * x.mantissa - 2
  let high := 4 * x.mantissa + 2
  let even := x.mantissa % 2 = 0
  let toLow := compareScaled d.digits d.exponent low (x.exponent - 2)
  let toHigh := compareScaled d.digits d.exponent high (x.exponent - 2)
  (toLow == .gt || (even && toLow == .eq)) && (toHigh == .lt || (even && toHigh == .eq))

/-- The exponent of the first digit of the positive number `num / den`. -/
def leadExponent (num den : Nat) : Int :=
  if den ≤ num then ((Nat.toDigits 10 (num / den)).length : Int) - 1
  else
    let k := (Nat.toDigits 10 (den / num)).length
    if den ≤ num * Nat.pow 10 (k - 1) then 1 - (k : Int) else -(k : Int)

/-- Of the two decimals with the last digit at `10 ^ k` beside `x`, the one that reads back as `x`;
if both do, the nearer one, and of two at one distance the even one. -/
def atPlace? (x : Binary64) (k : Int) : Option Decimal :=
  let (num, den) := x.ratio
  let n := num * Nat.pow 10 (-k).toNat
  let d := den * Nat.pow 10 k.toNat
  let below : Decimal := ⟨n / d, k⟩
  let above : Decimal := ⟨n / d + 1, k⟩
  match readsBack x below, readsBack x above with
  | true, true => some ⟨Binary64.roundDiv n d, k⟩
  | true, false => some below
  | false, true => some above
  | false, false => none

/-- The shortest decimal that reads back as the positive number `x`. Seventeen digits are enough. -/
def shortest (x : Binary64) : Decimal :=
  let lead := leadExponent x.ratio.1 x.ratio.2
  let places := (List.range 17).map fun (n : Nat) => lead - n
  (places.findSome? (atPlace? x)).getD ⟨x.mantissa, 0⟩

/-- The digits without the zeros that end them. -/
def significant (n : Nat) : List Char :=
  ((Nat.toDigits 10 n).reverse.dropWhile (· == '0')).reverse

/-- The digits `ds`, of which the first stands at `10 ^ lead`, with a decimal point among them. -/
def positional (ds : List Char) (lead : Int) : List Char :=
  if lead < 0 then '0' :: '.' :: List.replicate (lead.natAbs - 1) '0' ++ ds
  else
    let whole := lead.natAbs + 1
    let fraction := ds.drop whole
    (ds.take whole).rightpad whole '0' ++ '.' :: (if fraction.isEmpty then ['0'] else fraction)

/-- The digits `ds`, of which the first stands at `10 ^ lead`, with an exponent, whose sign is
always written. -/
def scientific (ds : List Char) (lead : Int) : List Char :=
  let mark := if lead < 0 then ['e', '-'] else ['e', '+']
  let point := if ds.length ≤ 1 then [] else ['.']
  ds.take 1 ++ point ++ ds.drop 1 ++ mark ++ Nat.toDigits 10 lead.natAbs

end Decimal

namespace Binary64

/-- The shortest decimal text that reads back as `x`. -/
def text (x : Binary64) : List Char :=
  if x.mantissa = 0 then ['0', '.', '0']
  else
    let d := Decimal.shortest x
    let lead := d.exponent + (Nat.toDigits 10 d.digits).length - 1
    let ds := Decimal.significant d.digits
    if -5 ≤ lead ∧ lead ≤ 15 then Decimal.positional ds lead else Decimal.scientific ds lead

end Binary64

end CharClass
