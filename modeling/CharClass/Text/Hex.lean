/-!
# Hexadecimal text

Numbers in lower-case hexadecimal digits, the most significant first: as few as the number needs, or
filled up with zeros to a fixed width.
-/

namespace CharClass.Text

/-- The hexadecimal digits of `n`, without padding. -/
def hex (n : Nat) : String := String.ofList (Nat.toDigits 16 n)

/-- The hexadecimal digits of `n`, at least `width` of them. -/
def paddedHex (width n : Nat) : String :=
  String.ofList ((Nat.toDigits 16 n).leftpad width '0')

end CharClass.Text
