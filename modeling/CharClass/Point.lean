/-!
# Code points

The domain of the library: the code points `0` to `0x10FFFF`. A point is a natural number, so that
membership can also be asked of numbers above the domain, which belong to no class. Surrogates are
points of the domain, although no character has their number.
-/

namespace CharClass

/-- The least point of the domain. -/
def minPoint : Nat := 0

/-- The greatest point of the domain. -/
def maxPoint : Nat := 0x10FFFF

/-- The greatest ASCII point, and the last one the bitmap of a class answers for. -/
def maxAscii : Nat := 0x7F

/-- The character numbered `p`. Surrogates and points above the domain number none. -/
def scalar? (p : Nat) : Option Char :=
  if h : p.isValidChar then some (Char.ofNatAux p h) else none

end CharClass
