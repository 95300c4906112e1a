import CharClass.Search

/-!
# The ASCII bitmap

One bit for each of the points `0` to `127`. A class keeps the bitmap of its intervals beside them
and answers for ASCII points by one bit. The bitmap is a function of the intervals: it is always
computed by searching them (`ofIntervals`), never from an older bitmap.
-/

namespace CharClass

/-- A set of ASCII points; bit `p` is set when `p` is a member. -/
structure AsciiMap where
  bits : BitVec 128
deriving DecidableEq

namespace AsciiMap

/-- No member. -/
def empty : AsciiMap := ⟨0#128⟩

/-- The ASCII points with the property `q`. -/
def ofPred (q : Nat → Bool) : AsciiMap :=
  ⟨(BitVec.ofBoolListLE ((List.range 128).map q)).setWidth 128⟩

/-- The ASCII points that are found in `intervals`. -/
def ofIntervals (intervals : Array Interval) : AsciiMap := ofPred (found intervals)

/-- Whether bit `p` is set. No point above `127` has a bit. -/
def get (m : AsciiMap) (p : Nat) : Bool := decide (p ≤ maxAscii) && m.bits.getLsbD p

/-- Bit by bit, the map of the points with the property `q` is `q`. -/
@[simp] theorem get_ofPred (q : Nat → Bool) (p : Nat) :
    (ofPred q).get p = (decide (p ≤ maxAscii) && q p) := by
  unfold get ofPred
  by_cases h : p ≤ maxAscii
  · have : p < 128 := Nat.lt_succ_of_le h
    simp only [h, decide_true, Bool.true_and, BitVec.getLsbD_setWidth, BitVec.getLsbD_ofBoolListLE]
    simp [this, List.getD]
  · simp [h]

/-- The number of members. -/
def count (m : AsciiMap) : Nat := (List.range 128).countP m.get

def isEmpty (m : AsciiMap) : Bool := m.bits == 0#128

/-- The bits as one number in 32 hexadecimal digits, most significant first. -/
def hex (m : AsciiMap) : String := Text.paddedHex 32 m.bits.toNat

end AsciiMap

end CharClass
