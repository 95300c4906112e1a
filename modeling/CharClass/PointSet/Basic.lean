import CharClass.Ascii

/-!
# Sets of points

A `PointSet` is a list of intervals with the bitmap of its ASCII members. The two fields are plain
data; `WellFormed` says when they represent a set: every interval is valid, at least one point that
is no member lies between any two of them, and the bitmap answers as the intervals do. `check`
decides it by looking at neighbours only. A set of points has just one well-formed representation,
so equality of representations is equality of sets.
-/

namespace CharClass

/-- A set of points as its maximal intervals in ascending order, and its ASCII members as bits. -/
structure PointSet where
  intervals : Array Interval
  ascii : AsciiMap
deriving DecidableEq

namespace PointSet

/-- The representation whose bitmap is computed from `intervals`. -/
def ofIntervals (intervals : Array Interval) : PointSet := ⟨intervals, .ofIntervals intervals⟩

/-- The set without members. -/
def empty : PointSet := ⟨#[], .empty⟩

/-- The set that holds one interval. -/
def ofInterval (i : Interval) : PointSet := ofIntervals #[i]

/-- The set that holds one character. -/
def ofChar (c : Char) : PointSet := ofInterval (.single c)

/-! ## Membership -/

/-- Whether `p` is a member: one bit for ASCII points, a search for all others. -/
def contains (s : PointSet) (p : Nat) : Bool :=
  if p ≤ maxAscii then s.ascii.get p else found s.intervals p

/-- Whether the character `c` is a member. -/
def containsChar (s : PointSet) (c : Char) : Bool := s.contains c.toNat

/-! ## Views -/

def isEmpty (s : PointSet) : Bool := s.intervals.isEmpty

/-- The number of members. -/
def size (s : PointSet) : Nat := s.intervals.toList.foldr (·.width + ·) 0

/-- The number of intervals. -/
def intervalCount (s : PointSet) : Nat := s.intervals.size

/-- The members that are characters, in ascending order; surrogates are passed over. -/
def chars (s : PointSet) : List Char := s.intervals.toList.flatMap Interval.chars

/-- The intervals in decimal, one space between two. It is a text to look at, and no spec string. -/
def text (s : PointSet) : String := " ".intercalate (s.intervals.toList.map Interval.text)

/-! ## Representation -/

/-- `i` ends below `j` and at least one point lies between them. -/
def Separated (i j : Interval) : Prop := i.last + 1 < j.first

instance (i j : Interval) : Decidable (Separated i j) := inferInstanceAs (Decidable (_ < _))

/-- The fields represent a set of points. -/
structure WellFormed (s : PointSet) : Prop where
  valid : ∀ i ∈ s.intervals.toList, i.Valid
  separated : s.intervals.toList.Pairwise Separated
  cached : ∀ p ≤ maxAscii, s.ascii.get p = s.intervals.toList.any (·.includes p)

/-- Every interval is separated from the next one. -/
def neighboursSeparated : List Interval → Bool
  | i :: j :: rest => decide (Separated i j) && neighboursSeparated (j :: rest)
  | _ => true

/-- Tests the representation: each interval, each two neighbours, each bit against a search. -/
def check (s : PointSet) : Bool :=
  s.intervals.all (fun i => decide i.Valid) && neighboursSeparated s.intervals.toList &&
    (List.range 128).all fun p => s.ascii.get p == found s.intervals p

end PointSet

end CharClass
