import CharClass.Point
import CharClass.Text.Hex

/-!
# Intervals of points

An `Interval` is a pair of inclusive ends. The ends are plain data: `Interval.Valid` says that they
ascend and stay in the domain, and `Interval.make` is the checked way to build one, which names the
reason (`BoundsError`) when the ends will not do. Two intervals are *mergeable* when the hull of
both is no wider than their widths added together, that is, when they overlap or touch.
-/

namespace CharClass

/-- Why two points are not the ends of an interval. -/
inductive BoundsError where
  /-- The first end lies above the last. Ends are never swapped. -/
  | descending (first last : Nat)
  /-- An end lies above the domain. -/
  | outsideDomain (point : Nat)
deriving DecidableEq

namespace BoundsError

def message : BoundsError → String
  | descending first last =>
    "descending ranges not supported: " ++ Nat.repr first ++ "-" ++ Nat.repr last
  | outsideDomain point =>
    "code point 0x" ++ Text.hex point ++ " is outside the domain 0x" ++ Text.hex minPoint ++
      "-0x" ++ Text.hex maxPoint

end BoundsError

/-- The points from `first` to `last`, both included. -/
structure Interval where
  first : Nat
  last : Nat
deriving DecidableEq

namespace Interval

/-- The ends ascend and lie in the domain. -/
def Valid (i : Interval) : Prop := i.first ≤ i.last ∧ i.last ≤ maxPoint

instance (i : Interval) : Decidable i.Valid := inferInstanceAs (Decidable (_ ∧ _))

/-- The interval with these ends. Their order is checked before the domain. -/
def make (first last : Nat) : Except BoundsError Interval :=
  if last < first then .error (.descending first last)
  else if maxPoint < last then .error (.outsideDomain last)
  else .ok ⟨first, last⟩

theorem make_eq_ok_iff {first last : Nat} {i : Interval} :
    make first last = .ok i ↔ i = ⟨first, last⟩ ∧ i.Valid := by
  have valid : (⟨first, last⟩ : Interval).Valid ↔ first ≤ last ∧ last ≤ maxPoint := Iff.rfl
  unfold make
  split
  · refine ⟨(nomatch ·), ?_⟩
    rintro ⟨rfl, h⟩
    have := valid.1 h
    omega
  · split
    · refine ⟨(nomatch ·), ?_⟩
      rintro ⟨rfl, h⟩
      have := valid.1 h
      omega
    · constructor
      · rintro ⟨⟩
        exact ⟨rfl, valid.2 (by omega)⟩
      · rintro ⟨rfl, _⟩
        rfl

/-- The interval between two characters. -/
def between (c d : Char) : Except BoundsError Interval := make c.toNat d.toNat

/-- The interval that holds one character. -/
def single (c : Char) : Interval := ⟨c.toNat, c.toNat⟩

/-- The number of points. -/
def width (i : Interval) : Nat := i.last - i.first + 1

/-- `p` lies between the ends. -/
def includes (i : Interval) (p : Nat) : Bool := decide (i.first ≤ p) && decide (p ≤ i.last)

@[simp] theorem includes_eq_true {i : Interval} {p : Nat} :
    i.includes p = true ↔ i.first ≤ p ∧ p ≤ i.last := by
  simp [includes]

/-- `j` lies between the ends of `i`. -/
def covers (i j : Interval) : Bool := decide (i.first ≤ j.first) && decide (j.last ≤ i.last)

@[simp] theorem covers_eq_true {i j : Interval} :
    i.covers j = true ↔ i.first ≤ j.first ∧ j.last ≤ i.last := by
  simp [covers]

/-- The least interval that covers both. Points between them that neither includes are swallowed. -/
def hull (i j : Interval) : Interval := ⟨min i.first j.first, max i.last j.last⟩

/-- One interval can stand for both: their hull is no wider than their widths together. -/
def mergeable (i j : Interval) : Bool := decide ((i.hull j).width ≤ i.width + j.width)

/-- The points in ascending order. -/
def points (i : Interval) : List Nat := List.range' i.first (i.last + 1 - i.first)

@[simp] theorem mem_points {i : Interval} {p : Nat} : p ∈ i.points ↔ i.includes p = true := by
  simp only [points, List.mem_range'_1, includes_eq_true]
  omega

/-- The characters among the points, in ascending order. -/
def chars (i : Interval) : List Char := i.points.filterMap scalar?

/-- Both ends in decimal, joined by a hyphen. -/
def text (i : Interval) : String := Nat.repr i.first ++ "-" ++ Nat.repr i.last

end Interval

end CharClass
