import CharClass.PointSet.Basic

/-!
# Inserting and removing intervals

Both operations split the intervals at the slot of the new interval's first point and mend the list
around that slot. Insertion returns the set as it is when the interval at the slot or the one before
it covers the new one; else it merges the new interval with the one before the slot, if the two are
mergeable, and goes on merging forward (`absorb`). Removal cuts the interval before the slot
(`cutBefore`) and the ones behind it (`cutAfter`). The bitmap is computed anew from the result.
-/

namespace CharClass.PointSet

/-! ## Insertion -/

/-- Grows `i` by the intervals that follow it for as long as they are mergeable with it. -/
def absorb (i : Interval) : List Interval → List Interval
  | [] => [i]
  | j :: rest => if i.mergeable j then absorb (i.hull j) rest else i :: j :: rest

/-- The intervals around a slot with `i` joined in between. -/
def join (before : List Interval) (i : Interval) (after : List Interval) : List Interval :=
  match before.getLast? with
  | none => absorb i after
  | some j =>
    if j.mergeable i then before.dropLast ++ absorb (j.hull i) after else before ++ absorb i after

/-- The set with every point of `i` added. -/
def insert (s : PointSet) (i : Interval) : PointSet :=
  let slot := insertionPoint s.intervals i.first
  if nearby s.intervals slot (·.covers i) then s
  else ofIntervals (join (s.intervals.toList.take slot) i (s.intervals.toList.drop slot)).toArray

/-- The set with the points of all `is` added, one interval after the other. -/
def insertAll (s : PointSet) (is : List Interval) : PointSet := is.foldl insert s

/-- The set of the points of all `is`. -/
def ofList (is : List Interval) : PointSet := empty.insertAll is

/-- The set of the characters `cs`. -/
def ofChars (cs : List Char) : PointSet := ofList (cs.map .single)

/-! ## Removal -/

/-- What is left of intervals that start inside or behind `i`: those it covers go, and the next one
loses its front if it holds the last point of `i`. -/
def cutAfter (i : Interval) (after : List Interval) : List Interval :=
  match after.dropWhile i.covers with
  | [] => []
  | j :: rest => if j.includes i.last then ⟨i.last + 1, j.last⟩ :: rest else j :: rest

/-- The intervals around a slot with the points of `i` cut out. The interval before the slot starts
below `i`; if it reaches beyond `i` it is split, and nothing behind it is touched. -/
def cut (before : List Interval) (i : Interval) (after : List Interval) : List Interval :=
  match before.getLast? with
  | none => cutAfter i after
  | some j =>
    if j.includes i.first then
      if i.last < j.last then
        before.dropLast ++ ⟨j.first, i.first - 1⟩ :: ⟨i.last + 1, j.last⟩ :: after
      else before.dropLast ++ ⟨j.first, i.first - 1⟩ :: cutAfter i after
    else before ++ cutAfter i after

/-- The set with every point of `i` taken away. -/
def remove (s : PointSet) (i : Interval) : PointSet :=
  if s.isEmpty then s
  else
    let slot := insertionPoint s.intervals i.first
    ofIntervals (cut (s.intervals.toList.take slot) i (s.intervals.toList.drop slot)).toArray

/-- The set with the points of all `is` taken away, one interval after the other. -/
def removeAll (s : PointSet) (is : List Interval) : PointSet := is.foldl remove s

end CharClass.PointSet
