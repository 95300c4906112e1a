import CharClass.PointSet.Update

/-!
# Set algebra

Union inserts the intervals of the right operand into the left one, difference removes them. The
other operations are built of these two: `!a = everything - a`, `a & b = a - !b`, and
`a ^ b = (a - b) | (b - a)`.
-/

namespace CharClass.PointSet

/-- Every point of the domain. -/
def everything : PointSet := ofList [⟨minPoint, maxPoint⟩]

/-- The members of `a` or of `b`. -/
def union (a b : PointSet) : PointSet := a.insertAll b.intervals.toList

/-- The members of `a` that are not in `b`. -/
def difference (a b : PointSet) : PointSet := a.removeAll b.intervals.toList

/-- The points of the domain that are not in `a`. -/
def complement (a : PointSet) : PointSet := everything.difference a

/-- The members of both `a` and `b`. -/
def intersection (a b : PointSet) : PointSet := a.difference b.complement

/-- The members of just one of `a` and `b`. -/
def symmetricDifference (a b : PointSet) : PointSet :=
  (a.difference b).union (b.difference a)

end CharClass.PointSet
