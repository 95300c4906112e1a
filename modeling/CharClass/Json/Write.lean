import CharClass.PointSet.Basic

/-!
# Writing sets and intervals as JSON text

An interval is the list of its two ends in decimal, a set is the list of its intervals. There are no
blanks.
-/

namespace CharClass

def Interval.toJson (i : Interval) : String :=
  "[" ++ Nat.repr i.first ++ "," ++ Nat.repr i.last ++ "]"

def PointSet.toJson (s : PointSet) : String :=
  "[" ++ ",".intercalate (s.intervals.toList.map Interval.toJson) ++ "]"

end CharClass
