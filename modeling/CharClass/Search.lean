import CharClass.Interval

/-!
# Searching a list of intervals

An array of intervals that ascends by first ends is searched by bisection. `insertionPoint` is the
slot at which an interval starting at a point would stand; a point inside an interval that starts
earlier lands one slot past it, so `found` looks at that slot and the one before it. Nothing else
is looked at: on arrays whose intervals overlap the answer is that of these two slots.
-/

namespace CharClass

/-- Narrows `lo ≤ slot ≤ hi` until one slot is left: an interval that starts below `p` stands before
the slot, every other one from the slot on. -/
def bisect (intervals : Array Interval) (p lo hi : Nat) (bound : hi ≤ intervals.size) : Nat :=
  if between : lo < hi then
    let mid := lo + (hi - lo) / 2
    if intervals[mid].first < p then bisect intervals p (mid + 1) hi bound
    else bisect intervals p lo mid (by omega)
  else lo
termination_by hi - lo

theorem bisect_le {intervals : Array Interval} {p lo hi : Nat} (bound : hi ≤ intervals.size)
    (le : lo ≤ hi) : bisect intervals p lo hi bound ≤ hi := by
  fun_induction bisect intervals p lo hi bound with
  | case1 lo hi bound between mid below ih => exact ih (by omega)
  | case2 lo hi bound between mid above ih => exact Nat.le_trans (ih (by omega)) (by omega)
  | case3 => exact le

/-- The first slot whose interval starts at `p` or above, or the size of the array. -/
def insertionPoint (intervals : Array Interval) (p : Nat) : Nat :=
  bisect intervals p 0 intervals.size (Nat.le_refl _)

theorem insertionPoint_le_size (intervals : Array Interval) (p : Nat) :
    insertionPoint intervals p ≤ intervals.size :=
  bisect_le (Nat.le_refl _) (Nat.zero_le _)

/-- The interval at `slot` or the one before it has the property `q`. -/
def nearby (intervals : Array Interval) (slot : Nat) (q : Interval → Bool) : Bool :=
  intervals[slot]?.any q || (slot != 0 && intervals[slot - 1]?.any q)

/-- `p` lies in one of the two intervals that bisection names. A lone interval is tested without a
search. -/
def found (intervals : Array Interval) (p : Nat) : Bool :=
  if intervals.size = 0 then false
  else if lone : intervals.size = 1 then intervals[0].includes p
  else nearby intervals (insertionPoint intervals p) (·.includes p)

end CharClass
