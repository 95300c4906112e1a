import CharClass.Spec.Trace

/-!
# Reading a spec string with a log

The reading of a spec string once more, with its events reported where they happen: by index, one
turn for each item. A turn looks at the character of its index and at the two behind it. A
descending range and a hyphen that ends the text are reported on the spot, and either one is the
last turn; the set is reported when it is collected. `trace` tells the events from the outcome and
from a scan of the whole text instead. Nothing runs these definitions in its place; they say where
in the reading each event belongs.
-/

namespace CharClass.Spec

/-- A computation that reports events on the way and may be refused. -/
abbrev Reporting (α : Type) : Type := ExceptT BoundsError (StateM (List Event)) α

def report (e : Event) : Reporting Unit := modify (· ++ [e])

/-- The turns from the character `i` on, with `made` the intervals of the turns before. -/
def turns (spec : String) (cs : List Char) (i : Nat) (made : List Interval) :
    Reporting (List Interval) :=
  if _inside : i < cs.length then
    if cs[i + 1]? = some '-' then
      match cs[i + 2]? with
      | some d =>
        match Interval.between cs[i] d with
        | .ok r => turns spec cs (i + 3) (made ++ [r])
        | .error reason => do
          report (.rejected spec reason)
          throw reason
      | none => do
        report (.closingHyphen spec)
        return made ++ [.single cs[i], .single '-']
    else turns spec cs (i + 1) (made ++ [.single cs[i]])
  else return made
termination_by cs.length - i

def read (spec : String) : Reporting PointSet := do
  let is ← turns spec spec.toList 0 []
  let set := PointSet.ofList is
  report (.compiled spec set)
  return set

/-- The outcome of reading `spec`, and all that is reported, in order. -/
def logged (spec : String) : Except BoundsError PointSet × List Event := (read spec).run.run []

end CharClass.Spec
