import CharClass.PointSet.Update

/-!
# Spec strings

A spec string lists the members of a class: characters stand for themselves, and `a-z` for all
characters from `a` to `z`. A hyphen is a literal only as the very last character, where the
character before it is one too, or as an end of a range; there are no escapes. `scan` splits any
text into items from left to right, `compile` turns the items into intervals in the order of the
text and refuses a descending range.
-/

namespace CharClass.Spec

/-- What a spec string is made of. -/
inductive Item where
  | literal (c : Char)
  | range (first last : Char)
deriving DecidableEq

namespace Item

/-- The characters of the item. -/
def render : Item → List Char
  | literal c => [c]
  | range c d => [c, '-', d]

/-- The interval that the item denotes. -/
def interval : Item → Except BoundsError Interval
  | literal c => .ok (.single c)
  | range c d => Interval.between c d

end Item

/-- The items of a text, and whether its last hyphen was read as a literal because it ends the
text. -/
structure Scan where
  items : List Item
  closingHyphen : Bool
deriving DecidableEq

/-- The scan of a text that starts with `item`. -/
def Scan.cons (item : Item) (s : Scan) : Scan := ⟨item :: s.items, s.closingHyphen⟩

/-- Reads the items from left to right. -/
def scan : List Char → Scan
  | [] => ⟨[], false⟩
  | [c, '-'] => ⟨[.literal c, .literal '-'], true⟩
  | c :: '-' :: d :: rest => (scan rest).cons (.range c d)
  | c :: rest => (scan rest).cons (.literal c)

/-- The items of a text make up the whole of it. -/
theorem flatMap_render_scan (cs : List Char) : (scan cs).items.flatMap Item.render = cs := by
  fun_induction scan cs with
  | case1 => rfl
  | case2 => rfl
  | case3 c d rest ih => simp [Scan.cons, Item.render, ih]
  | case4 c rest _ _ ih => simp [Scan.cons, Item.render, ih]

/-- The intervals of a spec string in the order of the text. The first descending range is named. -/
def compile (spec : String) : Except BoundsError (List Interval) :=
  (scan spec.toList).items.mapM Item.interval

end CharClass.Spec

namespace CharClass.PointSet

/-- The class that a spec string describes. -/
def ofSpec (spec : String) : Except BoundsError PointSet := (Spec.compile spec).map ofList

end CharClass.PointSet
