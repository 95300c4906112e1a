import CharClass.Spec
import CharClass.Text.Quoted

/-!
# The trace of reading a spec string

What happens while a spec string is read, as data: either the text is rejected, or a hyphen at its
end is read as a literal, if there is one, and then the text is compiled. `Event.line` is the
written form.
-/

namespace CharClass.Spec

inductive Event where
  /-- The text holds a descending range. -/
  | rejected (spec : String) (reason : BoundsError)
  /-- The hyphen that ends the text is read as a literal. -/
  | closingHyphen (spec : String)
  /-- The text describes `set`. -/
  | compiled (spec : String) (set : PointSet)
deriving DecidableEq

namespace Event

/-- The level at which every event is reported. -/
def level : String := "DEBUG"

/-- What happened in words, with spec strings as `quote` writes them. -/
def message (quote : String → String) : Event → String
  | rejected spec reason => "rejecting spec " ++ quote spec ++ ": " ++ reason.message
  | closingHyphen spec => "spec " ++ quote spec ++ " ends in '-', treating it as a literal"
  | compiled spec set =>
    "compiled spec " ++ quote spec ++ " into " ++ Nat.repr set.intervalCount ++
      " range(s): " ++ set.text

/-- The level and the message with quoted texts, one space between them. -/
def line (e : Event) : String := level ++ " " ++ e.message Text.quoted

end Event

/-- The events of reading `spec`, in order. -/
def trace (spec : String) : List Event :=
  match PointSet.ofSpec spec with
  | .error reason => [.rejected spec reason]
  | .ok set =>
    if (scan spec.toList).closingHyphen then [.closingHyphen spec, .compiled spec set]
    else [.compiled spec set]

end CharClass.Spec
