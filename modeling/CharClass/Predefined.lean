import CharClass.PointSet.Algebra

/-!
# Predefined classes

The classes that have a name. `Predefined.ofName?` reads a name or one of its usual spellings, and
`Predefined.set` is the class itself.
-/

namespace CharClass

inductive Predefined where
  /-- The whole domain. -/
  | any
  | nothing
  /-- ASCII letters and digits. -/
  | alnum
  /-- ASCII letters. -/
  | alpha
  | digit
  /-- Hexadecimal digits in either case. -/
  | xdigit
  | lower
  | upper
  /-- Space, tab, carriage return, line feed and form feed. -/
  | space
  | ascii
deriving DecidableEq

namespace Predefined

/-- The interval between two characters that ascend. -/
def span (c d : Char) : Interval := ⟨c.toNat, d.toNat⟩

def intervals : Predefined → List Interval
  | any => [⟨minPoint, maxPoint⟩]
  | nothing => []
  | alnum => [span 'a' 'z', span 'A' 'Z', span '0' '9']
  | alpha => [span 'a' 'z', span 'A' 'Z']
  | digit => [span '0' '9']
  | xdigit => [span '0' '9', span 'a' 'f', span 'A' 'F']
  | lower => [span 'a' 'z']
  | upper => [span 'A' 'Z']
  | space => [.single ' ', .single '\t', .single '\r', .single '\n', .single '\x0c']
  | ascii => [⟨minPoint, maxAscii⟩]

/-- The class as a set. -/
def set (p : Predefined) : PointSet := .ofList p.intervals

/-- The class with this name or spelling. -/
def ofName? : String → Option Predefined
  | "any" | "." => some any
  | "nothing" | "[]" => some nothing
  | "alnum" | "[a-zA-Z0-9]" | "[0-9a-zA-Z]" => some alnum
  | "alpha" | "[a-zA-Z]" | "[A-Za-z]" => some alpha
  | "digit" | "\\d" | "[0-9]" => some digit
  | "xdigit" | "[0-9a-fA-F]" | "[0-9A-Fa-f]" => some xdigit
  | "lower" | "[a-z]" => some lower
  | "upper" | "[A-Z]" => some upper
  | "space" | "whitespace" | "\\s" => some space
  | "ascii" => some ascii
  | _ => none

end Predefined

/-- The predefined set with this name. -/
def named (name : String) : Option PointSet := (Predefined.ofName? name).map Predefined.set

end CharClass
