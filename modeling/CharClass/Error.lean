import CharClass.Json.Error

/-!
# Errors

Building a set fails for one of two reasons: two points make no interval, or a JSON text or value
does not describe a set.
-/

namespace CharClass

inductive Error where
  | bounds (reason : BoundsError)
  | json (reason : Json.Error)
deriving DecidableEq

namespace Error

def message : Error → String
  | bounds reason => reason.message
  | json reason => "JSON error: " ++ reason.message

end Error

end CharClass
