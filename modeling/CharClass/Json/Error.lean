import CharClass.Interval
import CharClass.Json.Number
import CharClass.Text.Quoted

/-!
# What can be wrong with a JSON text

An error is a cause and, as a rule, the position at which reading stopped. Columns count bytes, and
the first column of a line is the one behind its first byte.
-/

namespace CharClass.Json

/-- A place between two bytes of a text. -/
structure Position where
  /-- One more than the line feeds before the place. -/
  line : Nat
  /-- The bytes between the last line feed and the place. -/
  column : Nat
deriving DecidableEq

/-- What a JSON value looks like from outside. -/
inductive Shape where
  | null
  | boolean (b : Bool)
  | number (n : Number)
  | text (s : String)
  | list
  | object
deriving DecidableEq

namespace Shape

def describe : Shape → String
  | null => "null"
  | boolean b => "boolean \x60" ++ (if b then "true" else "false") ++ "\x60"
  | number n => n.describe
  | text s => "string " ++ Text.quoted s
  | list => "sequence"
  | object => "map"

end Shape

/-- What a value is read as. -/
inductive Target where
  /-- A set: a list of intervals. -/
  | set
  /-- An interval: a list of its two ends. -/
  | interval
  /-- An end: an integer from `0` to `2 ^ 32 - 1`. -/
  | point
deriving DecidableEq

namespace Target

def describe : Target → String
  | set => "a sequence"
  | interval => "a tuple of size 2"
  | point => "u32"

end Target

inductive Cause where
  /-- The text ends where a value is due. -/
  | endInValue
  | endInList
  | endInString
  | expectedValue
  /-- A word that starts as `null`, `true` or `false` goes on otherwise. -/
  | expectedWord
  | expectedComma
  | trailingComma
  /-- Something stands behind a value that is complete. -/
  | trailingText
  | invalidNumber
  /-- A number is above all doubles. -/
  | numberTooLarge
  | invalidEscape
  /-- An escape names half of a surrogate pair. -/
  | loneSurrogate
  /-- No escape follows the first half of a surrogate pair. -/
  | unpairedEscape
  | controlCharacter
  | wrongType (found : Shape) (target : Target)
  /-- An integer is no end of an interval. -/
  | wrongInteger (n : Int)
  /-- A list of `n` values is too short for an interval. -/
  | tooShort (n : Nat)
  /-- A list of `n` values is too long for an interval. -/
  | tooLong (n : Nat)
  /-- Two ends make no interval. -/
  | bounds (reason : BoundsError)
deriving DecidableEq

namespace Cause

def message : Cause → String
  | endInValue => "EOF while parsing a value"
  | endInList => "EOF while parsing a list"
  | endInString => "EOF while parsing a string"
  | expectedValue => "expected value"
  | expectedWord => "expected ident"
  | expectedComma => "expected \x60,\x60 or \x60]\x60"
  | trailingComma => "trailing comma"
  | trailingText => "trailing characters"
  | invalidNumber => "invalid number"
  | numberTooLarge => "number out of range"
  | invalidEscape => "invalid escape"
  | loneSurrogate => "lone leading surrogate in hex escape"
  | unpairedEscape => "unexpected end of hex escape"
  | controlCharacter => "control character (\\u0000-\\u001F) found while parsing a string"
  | wrongType found target =>
    "invalid type: " ++ found.describe ++ ", expected " ++ target.describe
  | wrongInteger n =>
    "invalid value: " ++ (Number.integer n).describe ++ ", expected " ++ Target.point.describe
  | tooShort n =>
    "invalid length " ++ Nat.repr n ++ ", expected " ++ Target.interval.describe
  | tooLong n => "invalid length " ++ Nat.repr n ++ ", expected fewer elements in array"
  | bounds reason => reason.message

end Cause

structure Error where
  cause : Cause
  /-- None if the value was not read from a text, or its end was not reached. -/
  position : Option Position
deriving DecidableEq

namespace Error

def message (e : Error) : String :=
  match e.position with
  | none => e.cause.message
  | some p =>
    e.cause.message ++ " at line " ++ Nat.repr p.line ++ " column " ++ Nat.repr p.column

end Error

end CharClass.Json
