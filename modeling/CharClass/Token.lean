import CharClass.Predefined

/-!
# A scanner built on classes

Splits a text into identifiers, numbers, runs of space and single marks of punctuation. The first
character of a token settles its kind (`Token.Kind.of`), and the token goes on for as long as the
characters belong to the class that continues this kind (`Token.Kind.continues`). The tokens
together are the text.
-/

namespace CharClass

inductive Token.Kind where
  | identifier
  | number
  | space
  /-- One character that starts no other kind. -/
  | punctuation
deriving DecidableEq

structure Token where
  kind : Token.Kind
  lexeme : List Char
deriving DecidableEq

namespace Token

/-- The characters that start an identifier. -/
def identifierStart : PointSet := Predefined.alpha.set.union (.ofChar '_')

/-- The characters that continue an identifier. -/
def identifierRest : PointSet := identifierStart.union Predefined.digit.set

def digits : PointSet := Predefined.digit.set

def spaces : PointSet := Predefined.space.set

namespace Kind

/-- The kind of the token that starts with `c`. -/
def of (c : Char) : Kind :=
  if identifierStart.containsChar c then identifier
  else if digits.containsChar c then number
  else if spaces.containsChar c then space
  else punctuation

/-- Whether `c` goes on with a token of this kind. -/
def continues : Kind → Char → Bool
  | identifier, c => identifierRest.containsChar c
  | number, c => digits.containsChar c
  | space, c => spaces.containsChar c
  | punctuation, _ => false

end Kind

end Token

/-- The tokens of a text, in order. -/
def tokenize : List Char → List Token
  | [] => []
  | c :: rest =>
    let kind := Token.Kind.of c
    ⟨kind, c :: rest.takeWhile kind.continues⟩ :: tokenize (rest.dropWhile kind.continues)
termination_by cs => cs.length
decreasing_by
  exact Nat.lt_succ_of_le (List.dropWhile_suffix _).length_le

/-- The tokens of a text make up the whole of it. -/
theorem flatMap_lexeme_tokenize (cs : List Char) : (tokenize cs).flatMap Token.lexeme = cs := by
  fun_induction tokenize cs with
  | case1 => rfl
  | case2 c rest kind ih => simp [ih]

end CharClass
