import CharClass.Text.Hex
import CharClass.Text.Shown

/-!
# Quoted text

A text in double quotes in which every character can be seen: quotes, backslashes and all characters
that are not shown are escaped, and the others stand for themselves.
-/

namespace CharClass.Text

/-- What stands for `c` between the quotes. -/
def escape (c : Char) : String :=
  match c with
  | '"' => "\\\""
  | '\\' => "\\\\"
  | '\t' => "\\t"
  | '\n' => "\\n"
  | '\r' => "\\r"
  | '\x00' => "\\0"
  | c => if isShown c then String.singleton c else "\\u\x7b" ++ hex c.toNat ++ "\x7d"

/-- The text in double quotes. -/
def quoted (s : String) : String := "\"" ++ String.join (s.toList.map escape) ++ "\""

/-- The no-break space and the combining accent are escaped, the letter with an accent is not. -/
example : quoted "\u00e9 \u00a0e\u0301" = "\"\u00e9 \\u\x7ba0\x7de\\u\x7b301\x7d\"" := by
  decide +kernel

end CharClass.Text
