import Lox.Text.Unprintable

/-!
Contract: texts in double quotes, such that every character shows.

Owns: `quoted`. Quotes and backslashes are escaped, common controls have a letter,
and other characters that do not show are written by their code point.
-/

namespace Lox.Text

/-- How a character stands between quotes. -/
def quotedChar (c : Char) : List Char :=
  match c with
  | '"' => ['\\', '"']
  | '\\' => ['\\', '\\']
  | '\n' => ['\\', 'n']
  | '\r' => ['\\', 'r']
  | '\t' => ['\\', 't']
  | '\x00' => ['\\', '0']
  | c =>
      if isPrintable c then [c]
      else ['\\', 'u', '{'] ++ Nat.toDigits 16 c.toNat ++ ['}']

/-- A text in double quotes. -/
def quoted (text : String) : String :=
  "\"" ++ String.ofList (text.toList.flatMap quotedChar) ++ "\""

end Lox.Text
