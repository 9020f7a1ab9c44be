import Lox.Number.Text
import Lox.Token

/-!
Contract: the two written forms of a token.

Owns:
- the plain form, `KIND lexeme value`, which also ends runtime diagnostics;
- the JSON form, one object with the members `token_type`, `lexeme`, `line`.

Does not own: the order of tokens, or what is written for a lexical error.
-/

namespace Lox

/-- The value that a token carries, `null` when its kind carries none. -/
def TokenKind.valueText : TokenKind → String
  | .string contents => contents
  | .number value => Number.Layout.token.write value
  | _ => "null"

/-- The plain form of a token. -/
def Token.listing (token : Token) : String :=
  token.kind.name ++ " " ++ token.lexeme ++ " " ++ token.kind.valueText

namespace Json

private def hexDigit (value : Nat) : Char :=
  (Nat.toDigits 16 value).headD '0'

/-- How a character stands in a JSON string: quotes, backslashes and control
characters are escaped, all others stand for themselves. -/
def escaped (c : Char) : List Char :=
  match c with
  | '"' => ['\\', '"']
  | '\\' => ['\\', '\\']
  | '\x08' => ['\\', 'b']
  | '\x0c' => ['\\', 'f']
  | '\n' => ['\\', 'n']
  | '\r' => ['\\', 'r']
  | '\t' => ['\\', 't']
  | c =>
      if c.toNat < 0x20 then
        ['\\', 'u', '0', '0', hexDigit (c.toNat / 16), hexDigit (c.toNat % 16)]
      else
        [c]

/-- A text as a JSON string. -/
def string (text : String) : String :=
  "\"" ++ String.ofList (text.toList.flatMap escaped) ++ "\""

/-- A number as a JSON number; JSON has none that are not finite. -/
def number (value : Float) : String :=
  if Number.infinityBits ≤ Number.magnitudeBits value then "null"
  else Number.Layout.json.write value

/-- An object with the given members, in order and without blanks. -/
def object (members : List (String × String)) : String :=
  "\x7b" ++ ",".intercalate (members.map fun (name, value) => string name ++ ":" ++ value) ++
    "\x7d"

end Json

/-- A kind in JSON: its name, with the value it carries if there is one. -/
def TokenKind.json (kind : TokenKind) : String :=
  match kind with
  | .string contents => Json.object [(kind.name, Json.string contents)]
  | .number value => Json.object [(kind.name, Json.number value)]
  | _ => Json.string kind.name

/-- The JSON form of a token. -/
def Token.json (token : Token) : String :=
  Json.object
    [("token_type", token.kind.json), ("lexeme", Json.string token.lexeme),
      ("line", toString token.line)]

end Lox
