import Lox.Diagnostic
import Lox.Source.Piece

/-!
Contract: the tokens and lexical errors of a source text, with their lines.

Owns:
- the numbering of lines: a token stands on the line it starts on, and the end of
  the source as well as a string that is never closed on the last line;
- lexical faults and their messages.

One pass reports every fault, and one end token closes the items of a source.
-/

namespace Lox.Source

/-- Why a piece of source text is no token. -/
inductive LexicalFault where
  | unexpected (c : Char)
  | unterminatedString
deriving DecidableEq, Repr

/-- What is wrong, in words. -/
def LexicalFault.message : LexicalFault → String
  | .unexpected c => "Unexpected character: " ++ c.toString
  | .unterminatedString => "Unterminated string."

/-- A lexical fault on its line. -/
structure LexicalError where
  fault : LexicalFault
  line : Nat
deriving DecidableEq, Repr

/-- The diagnostic of a lexical error. -/
def LexicalError.text (error : LexicalError) : String :=
  Diagnostic.lexicalText error.line error.fault.message

/-- What scanning yields: a lexical error or a token. -/
abbrev Item := Except LexicalError Token

/-- The items of pieces of which the first starts on the given line. -/
def itemsFrom (line : Nat) : List Piece → List Item
  | [] => [.ok ⟨.eof, "", line⟩]
  | piece :: rest =>
      let next := line + piece.text.count '\n'
      match piece.kind with
      | .token kind => .ok ⟨kind, String.ofList piece.text, line⟩ :: itemsFrom next rest
      | .skipped => itemsFrom next rest
      | .unexpected c => .error ⟨.unexpected c, line⟩ :: itemsFrom next rest
      | .unterminated => .error ⟨.unterminatedString, next⟩ :: itemsFrom next rest

/-- The items of a source text, in order. -/
def scan (text : String) : List Item :=
  itemsFrom 1 (pieces text.toList)

/-- The tokens among items. -/
def tokens (items : List Item) : List Token :=
  items.filterMap fun
    | .ok token => some token
    | .error _ => none

/-- The lexical errors among items. -/
def lexicalErrors (items : List Item) : List LexicalError :=
  items.filterMap fun
    | .ok _ => none
    | .error error => some error

end Lox.Source
