import Lox.Token.Listing

/-!
Contract: how diagnostics are worded around their message.

Owns: the texts of lexical, static and runtime diagnostics, given the message and
where it applies.

Does not own: the messages, which belong to the faults that cause them.
-/

namespace Lox.Diagnostic

/-- The place of a static diagnostic: the end of the source or a lexeme. -/
def place (token : Token) : String :=
  if token.isEof then " at end" else " at '" ++ token.lexeme ++ "'"

/-- The text of a lexical diagnostic, which has a line only. -/
def lexicalText (line : Nat) (message : String) : String :=
  "[line " ++ toString line ++ "] Error: " ++ message

/-- The text of a diagnostic that points at a token before the program runs. -/
def staticText (token : Token) (message : String) : String :=
  "[line " ++ toString token.line ++ "] Error" ++ place token ++ ": " ++ message

/-- The text of a runtime diagnostic: the message, the plain form of the token at
fault, and its line. -/
def runtimeText (token : Token) (message : String) : String :=
  message ++ ": " ++ token.listing ++ "\n[line " ++ toString token.line ++ "]"

end Lox.Diagnostic
