import Lox.Grammar.Statement

/-!
Contract: whole programs and whole expressions from tokens.

Owns: `parseProgram` and `parseExpression`, which give either a tree or all the
syntax errors, and in both cases the next node number that is free.
-/

namespace Lox.Grammar

/-- What parsing a list of tokens gives. -/
structure Parsed (α : Type) where
  /-- The tree, or every syntax error in the order they were met. -/
  result : Except (List SyntaxError) α
  /-- The first node number not given out, whether parsing succeeded or not. -/
  nextId : Nat

namespace Parser

/-- Run a parser at the front of tokens. Reported errors win over a result. -/
def run (parser : Parser α) (tokens : List Token) (firstId : Nat) : Parsed α :=
  match parser (Cursor.start tokens firstId) with
  | .ok value cursor =>
      ⟨if cursor.errors.isEmpty then .ok value else .error cursor.errors, cursor.nextId⟩
  | .error error cursor => ⟨.error (cursor.errors ++ [error]), cursor.nextId⟩

end Parser

/-- All declarations up to the end. -/
def program : Parser (List Statement) := do
  let bound := (← get).bound
  declarationsUntil (fun _ => false) (declarationWithin bound) bound

/-- An expression with nothing behind it. -/
def soleExpression : Parser Expression := do
  let value ← expression
  if ← Parser.atEnd then
    return value
  else
    Parser.failHere .trailingTokens

/-- Parse a program, numbering its expression nodes from `firstId`. -/
def parseProgram (tokens : List Token) (firstId : Nat) : Parsed (List Statement) :=
  program.run tokens firstId

/-- Parse a single expression, numbering its nodes from `firstId`. -/
def parseExpression (tokens : List Token) (firstId : Nat) : Parsed Expression :=
  soleExpression.run tokens firstId

end Lox.Grammar
