import Lox.Grammar.Fault
import Lox.Syntax

/-!
Contract: reading tokens one after another.

Owns:
- `Cursor`, the tokens still to be read, the next node number and the errors
  reported so far;
- `Parser`, which reads from a cursor and gives a result or the error it stopped
  at, and its basic steps;
- skipping to the next statement after an error.

Does not own: the rules of the grammar.
-/

namespace Lox.Grammar

/-- A position in a list of tokens. -/
structure Cursor where
  /-- The tokens still to be read, without the end token. -/
  rest : List Token
  /-- The end token. -/
  finish : Token
  /-- More than the number of tokens there were at first. No repetition in the
  grammar goes on for longer, as each round reads a token. -/
  bound : Nat
  /-- The number of the next expression node. -/
  nextId : Nat
  /-- Errors that did not stop the parser, in the order they were met. -/
  errors : List SyntaxError

namespace Cursor

/-- A cursor at the front of a list of tokens. Reading ends at the first end token;
a list without one ends on the line of its last token. -/
def start (tokens : List Token) (firstId : Nat) : Cursor where
  rest := tokens.takeWhile (!·.isEof)
  finish := (tokens.find? Token.isEof).getD
    ⟨.eof, "", (tokens.getLast?.map Token.line).getD 1⟩
  bound := tokens.length + 1
  nextId := firstId
  errors := []

/-- The token at the cursor. -/
def peek (cursor : Cursor) : Token :=
  cursor.rest.headD cursor.finish

/-- Add an error to those reported. -/
def report (error : SyntaxError) (cursor : Cursor) : Cursor :=
  { cursor with errors := cursor.errors ++ [error] }

/-- Whether a token starts a declaration or a statement that a keyword marks. -/
def startsStatement (token : Token) : Bool :=
  match token.kind with
  | .keyword .fun | .keyword .var | .keyword .for | .keyword .if | .keyword .while
  | .keyword .print | .keyword .return | .keyword .class => true
  | _ => false

/-- What is left of the tokens behind `previous` from the next place where a
statement may start: behind a semicolon, or at a token that starts one. -/
def nextStatement (previous : Token) : List Token → List Token
  | [] => []
  | token :: rest =>
      if previous.isSymbol .semicolon || startsStatement token then token :: rest
      else nextStatement token rest

/-- Skip the token at the cursor and go on to where a statement may start. -/
def synchronize (cursor : Cursor) : Cursor :=
  match cursor.rest with
  | [] => cursor
  | token :: rest => { cursor with rest := nextStatement token rest }

end Cursor

/-- A reader of tokens. A result and an error both come with the cursor behind
what was read. -/
abbrev Parser := EStateM SyntaxError Cursor

namespace Parser

/-- Stop with a fault at the token at the cursor. -/
def failHere (fault : SyntaxFault) : Parser α := do
  throw ⟨(← get).peek, fault⟩

/-- Report a fault at a token and go on. -/
def report (token : Token) (fault : SyntaxFault) : Parser Unit :=
  modify (Cursor.report ⟨token, fault⟩)

/-- Whether the token at the cursor, if it is not the end, satisfies a condition. -/
def at? (condition : Token → Bool) : Parser Bool := do
  return (← get).rest.head?.any condition

/-- Whether all tokens are read. -/
def atEnd : Parser Bool := do
  return (← get).rest.isEmpty

/-- Read the token at the cursor if it satisfies a condition. -/
def take? (condition : Token → Bool) : Parser (Option Token) := do
  match (← get).rest with
  | [] => return none
  | token :: rest =>
      if condition token then
        modify fun cursor => { cursor with rest := rest }
        return some token
      else
        return none

/-- Read all tokens from the cursor on that satisfy a condition. -/
def takeAll (condition : Token → Bool) : Parser (List Token) := do
  let taken := (← get).rest.takeWhile condition
  modify fun cursor => { cursor with rest := cursor.rest.drop taken.length }
  return taken

/-- Read a symbol if it is the token at the cursor. -/
def skip? (symbol : Symbol) : Parser Bool := do
  return (← take? (Token.isSymbol symbol)).isSome

/-- Read a keyword if it is the token at the cursor. -/
def skipKeyword? (keyword : Keyword) : Parser Bool := do
  return (← take? (Token.isKeyword keyword)).isSome

/-- Read the symbol that a mark is. -/
def require (mark : Mark) : Parser Token := do
  match ← take? (Token.isSymbol mark.symbol) with
  | some token => return token
  | none => failHere (.missingMark mark)

/-- Read a name. -/
def requireName (role : NameRole) : Parser Token := do
  match ← take? Token.isIdentifier with
  | some token => return token
  | none => failHere (.missingName role)

/-- Make an expression node with a number of its own. -/
def node (make : Nat → Expression) : Parser Expression := do
  let cursor ← get
  set { cursor with nextId := cursor.nextId + 1 }
  return make cursor.nextId

/-- The greatest number of items in an argument or parameter list. -/
def maxItems : Nat := 255

/-- Read items separated by commas, of which `count` were read before. Each item
past the limit is reported, and reading goes on. -/
def itemsFrom (item : Parser α) (tooMany : SyntaxFault) (count : Nat) :
    Nat → Parser (List α)
  | 0 => return []
  | bound + 1 => do
      if maxItems ≤ count then
        report (← get).peek tooMany
      let first ← item
      if ← skip? .comma then
        return first :: (← itemsFrom item tooMany (count + 1) bound)
      else
        return [first]

/-- Read a list in parentheses up to its closing mark: nothing, or items
separated by commas. -/
def listUpTo (close : Mark) (item : Parser α) (tooMany : SyntaxFault) :
    Parser (List α × Token) := do
  if ← at? (Token.isSymbol close.symbol) then
    return ([], ← require close)
  else
    let items ← itemsFrom item tooMany 0 (← get).bound
    return (items, ← require close)

/-- Read with a parser; if it stops at an error, report that, go on to where a
statement may start, and give nothing. -/
def recover (parser : Parser α) : Parser (Option α) := fun cursor =>
  match parser cursor with
  | .ok value following => .ok (some value) following
  | .error error following => .ok none (following.report error).synchronize

end Parser

end Lox.Grammar
