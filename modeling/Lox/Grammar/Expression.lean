import Lox.Grammar.Cursor

/-!
Contract: the grammar of expressions.

    expression -> assignment
    assignment -> ( call "." )? NAME "=" assignment | or
    or         -> and ( "or" and )*
    and        -> equality ( "and" equality )*
    equality   -> comparison ( ( "!=" | "==" ) comparison )*
    comparison -> term ( ( ">" | ">=" | "<" | "<=" ) term )*
    term       -> factor ( ( "-" | "+" ) factor )*
    factor     -> unary ( ( "/" | "*" ) unary )*
    unary      -> ( "!" | "-" ) unary | call
    call       -> primary ( "(" arguments? ")" | "." NAME )*
    primary    -> literal | "this" | NAME | "(" expression ")"

Each rule takes the parser for the expressions inside it, `nested`, so that
`expressionWithin` is the only recursive definition.
-/

namespace Lox.Grammar

open Lox.Grammar.Parser

/-- The constant that a token stands for. -/
def literal? (token : Token) : Option Literal :=
  match token.kind with
  | .keyword .false => some (.boolean false)
  | .keyword .true => some (.boolean true)
  | .keyword .nil => some .nil
  | .number value => some (.number value)
  | .string contents => some (.string contents)
  | _ => none

/-- A constant, a name, `this`, or an expression in parentheses. -/
def primary (nested : Parser Expression) : Parser Expression := do
  if ← skip? .leftParen then
    let inner ← nested
    let _ ← require .groupingClose
    node (.grouping · inner)
  else if let some token ← take? (fun token => (literal? token).isSome) then
    node (.literal · ((literal? token).getD .nil))
  else if let some keyword ← take? (Token.isKeyword .this) then
    node (.this · keyword)
  else if let some name ← take? Token.isIdentifier then
    node (.variable · name)
  else
    failHere .missingExpression

/-- The calls and property accesses that follow an expression. -/
def callsFrom (nested : Parser Expression) : Nat → Expression → Parser Expression
  | 0, expression => return expression
  | bound + 1, expression => do
      if ← skip? .leftParen then
        let (arguments, paren) ← listUpTo .argumentsClose nested .tooManyArguments
        callsFrom nested bound (← node (.call · expression paren arguments))
      else if ← skip? .dot then
        let name ← requireName .property
        callsFrom nested bound (← node (.get · expression name))
      else
        return expression

/-- A primary expression with calls and property accesses. -/
def call (nested : Parser Expression) : Parser Expression := do
  callsFrom nested (← get).bound (← primary nested)

/-- Whether a token is a symbol among the given ones. -/
def isOneOf (symbols : List Symbol) (token : Token) : Bool :=
  symbols.any (token.isSymbol ·)

/-- Unary operators nest to the right. -/
def unary (nested : Parser Expression) : Parser Expression := do
  let operators ← takeAll (isOneOf [.bang, .minus])
  operators.foldrM (fun operator operand => node (.unary · operator operand)) (← call nested)

/-- The operators and operands that follow an operand, associating to the left. -/
def leftAssociativeFrom (isOperator : Token → Bool)
    (make : Nat → Expression → Token → Expression → Expression)
    (operand : Parser Expression) : Nat → Expression → Parser Expression
  | 0, left => return left
  | bound + 1, left => do
      match ← take? isOperator with
      | none => return left
      | some operator =>
          let right ← operand
          leftAssociativeFrom isOperator make operand bound
            (← node (make · left operator right))

/-- Operands separated by operators, associating to the left. -/
def leftAssociative (isOperator : Token → Bool)
    (make : Nat → Expression → Token → Expression → Expression)
    (operand : Parser Expression) : Parser Expression := do
  let left ← operand
  leftAssociativeFrom isOperator make operand (← get).bound left

def factor (nested : Parser Expression) : Parser Expression :=
  leftAssociative (isOneOf [.star, .slash]) .binary (unary nested)

def term (nested : Parser Expression) : Parser Expression :=
  leftAssociative (isOneOf [.minus, .plus]) .binary (factor nested)

def comparison (nested : Parser Expression) : Parser Expression :=
  leftAssociative (isOneOf [.greater, .greaterEqual, .less, .lessEqual]) .binary (term nested)

def equality (nested : Parser Expression) : Parser Expression :=
  leftAssociative (isOneOf [.bangEqual, .equalEqual]) .binary (comparison nested)

def conjunction (nested : Parser Expression) : Parser Expression :=
  leftAssociative (Token.isKeyword .and) .logical (equality nested)

def disjunction (nested : Parser Expression) : Parser Expression :=
  leftAssociative (Token.isKeyword .or) .logical (conjunction nested)

/-- An assignment to a variable or a property, or an expression without one. A
wrong target is reported at the equals sign and stands for the whole. -/
def assignment (nested : Parser Expression) : Parser Expression := do
  let target ← disjunction nested
  match ← take? (Token.isSymbol .equal) with
  | none => return target
  | some equals =>
      let value ← nested
      match target with
      | .variable _ name => node (.assign · name value)
      | .get _ object name => node (.set · object name value)
      | _ =>
          report equals .invalidTarget
          return target

/-- An expression in which expressions nest to at most the given depth. -/
def expressionWithin : Nat → Parser Expression
  | 0 => failHere .missingExpression
  | depth + 1 => assignment (expressionWithin depth)

/-- An expression. Each level of nesting reads a token, so that the bound of the
cursor is deep enough. -/
def expression : Parser Expression := do
  expressionWithin (← get).bound

end Lox.Grammar
