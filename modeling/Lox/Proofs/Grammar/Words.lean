import Lox.Syntax

/-!
Contract: the words of the grammar, independent of the parser.

Owns:
- the levels of expressions, with the operators of each binary level;
- the constants that tokens stand for;
- `Word`, which says when a list of tokens is a word of a nonterminal. Each
  constructor is one alternative of the grammar

      program     -> declaration*
      declaration -> "class" NAME "{" function* "}" | "fun" function
                   | "var" variable | statement
      function    -> NAME "(" parameters? ")" block
      variable    -> NAME ( "=" expression )? ";"
      statement   -> expression ";"
                   | "for" "(" ( "var" variable | expression ";" | ";" )
                     expression? ";" expression? ")" statement
                   | "if" "(" expression ")" statement ( "else" statement )?
                   | "print" expression ";" | "return" expression? ";"
                   | "while" "(" expression ")" statement | block
      block       -> "{" declaration* "}"
      parameters  -> NAME ( "," NAME )*
      assignment  -> ( call "." )? NAME "=" assignment | or
      or          -> and ( "or" and )*
      and         -> equality ( "and" equality )*
      equality    -> comparison ( ( "!=" | "==" ) comparison )*
      comparison  -> term ( ( ">" | ">=" | "<" | "<=" ) term )*
      term        -> factor ( ( "-" | "+" ) factor )*
      factor      -> unary ( ( "/" | "*" ) unary )*
      unary       -> ( "!" | "-" ) unary | call
      call        -> primary ( "(" arguments? ")" | "." NAME )*
      arguments   -> expression ( "," expression )*
      primary     -> NUMBER | STRING | "true" | "false" | "nil" | "this" | NAME
                   | "(" expression ")"

  in which an expression is an `assignment`. Lists of arguments and parameters
  have `maxEntries` entries at most.

Does not own: which tree a word stands for. An `else` may belong to any `if`
before it here.
-/

namespace Lox.Grammar

/-- How many entries a list of arguments or parameters has at most. -/
def maxEntries : Nat := 255

/-- The levels of binary operators, the loosest first. -/
inductive BinaryLevel where
  | disjunction
  | conjunction
  | equality
  | comparison
  | term
  | factor
deriving DecidableEq, Repr

/-- The levels of expressions, the loosest first. -/
inductive Level where
  | assignment
  | binary (level : BinaryLevel)
  | unary
  | call
  | primary
deriving DecidableEq, Repr

namespace BinaryLevel

/-- Whether a token is an operator of a level. -/
def isOperator : BinaryLevel → Token → Bool
  | disjunction, token => token.isKeyword .or
  | conjunction, token => token.isKeyword .and
  | equality, token => [.bangEqual, .equalEqual].any (token.isSymbol ·)
  | comparison, token => [.greater, .greaterEqual, .less, .lessEqual].any (token.isSymbol ·)
  | term, token => [.minus, .plus].any (token.isSymbol ·)
  | factor, token => [.star, .slash].any (token.isSymbol ·)

/-- The level of the operands of a level. -/
def operand : BinaryLevel → Level
  | disjunction => .binary conjunction
  | conjunction => .binary equality
  | equality => .binary comparison
  | comparison => .binary term
  | term => .binary factor
  | factor => .unary

end BinaryLevel

/-- Whether a token is an operator that stands before its operand. -/
def isUnaryOperator (token : Token) : Bool :=
  [.bang, .minus].any (token.isSymbol ·)

theorem any_isSymbol_iff (symbols : List Symbol) (token : Token) :
    symbols.any (token.isSymbol ·) = true ↔ ∃ symbol ∈ symbols, token.kind = .symbol symbol := by
  obtain ⟨kind, lexeme, line⟩ := token
  cases kind <;> simp [Token.isSymbol]

/-- A unary operator is a bang or a minus. -/
theorem isUnaryOperator_iff (operator : Token) :
    isUnaryOperator operator = true ↔
      ∃ symbol ∈ [.bang, .minus], operator.kind = .symbol symbol :=
  any_isSymbol_iff _ operator

/-- The constants that tokens stand for. -/
inductive StandsFor : TokenKind → Literal → Prop where
  | false : StandsFor (.keyword .false) (.boolean false)
  | true : StandsFor (.keyword .true) (.boolean true)
  | nil : StandsFor (.keyword .nil) .nil
  | number (value : Float) : StandsFor (.number value) (.number value)
  | string (contents : String) : StandsFor (.string contents) (.string contents)

/-- The nonterminals of the grammar, and the repetitions and options in it. Lists of
arguments and parameters are counted. -/
inductive Nonterminal where
  | expression (level : Level)
  /-- Operators of a level, each with an operand behind it. -/
  | operations (level : BinaryLevel)
  /-- Calls and property accesses. -/
  | accesses
  /-- One expression or more. -/
  | items (count : Nat)
  | arguments (count : Nat)
  | parameters (count : Nat)
  | optional
  | variable
  /-- What a loop starts with, up to its first semicolon. -/
  | initializer
  | statement
  | declaration
  | declarations
  | function
  | functions

/-- The words of a nonterminal. -/
inductive Word : Nonterminal → List Token → Prop where
  | literal {token : Token} {value : Literal} :
      StandsFor token.kind value → Word (.expression .primary) [token]
  | this {token : Token} :
      token.isKeyword .this → Word (.expression .primary) [token]
  | name {name : Token} :
      name.isIdentifier → Word (.expression .primary) [name]
  | grouping {left right : Token} {inner : List Token} :
      left.isSymbol .leftParen → Word (.expression .assignment) inner →
      right.isSymbol .rightParen → Word (.expression .primary) (left :: inner ++ [right])
  | noAccess : Word .accesses []
  | call {left right : Token} {arguments rest : List Token} {count : Nat} :
      left.isSymbol .leftParen → Word (.arguments count) arguments → count ≤ maxEntries →
      right.isSymbol .rightParen → Word .accesses rest →
      Word .accesses (left :: arguments ++ right :: rest)
  | get {dot name : Token} {rest : List Token} :
      dot.isSymbol .dot → name.isIdentifier → Word .accesses rest →
      Word .accesses (dot :: name :: rest)
  | accessed {object accesses : List Token} :
      Word (.expression .primary) object → Word .accesses accesses →
      Word (.expression .call) (object ++ accesses)
  | noArguments : Word (.arguments 0) []
  | someArguments {items : List Token} {count : Nat} :
      Word (.items count) items → Word (.arguments count) items
  | lastItem {item : List Token} :
      Word (.expression .assignment) item → Word (.items 1) item
  | nextItem {item items : List Token} {comma : Token} {count : Nat} :
      Word (.expression .assignment) item → comma.isSymbol .comma → Word (.items count) items →
      Word (.items (count + 1)) (item ++ comma :: items)
  | notNegated {operand : List Token} :
      Word (.expression .call) operand → Word (.expression .unary) operand
  | negated {operator : Token} {operand : List Token} :
      isUnaryOperator operator → Word (.expression .unary) operand →
      Word (.expression .unary) (operator :: operand)
  | noOperation {level : BinaryLevel} : Word (.operations level) []
  | operation {level : BinaryLevel} {operator : Token} {operand rest : List Token} :
      level.isOperator operator → Word (.expression level.operand) operand →
      Word (.operations level) rest → Word (.operations level) (operator :: operand ++ rest)
  | binary {level : BinaryLevel} {operand operations : List Token} :
      Word (.expression level.operand) operand → Word (.operations level) operations →
      Word (.expression (.binary level)) (operand ++ operations)
  | notAssigned {value : List Token} :
      Word (.expression (.binary .disjunction)) value → Word (.expression .assignment) value
  | assigned {name equals : Token} {value : List Token} :
      name.isIdentifier → equals.isSymbol .equal → Word (.expression .assignment) value →
      Word (.expression .assignment) (name :: equals :: value)
  | propertyAssigned {object value : List Token} {dot name equals : Token} :
      Word (.expression .call) object → dot.isSymbol .dot → name.isIdentifier →
      equals.isSymbol .equal → Word (.expression .assignment) value →
      Word (.expression .assignment) (object ++ dot :: name :: equals :: value)
  | absent : Word .optional []
  | present {value : List Token} :
      Word (.expression .assignment) value → Word .optional value
  | uninitialized {name semicolon : Token} :
      name.isIdentifier → semicolon.isSymbol .semicolon → Word .variable [name, semicolon]
  | initialized {name equals semicolon : Token} {value : List Token} :
      name.isIdentifier → equals.isSymbol .equal → Word (.expression .assignment) value →
      semicolon.isSymbol .semicolon → Word .variable (name :: equals :: value ++ [semicolon])
  | noInitializer {semicolon : Token} :
      semicolon.isSymbol .semicolon → Word .initializer [semicolon]
  | variableInitializer {keyword : Token} {declared : List Token} :
      keyword.isKeyword .var → Word .variable declared →
      Word .initializer (keyword :: declared)
  | expressionInitializer {value : List Token} {semicolon : Token} :
      Word (.expression .assignment) value → semicolon.isSymbol .semicolon →
      Word .initializer (value ++ [semicolon])
  | expression {value : List Token} {semicolon : Token} :
      Word (.expression .assignment) value → semicolon.isSymbol .semicolon →
      Word .statement (value ++ [semicolon])
  | for {keyword left semicolon right : Token}
      {initializer condition increment body : List Token} :
      keyword.isKeyword .for → left.isSymbol .leftParen → Word .initializer initializer →
      Word .optional condition → semicolon.isSymbol .semicolon → Word .optional increment →
      right.isSymbol .rightParen → Word .statement body →
      Word .statement (keyword :: left :: initializer ++ condition ++
        semicolon :: increment ++ right :: body)
  | if {keyword left right : Token} {condition body : List Token} :
      keyword.isKeyword .if → left.isSymbol .leftParen →
      Word (.expression .assignment) condition → right.isSymbol .rightParen →
      Word .statement body → Word .statement (keyword :: left :: condition ++ right :: body)
  | ifElse {keyword left right separator : Token}
      {condition thenBranch elseBranch : List Token} :
      keyword.isKeyword .if → left.isSymbol .leftParen →
      Word (.expression .assignment) condition → right.isSymbol .rightParen →
      Word .statement thenBranch → separator.isKeyword .else → Word .statement elseBranch →
      Word .statement (keyword :: left :: condition ++ right :: thenBranch ++
        separator :: elseBranch)
  | print {keyword semicolon : Token} {value : List Token} :
      keyword.isKeyword .print → Word (.expression .assignment) value →
      semicolon.isSymbol .semicolon → Word .statement (keyword :: value ++ [semicolon])
  | return {keyword semicolon : Token} {value : List Token} :
      keyword.isKeyword .return → Word .optional value → semicolon.isSymbol .semicolon →
      Word .statement (keyword :: value ++ [semicolon])
  | while {keyword left right : Token} {condition body : List Token} :
      keyword.isKeyword .while → left.isSymbol .leftParen →
      Word (.expression .assignment) condition → right.isSymbol .rightParen →
      Word .statement body → Word .statement (keyword :: left :: condition ++ right :: body)
  | block {left right : Token} {declarations : List Token} :
      left.isSymbol .leftBrace → Word .declarations declarations →
      right.isSymbol .rightBrace → Word .statement (left :: declarations ++ [right])
  | noParameters : Word (.parameters 0) []
  | lastParameter {name : Token} :
      name.isIdentifier → Word (.parameters 1) [name]
  | nextParameter {name comma : Token} {names : List Token} {count : Nat} :
      name.isIdentifier → comma.isSymbol .comma → Word (.parameters (count + 1)) names →
      Word (.parameters (count + 2)) (name :: comma :: names)
  | function {name left right opening closing : Token} {parameters body : List Token}
      {count : Nat} :
      name.isIdentifier → left.isSymbol .leftParen → Word (.parameters count) parameters →
      count ≤ maxEntries → right.isSymbol .rightParen → opening.isSymbol .leftBrace →
      Word .declarations body → closing.isSymbol .rightBrace →
      Word .function (name :: left :: parameters ++ right :: opening :: body ++ [closing])
  | noFunction : Word .functions []
  | nextFunction {function functions : List Token} :
      Word .function function → Word .functions functions →
      Word .functions (function ++ functions)
  | classDeclaration {keyword name opening closing : Token} {methods : List Token} :
      keyword.isKeyword .class → name.isIdentifier → opening.isSymbol .leftBrace →
      Word .functions methods → closing.isSymbol .rightBrace →
      Word .declaration (keyword :: name :: opening :: methods ++ [closing])
  | functionDeclaration {keyword : Token} {function : List Token} :
      keyword.isKeyword .fun → Word .function function →
      Word .declaration (keyword :: function)
  | variableDeclaration {keyword : Token} {declared : List Token} :
      keyword.isKeyword .var → Word .variable declared →
      Word .declaration (keyword :: declared)
  | statement {statement : List Token} :
      Word .statement statement → Word .declaration statement
  | noDeclaration : Word .declarations []
  | nextDeclaration {declaration declarations : List Token} :
      Word .declaration declaration → Word .declarations declarations →
      Word .declarations (declaration ++ declarations)

end Lox.Grammar
