import Lox.Token

/-!
Contract: syntax trees of Lox programs.

Owns: literals, expressions, statements and function declarations.

Each expression node carries a number. Whoever builds trees gives every node a
number of its own, so that facts about an occurrence of a name can be kept in a
table beside the tree.

Does not own: how trees are built, written out, checked or run.
-/

namespace Lox

/-- A constant written in a source. -/
inductive Literal where
  | nil
  | boolean (value : Bool)
  | number (value : Float)
  | string (contents : String)
deriving DecidableEq

/-- An expression. -/
inductive Expression where
  | literal (id : Nat) (value : Literal)
  | unary (id : Nat) (operator : Token) (operand : Expression)
  | binary (id : Nat) (left : Expression) (operator : Token) (right : Expression)
  | logical (id : Nat) (left : Expression) (operator : Token) (right : Expression)
  | grouping (id : Nat) (inner : Expression)
  | variable (id : Nat) (name : Token)
  | assign (id : Nat) (name : Token) (value : Expression)
  /-- A call, with its closing parenthesis to point at. -/
  | call (id : Nat) (callee : Expression) (paren : Token) (arguments : List Expression)
  | get (id : Nat) (object : Expression) (name : Token)
  | set (id : Nat) (object : Expression) (name : Token) (value : Expression)
  | this (id : Nat) (keyword : Token)

/-- The number of an expression node. -/
def Expression.id : Expression → Nat
  | .literal id _ | .unary id _ _ | .binary id _ _ _ | .logical id _ _ _ | .grouping id _
  | .variable id _ | .assign id _ _ | .call id _ _ _ | .get id _ _ | .set id _ _ _
  | .this id _ => id

/-- A named function or method whose body consists of the given statements. -/
structure FunctionOf (Body : Type) where
  name : Token
  parameters : List Token
  body : List Body

/-- The name of the method that initializes the instances of its class. -/
def initializerName : String := "init"

/-- A statement. A program is a list of statements. -/
inductive Statement where
  | expression (value : Expression)
  | print (value : Expression)
  | var (name : Token) (initializer : Option Expression)
  | block (statements : List Statement)
  | conditional (condition : Expression) (thenBranch : Statement)
      (elseBranch : Option Statement)
  | loop (condition : Expression) (body : Statement)
  | function (declaration : FunctionOf Statement)
  | return (keyword : Token) (value : Option Expression)
  | class (name : Token) (methods : List (FunctionOf Statement))

/-- The declaration of a function or a method. -/
abbrev FunctionDeclaration := FunctionOf Statement

end Lox
