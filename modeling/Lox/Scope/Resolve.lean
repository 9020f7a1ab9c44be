import Std.Data.ExtTreeMap
import Lox.Scope.Fault
import Lox.Syntax

/-!
Contract: the static scoping of programs.

A walk over a program follows the scopes that are open at each place and finds,
in order, the occurrences of local names, each with the number of scopes between
it and its declaration, and the violations of the scoping rules.

Owns:
- the scopes: blocks, function bodies with their parameters, and class bodies,
  which declare `this`; the outermost code has none;
- `findings`, what the walk finds, and `resolve`, which sorts it.

Occurrences that are not found local name globals, which are looked up when the
program runs.
-/

namespace Lox.Scope

/-- The names declared in a scope, the latest first, with whether the declaration
is complete. -/
abbrev Declarations := List (String × Bool)

/-- The open scopes, the innermost first. -/
abbrev Scopes := List Declarations

/-- What kind of code a statement stands in. -/
inductive Surrounding where
  | topLevel
  | function
  | method
  | initializer
deriving DecidableEq, Repr

/-- Where a statement stands. -/
structure Context where
  surrounding : Surrounding
  inClass : Bool

/-- Something that the walk finds. -/
inductive Finding where
  /-- The node is an occurrence of a name declared so many scopes out. -/
  | located (id : Nat) (distance : Nat)
  | violation (error : ScopeError)

namespace Scopes

/-- Whether a name is declared in the innermost scope, and if so, completely. -/
def innermost? (scopes : Scopes) (name : String) : Option Bool :=
  scopes.head?.bind (List.lookup name)

/-- How many scopes out a name is declared. -/
def distance? (scopes : Scopes) (name : String) : Option Nat :=
  scopes.findIdx? fun scope => (scope.lookup name).isSome

/-- Record a name in the innermost scope, if there is one. -/
def record (name : String) (complete : Bool) : Scopes → Scopes
  | [] => []
  | scope :: outer => ((name, complete) :: scope) :: outer

/-- Start the declaration of a name. In one scope a name is declared once only. -/
def declare (scopes : Scopes) (name : Token) : Scopes × List Finding :=
  if (scopes.innermost? name.lexeme).isSome then
    (scopes, [.violation ⟨name, .alreadyDeclared⟩])
  else
    (scopes.record name.lexeme false, [])

/-- Complete the declaration of a name. -/
def define (scopes : Scopes) (name : Token) : Scopes :=
  scopes.record name.lexeme true

/-- Declare a name that can be used at once. -/
def introduce (scopes : Scopes) (name : Token) : Scopes × List Finding :=
  let (declared, found) := scopes.declare name
  (declared.define name, found)

/-- Declare names one after another. -/
def introduceAll (scopes : Scopes) : List Token → Scopes × List Finding
  | [] => (scopes, [])
  | name :: rest =>
      let (declared, found) := scopes.introduce name
      let (final, following) := introduceAll declared rest
      (final, found ++ following)

/-- An occurrence of a name, located if it is local. -/
def locate (scopes : Scopes) (id : Nat) (name : Token) : List Finding :=
  match scopes.distance? name.lexeme with
  | some distance => [.located id distance]
  | none => []

end Scopes

mutual

/-- What is found in an expression. -/
def ofExpression (inClass : Bool) (scopes : Scopes) : Expression → List Finding
  | .literal _ _ => []
  | .grouping _ inner => ofExpression inClass scopes inner
  | .unary _ _ operand => ofExpression inClass scopes operand
  | .binary _ left _ right | .logical _ left _ right =>
      ofExpression inClass scopes left ++ ofExpression inClass scopes right
  | .variable id name =>
      (if scopes.innermost? name.lexeme = some false then
        [.violation ⟨name, .ownInitializer⟩]
      else []) ++ scopes.locate id name
  | .assign id name value => ofExpression inClass scopes value ++ scopes.locate id name
  | .call _ callee _ arguments =>
      ofExpression inClass scopes callee ++ ofExpressions inClass scopes arguments
  | .get _ object _ => ofExpression inClass scopes object
  | .set _ object _ value =>
      ofExpression inClass scopes value ++ ofExpression inClass scopes object
  | .this id keyword =>
      if inClass then scopes.locate id keyword
      else [.violation ⟨keyword, .thisOutsideClass⟩]

/-- What is found in several expressions. -/
def ofExpressions (inClass : Bool) (scopes : Scopes) : List Expression → List Finding
  | [] => []
  | expression :: rest =>
      ofExpression inClass scopes expression ++ ofExpressions inClass scopes rest

end

/-- What is found in an expression that may be absent. -/
def ofOptional (inClass : Bool) (scopes : Scopes) : Option Expression → List Finding
  | none => []
  | some expression => ofExpression inClass scopes expression

/-- What is wrong with a return: it needs a function around it, and an
initializer has no other value than its instance. -/
def ofReturn (surrounding : Surrounding) (keyword : Token) (hasValue : Bool) : List Finding :=
  match surrounding with
  | .topLevel => [.violation ⟨keyword, .returnOutsideFunction⟩]
  | .initializer =>
      if hasValue then [.violation ⟨keyword, .returnFromInitializer⟩] else []
  | .function | .method => []

/-- What kind of code the body of a method is. -/
def methodSurrounding (name : Token) : Surrounding :=
  if name.lexeme = initializerName then .initializer else .method

mutual

/-- What is found in a statement, and the scopes behind it. -/
def ofStatement (context : Context) (scopes : Scopes) : Statement → Scopes × List Finding
  | .expression value | .print value => (scopes, ofExpression context.inClass scopes value)
  | .var name initializer =>
      let (declared, found) := scopes.declare name
      (declared.define name, found ++ ofOptional context.inClass declared initializer)
  | .block statements => (scopes, ofStatements context ([] :: scopes) statements)
  | .conditional condition thenBranch none =>
      let (following, found) := ofStatement context scopes thenBranch
      (following, ofExpression context.inClass scopes condition ++ found)
  | .conditional condition thenBranch (some elseBranch) =>
      let (between, found) := ofStatement context scopes thenBranch
      let (following, foundElse) := ofStatement context between elseBranch
      (following, ofExpression context.inClass scopes condition ++ found ++ foundElse)
  | .loop condition body =>
      let (following, found) := ofStatement context scopes body
      (following, ofExpression context.inClass scopes condition ++ found)
  | .function declaration =>
      let (declared, found) := scopes.introduce declaration.name
      (declared, found ++ ofFunction ⟨.function, context.inClass⟩ declared declaration)
  | .return keyword value =>
      (scopes, ofReturn context.surrounding keyword value.isSome ++
        ofOptional context.inClass scopes value)
  | .class name methods =>
      let (declared, found) := scopes.introduce name
      (declared, found ++ ofMethods ([(Keyword.this.spelling, true)] :: declared) methods)

/-- What is found in statements that follow one another. -/
def ofStatements (context : Context) (scopes : Scopes) : List Statement → List Finding
  | [] => []
  | statement :: rest =>
      let (following, found) := ofStatement context scopes statement
      found ++ ofStatements context following rest

/-- What is found in a function, whose parameters and body share a scope. -/
def ofFunction (context : Context) (scopes : Scopes) : FunctionOf Statement → List Finding
  | ⟨_, parameters, body⟩ =>
      let (declared, found) := Scopes.introduceAll ([] :: scopes) parameters
      found ++ ofStatements context declared body

/-- What is found in the methods of a class. -/
def ofMethods (scopes : Scopes) : List (FunctionOf Statement) → List Finding
  | [] => []
  | method :: rest =>
      ofFunction ⟨methodSurrounding method.name, true⟩ scopes method ++ ofMethods scopes rest

end

/-- What is found in a program. -/
def findings (program : List Statement) : List Finding :=
  ofStatements ⟨.topLevel, false⟩ [] program

/-- How many scopes out the local names of a program are declared. -/
abbrev Locals := Std.ExtTreeMap Nat Nat

/-- The violations among findings. -/
def violations (found : List Finding) : List ScopeError :=
  found.filterMap fun
    | .violation error => some error
    | .located _ _ => none

/-- The table of the located occurrences among findings. -/
def locals (found : List Finding) : Locals :=
  found.foldl (fun table finding =>
    match finding with
    | .located id distance => table.insert id distance
    | .violation _ => table) ∅

/-- The table of local names of a program, or all its violations. -/
def resolve (program : List Statement) : Except (List ScopeError) Locals :=
  let found := findings program
  match violations found with
  | [] => .ok (locals found)
  | errors => .error errors

end Lox.Scope
