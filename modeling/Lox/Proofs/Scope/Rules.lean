import Lox.Proofs.Grammar.Numbering
import Lox.Scope.Resolve

/-!
Contract: the scoping rules of programs, told by where each piece of code stands.

Owns:
- `Setting`: the scopes around a place with the names declared there before it, the function and
  the class around it, and the declaration in whose initializer it is;
- `Setting.parts`, the parts of a piece of code in their order, each in its own setting, and
  `At`, which leads from a program to every place in it;
- `Wrong`, what may be wrong at a place, and `Located`, the local names of a program.

Nothing here goes through a program. A place is a path of indices of parts, and the order of
paths is lexicographic: a piece of code comes before its parts, and its parts come one after
another.
-/

namespace Lox

/-- The names that a statement declares in the scope in which it stands. -/
def Statement.declared : Statement → List String
  | .var name _ | .class name _ => [name.lexeme]
  | .function declaration => [declaration.name.lexeme]
  | .conditional _ thenBranch none => thenBranch.declared
  | .conditional _ thenBranch (some elseBranch) => thenBranch.declared ++ elseBranch.declared
  | .loop _ body => body.declared
  | .expression _ | .print _ | .block _ | .return _ _ => []

namespace Scope

/-- The innermost function around a place. -/
inductive Enclosing where
  | function
  | method (name : Token)

/-- Where a piece of code stands. -/
structure Setting where
  /-- The blocks, functions and classes around it, the innermost first, each with the names that
  are declared there before it. -/
  scopes : List (List String)
  enclosing : Option Enclosing
  inClass : Bool
  /-- The variable in whose initializer it stands. -/
  initializing : Option Token

/-- A piece of code to which the scoping rules apply. -/
inductive Code where
  | program (statements : List Statement)
  | statement (statement : Statement)
  | function (declaration : FunctionDeclaration)
  /-- The name of a variable, a function, a class or a parameter where it is declared. -/
  | name (name : Token)
  | expression (expression : Expression)

/-- The numbers of the nodes in a piece of code. -/
def Code.numbers : Code → List Nat
  | .program code => Statement.numbersOfAll code
  | .statement code => code.numbers
  | .function code => Statement.numbersOfFunction code
  | .name _ => []
  | .expression code => code.numbers

namespace Setting

/-- Outside all scopes. -/
def outermost : Setting where
  scopes := []
  enclosing := none
  inClass := false
  initializing := none

/-- Inside a new scope. -/
def opened (setting : Setting) : Setting :=
  { setting with scopes := [] :: setting.scopes }

/-- Behind the declaration of names. Outside all scopes names are not kept. -/
def declaring (setting : Setting) (names : List String) : Setting :=
  { setting with scopes := setting.scopes.modifyHead (· ++ names) }

/-- In the initializer of a variable, which is declared already. -/
def initialized (setting : Setting) (name : Token) : Setting :=
  { setting.declaring [name.lexeme] with initializing := some name }

/-- In a function. -/
def entered (setting : Setting) (enclosing : Enclosing) : Setting :=
  { setting.opened with enclosing := some enclosing }

/-- In a class, which declares `this`. -/
def classBody (setting : Setting) : Setting :=
  { setting.opened.declaring [Keyword.this.spelling] with inClass := true }

/-- Statements that follow one another. -/
def sequence (setting : Setting) : List Statement → List (Setting × Code)
  | [] => []
  | statement :: rest =>
      (setting, .statement statement) :: (setting.declaring statement.declared).sequence rest

/-- Parameters that follow one another. -/
def parameters (setting : Setting) : List Token → List (Setting × Code)
  | [] => []
  | name :: rest => (setting, .name name) :: (setting.declaring [name.lexeme]).parameters rest

/-- The parts of a piece of code in their order, each where it stands. The value that is set as
a property comes before the object. -/
def parts (setting : Setting) : Code → List (Setting × Code)
  | .program statements => setting.sequence statements
  | .name _ => []
  | .function ⟨_, parameters, body⟩ =>
      setting.parameters parameters ++
        (setting.declaring (parameters.map Token.lexeme)).sequence body
  | .statement statement =>
      match statement with
      | .expression value | .print value => [(setting, .expression value)]
      | .var name none => [(setting, .name name)]
      | .var name (some value) =>
          [(setting, .name name), (setting.initialized name, .expression value)]
      | .block statements => setting.opened.sequence statements
      | .conditional condition thenBranch none =>
          [(setting, .expression condition), (setting, .statement thenBranch)]
      | .conditional condition thenBranch (some elseBranch) =>
          [(setting, .expression condition), (setting, .statement thenBranch),
            (setting.declaring thenBranch.declared, .statement elseBranch)]
      | .loop condition body => [(setting, .expression condition), (setting, .statement body)]
      | .function declaration =>
          [(setting, .name declaration.name),
            ((setting.declaring [declaration.name.lexeme]).entered .function,
              .function declaration)]
      | .return _ none => []
      | .return _ (some value) => [(setting, .expression value)]
      | .class name methods =>
          (setting, .name name) :: methods.map fun method =>
            ((setting.declaring [name.lexeme]).classBody.entered (.method method.name),
              .function method)
  | .expression expression =>
      match expression with
      | .literal _ _ | .variable _ _ | .this _ _ => []
      | .grouping _ inner | .unary _ _ inner | .assign _ _ inner | .get _ inner _ =>
          [(setting, .expression inner)]
      | .binary _ left _ right | .logical _ left _ right =>
          [(setting, .expression left), (setting, .expression right)]
      | .call _ callee _ arguments =>
          (setting, .expression callee) :: arguments.map fun argument =>
            (setting, .expression argument)
      | .set _ object _ value => [(setting, .expression value), (setting, .expression object)]

/-- The innermost scope has a name already. -/
def Has (setting : Setting) (name : String) : Prop :=
  ∃ scope ∈ setting.scopes.head?, name ∈ scope

/-- A name is that of the variable in whose initializer this is, and no other declaration of it
is in the innermost scope. -/
def Initializes (setting : Setting) (name : String) : Prop :=
  (∃ declared ∈ setting.initializing, declared.lexeme = name) ∧
    ∃ scope ∈ setting.scopes.head?, scope.count name = 1

/-- The innermost scope that has a name is so many scopes out. -/
def DeclaredOut (setting : Setting) (name : String) (distance : Nat) : Prop :=
  (∃ scope, setting.scopes[distance]? = some scope ∧ name ∈ scope) ∧
    ∀ nearer < distance, ∀ scope, setting.scopes[nearer]? = some scope → name ∉ scope

end Setting

/-- A path of indices of parts. -/
abbrev Position := List Nat

/-- `At setting code position inner part`: a piece of code that stands in a setting has a part at
a position, which stands in a setting of its own. -/
inductive At : Setting → Code → Position → Setting → Code → Prop where
  | here {setting : Setting} {code : Code} : At setting code [] setting code
  | part {setting inner last : Setting} {code part found : Code} {index : Nat}
      {position : Position} :
      (setting.parts code)[index]? = some (inner, part) → At inner part position last found →
      At setting code (index :: position) last found

/-- What is wrong with a piece of code where it stands, apart from its parts. -/
inductive Wrong (setting : Setting) : Code → ScopeError → Prop where
  | alreadyDeclared {name : Token} :
      setting.Has name.lexeme → Wrong setting (.name name) ⟨name, .alreadyDeclared⟩
  | ownInitializer {id : Nat} {name : Token} :
      setting.Initializes name.lexeme →
      Wrong setting (.expression (.variable id name)) ⟨name, .ownInitializer⟩
  | returnOutsideFunction {keyword : Token} {value : Option Expression} :
      setting.enclosing = none →
      Wrong setting (.statement (.return keyword value)) ⟨keyword, .returnOutsideFunction⟩
  | returnFromInitializer {keyword method : Token} {value : Expression} :
      setting.enclosing = some (.method method) → method.lexeme = initializerName →
      Wrong setting (.statement (.return keyword (some value))) ⟨keyword, .returnFromInitializer⟩
  | thisOutsideClass {id : Nat} {keyword : Token} :
      setting.inClass = false →
      Wrong setting (.expression (.this id keyword)) ⟨keyword, .thisOutsideClass⟩

/-- A piece of code is an occurrence of a name. -/
inductive Names : Code → Nat → Token → Prop where
  | variable {id : Nat} {name : Token} : Names (.expression (.variable id name)) id name
  | this {id : Nat} {keyword : Token} : Names (.expression (.this id keyword)) id keyword
  | assign {id : Nat} {name : Token} {value : Expression} :
      Names (.expression (.assign id name value)) id name

section Somewhere

variable (setting : Setting) (code : Code)

/-- Something is wrong at a position in a piece of code. -/
def WrongAt (position : Position) (error : ScopeError) : Prop :=
  ∃ inner part, At setting code position inner part ∧ Wrong inner part error

/-- Somewhere in a piece of code there is an occurrence of a local name. -/
def LocatedIn (id distance : Nat) : Prop :=
  ∃ position inner part name, At setting code position inner part ∧ Names part id name ∧
    inner.DeclaredOut name.lexeme distance

end Somewhere

/-- A program breaks a scoping rule at a position. -/
def Violation (program : List Statement) (position : Position) (error : ScopeError) : Prop :=
  WrongAt .outermost (.program program) position error

/-- A node of a program is an occurrence of a name that is declared so many scopes out. -/
def Located (program : List Statement) (id distance : Nat) : Prop :=
  LocatedIn .outermost (.program program) id distance

end Scope

end Lox
