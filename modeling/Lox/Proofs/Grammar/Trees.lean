import Lox.Proofs.Grammar.Words

/-!
Contract: the trees that the words of the grammar stand for.

Owns:
- `Phrase`, what a word can be read as: a nonterminal with its tree;
- `Reads`, which says that a word reads as a phrase. It follows the grammar of
  `Word`, and fixes what the grammar leaves open:
  * binary operators of one level, calls and property accesses associate to the
    left, unary operators and assignments to the right;
  * an `else` belongs to the nearest `if` before it, so what stands between an
    `if` and its `else` has no dangling `if`, one that could take an `else`;
  * a `for` stands for a loop, with the increment behind the body of each round and the
    initializer in front of all, and an absent condition holds always;
  * nodes are numbered as they become complete. The target of an assignment takes
    a number that no node keeps.

Does not own: how trees are found.
-/

namespace Lox.Grammar

/-- The node that an operator of a level makes. -/
def BinaryLevel.make : BinaryLevel → Nat → Expression → Token → Expression → Expression
  | disjunction | conjunction => .logical
  | equality | comparison | term | factor => .binary

/-- The condition of a `for`, given the first free number, and the next one. An absent
condition holds always. -/
def forCondition (condition : Option Expression) (id : Nat) : Expression × Nat :=
  match condition with
  | some condition => (condition, id)
  | none => (.literal id (.boolean true), id + 1)

/-- A round of a `for`: the body, and behind it the increment if there is one. -/
def forRound (increment : Option Expression) (body : Statement) : Statement :=
  match increment with
  | some increment => .block [body, .expression increment]
  | none => body

/-- The loop of a `for`, in a block with the initializer if there is one. -/
def forScope (initializer : Option Statement) (loop : Statement) : Statement :=
  match initializer with
  | some initializer => .block [initializer, loop]
  | none => loop

/-- What a word can be read as. -/
inductive Phrase where
  | expression (level : Level) (value : Expression)
  /-- Operators and operands that turn the expression to their left into a value. -/
  | operations (level : BinaryLevel) (left value : Expression)
  /-- Calls and property accesses that turn the expression to their left into a value. -/
  | accesses (left value : Expression)
  | items (values : List Expression)
  | arguments (values : List Expression)
  | parameters (names : List Token)
  | optional (value : Option Expression)
  | variable (statement : Statement)
  | initializer (statement : Option Statement)
  /-- A statement, and whether it ends with a dangling `if`. -/
  | statement (dangling : Bool) (statement : Statement)
  | declaration (dangling : Bool) (statement : Statement)
  | declarations (statements : List Statement)
  | function (declaration : FunctionDeclaration)
  | functions (declarations : List FunctionDeclaration)

/-- The nonterminal that a phrase belongs to. -/
def Phrase.nonterminal : Phrase → Nonterminal
  | expression level _ => .expression level
  | operations level _ _ => .operations level
  | accesses _ _ => .accesses
  | items values => .items values.length
  | arguments values => .arguments values.length
  | parameters names => .parameters names.length
  | optional _ => .optional
  | «variable» _ => .variable
  | initializer _ => .initializer
  | statement _ _ => .statement
  | declaration _ _ => .declaration
  | declarations _ => .declarations
  | function _ => .function
  | functions _ => .functions

/-- `Reads word first phrase next`: a word reads as a phrase, whose nodes take numbers
from `first` up to `next`. -/
inductive Reads : List Token → Nat → Phrase → Nat → Prop where
  | literal {token : Token} {value : Literal} {first : Nat} :
      StandsFor token.kind value →
      Reads [token] first (.expression .primary (.literal first value)) (first + 1)
  | this {keyword : Token} {first : Nat} :
      keyword.isKeyword .this →
      Reads [keyword] first (.expression .primary (.this first keyword)) (first + 1)
  | name {name : Token} {first : Nat} :
      name.isIdentifier →
      Reads [name] first (.expression .primary (.variable first name)) (first + 1)
  | grouping {left right : Token} {word : List Token} {inner : Expression} {first next : Nat} :
      left.isSymbol .leftParen → Reads word first (.expression .assignment inner) next →
      right.isSymbol .rightParen →
      Reads (left :: word ++ [right]) first (.expression .primary (.grouping next inner))
        (next + 1)
  | noAccess {left : Expression} {first : Nat} : Reads [] first (.accesses left left) first
  | call {left right : Token} {word rest : List Token} {callee value : Expression}
      {values : List Expression} {first middle next : Nat} :
      left.isSymbol .leftParen → Reads word first (.arguments values) middle →
      values.length ≤ maxEntries → right.isSymbol .rightParen →
      Reads rest (middle + 1) (.accesses (.call middle callee right values) value) next →
      Reads (left :: word ++ right :: rest) first (.accesses callee value) next
  | get {dot name : Token} {rest : List Token} {object value : Expression} {first next : Nat} :
      dot.isSymbol .dot → name.isIdentifier →
      Reads rest (first + 1) (.accesses (.get first object name) value) next →
      Reads (dot :: name :: rest) first (.accesses object value) next
  | accessed {word rest : List Token} {left value : Expression} {first middle next : Nat} :
      Reads word first (.expression .primary left) middle →
      Reads rest middle (.accesses left value) next →
      Reads (word ++ rest) first (.expression .call value) next
  | noArguments {first : Nat} : Reads [] first (.arguments []) first
  | someArguments {word : List Token} {values : List Expression} {first next : Nat} :
      Reads word first (.items values) next → Reads word first (.arguments values) next
  | lastItem {word : List Token} {value : Expression} {first next : Nat} :
      Reads word first (.expression .assignment value) next →
      Reads word first (.items [value]) next
  | nextItem {word rest : List Token} {comma : Token} {value : Expression}
      {values : List Expression} {first middle next : Nat} :
      Reads word first (.expression .assignment value) middle → comma.isSymbol .comma →
      Reads rest middle (.items values) next →
      Reads (word ++ comma :: rest) first (.items (value :: values)) next
  | notNegated {word : List Token} {value : Expression} {first next : Nat} :
      Reads word first (.expression .call value) next →
      Reads word first (.expression .unary value) next
  | negated {operator : Token} {word : List Token} {operand : Expression} {first next : Nat} :
      isUnaryOperator operator → Reads word first (.expression .unary operand) next →
      Reads (operator :: word) first (.expression .unary (.unary next operator operand))
        (next + 1)
  | noOperation {level : BinaryLevel} {left : Expression} {first : Nat} :
      Reads [] first (.operations level left left) first
  | operation {level : BinaryLevel} {operator : Token} {word rest : List Token}
      {left right value : Expression} {first middle next : Nat} :
      level.isOperator operator → Reads word first (.expression level.operand right) middle →
      Reads rest (middle + 1)
        (.operations level (level.make middle left operator right) value) next →
      Reads (operator :: word ++ rest) first (.operations level left value) next
  | binary {level : BinaryLevel} {word rest : List Token} {left value : Expression}
      {first middle next : Nat} :
      Reads word first (.expression level.operand left) middle →
      Reads rest middle (.operations level left value) next →
      Reads (word ++ rest) first (.expression (.binary level) value) next
  | notAssigned {word : List Token} {value : Expression} {first next : Nat} :
      Reads word first (.expression (.binary .disjunction) value) next →
      Reads word first (.expression .assignment value) next
  | assigned {name equals : Token} {word : List Token} {value : Expression}
      {first next : Nat} :
      name.isIdentifier → equals.isSymbol .equal →
      Reads word (first + 1) (.expression .assignment value) next →
      Reads (name :: equals :: word) first (.expression .assignment (.assign next name value))
        (next + 1)
  | propertyAssigned {word rest : List Token} {dot name equals : Token}
      {object value : Expression} {first middle next : Nat} :
      Reads word first (.expression .call object) middle → dot.isSymbol .dot →
      name.isIdentifier → equals.isSymbol .equal →
      Reads rest (middle + 1) (.expression .assignment value) next →
      Reads (word ++ dot :: name :: equals :: rest) first
        (.expression .assignment (.set next object name value)) (next + 1)
  | absent {first : Nat} : Reads [] first (.optional none) first
  | present {word : List Token} {value : Expression} {first next : Nat} :
      Reads word first (.expression .assignment value) next →
      Reads word first (.optional (some value)) next
  | uninitialized {name semicolon : Token} {first : Nat} :
      name.isIdentifier → semicolon.isSymbol .semicolon →
      Reads [name, semicolon] first (.variable (.var name none)) first
  | initialized {name equals semicolon : Token} {word : List Token} {value : Expression}
      {first next : Nat} :
      name.isIdentifier → equals.isSymbol .equal →
      Reads word first (.expression .assignment value) next → semicolon.isSymbol .semicolon →
      Reads (name :: equals :: word ++ [semicolon]) first (.variable (.var name (some value)))
        next
  | noInitializer {semicolon : Token} {first : Nat} :
      semicolon.isSymbol .semicolon → Reads [semicolon] first (.initializer none) first
  | variableInitializer {keyword : Token} {word : List Token} {declared : Statement}
      {first next : Nat} :
      keyword.isKeyword .var → Reads word first (.variable declared) next →
      Reads (keyword :: word) first (.initializer (some declared)) next
  | expressionInitializer {word : List Token} {semicolon : Token} {value : Expression}
      {first next : Nat} :
      Reads word first (.expression .assignment value) next → semicolon.isSymbol .semicolon →
      Reads (word ++ [semicolon]) first (.initializer (some (.expression value))) next
  | expression {word : List Token} {semicolon : Token} {value : Expression}
      {first next : Nat} :
      Reads word first (.expression .assignment value) next → semicolon.isSymbol .semicolon →
      Reads (word ++ [semicolon]) first (.statement false (.expression value)) next
  | for {keyword left semicolon right : Token} {word₁ word₂ word₃ word₄ : List Token}
      {initializer : Option Statement} {condition increment : Option Expression}
      {dangling : Bool} {body : Statement} {first second third fourth last : Nat} :
      keyword.isKeyword .for → left.isSymbol .leftParen →
      Reads word₁ first (.initializer initializer) second →
      Reads word₂ second (.optional condition) third → semicolon.isSymbol .semicolon →
      Reads word₃ third (.optional increment) fourth → right.isSymbol .rightParen →
      Reads word₄ fourth (.statement dangling body) last →
      Reads (keyword :: left :: word₁ ++ word₂ ++ semicolon :: word₃ ++ right :: word₄) first
        (.statement dangling
          (forScope initializer
            (.loop (forCondition condition last).1 (forRound increment body))))
        (forCondition condition last).2
  | if {keyword left right : Token} {word rest : List Token} {condition : Expression}
      {dangling : Bool} {body : Statement} {first middle next : Nat} :
      keyword.isKeyword .if → left.isSymbol .leftParen →
      Reads word first (.expression .assignment condition) middle →
      right.isSymbol .rightParen → Reads rest middle (.statement dangling body) next →
      Reads (keyword :: left :: word ++ right :: rest) first
        (.statement true (.conditional condition body none)) next
  | ifElse {keyword left right separator : Token} {word₁ word₂ word₃ : List Token}
      {condition : Expression} {dangling : Bool} {thenBranch elseBranch : Statement}
      {first second third next : Nat} :
      keyword.isKeyword .if → left.isSymbol .leftParen →
      Reads word₁ first (.expression .assignment condition) second →
      right.isSymbol .rightParen → Reads word₂ second (.statement false thenBranch) third →
      separator.isKeyword .else → Reads word₃ third (.statement dangling elseBranch) next →
      Reads (keyword :: left :: word₁ ++ right :: word₂ ++ separator :: word₃) first
        (.statement dangling (.conditional condition thenBranch (some elseBranch))) next
  | print {keyword semicolon : Token} {word : List Token} {value : Expression}
      {first next : Nat} :
      keyword.isKeyword .print → Reads word first (.expression .assignment value) next →
      semicolon.isSymbol .semicolon →
      Reads (keyword :: word ++ [semicolon]) first (.statement false (.print value)) next
  | return {keyword semicolon : Token} {word : List Token} {value : Option Expression}
      {first next : Nat} :
      keyword.isKeyword .return → Reads word first (.optional value) next →
      semicolon.isSymbol .semicolon →
      Reads (keyword :: word ++ [semicolon]) first (.statement false (.return keyword value))
        next
  | while {keyword left right : Token} {word rest : List Token} {condition : Expression}
      {dangling : Bool} {body : Statement} {first middle next : Nat} :
      keyword.isKeyword .while → left.isSymbol .leftParen →
      Reads word first (.expression .assignment condition) middle →
      right.isSymbol .rightParen → Reads rest middle (.statement dangling body) next →
      Reads (keyword :: left :: word ++ right :: rest) first
        (.statement dangling (.loop condition body)) next
  | block {left right : Token} {word : List Token} {statements : List Statement}
      {first next : Nat} :
      left.isSymbol .leftBrace → Reads word first (.declarations statements) next →
      right.isSymbol .rightBrace →
      Reads (left :: word ++ [right]) first (.statement false (.block statements)) next
  | noParameters {first : Nat} : Reads [] first (.parameters []) first
  | lastParameter {name : Token} {first : Nat} :
      name.isIdentifier → Reads [name] first (.parameters [name]) first
  | nextParameter {name comma following : Token} {word : List Token} {names : List Token}
      {first : Nat} :
      name.isIdentifier → comma.isSymbol .comma →
      Reads word first (.parameters (following :: names)) first →
      Reads (name :: comma :: word) first (.parameters (name :: following :: names)) first
  | function {name left right opening closing : Token} {word rest : List Token}
      {parameters : List Token} {body : List Statement} {first next : Nat} :
      name.isIdentifier → left.isSymbol .leftParen →
      Reads word first (.parameters parameters) first → parameters.length ≤ maxEntries →
      right.isSymbol .rightParen → opening.isSymbol .leftBrace →
      Reads rest first (.declarations body) next → closing.isSymbol .rightBrace →
      Reads (name :: left :: word ++ right :: opening :: rest ++ [closing]) first
        (.function ⟨name, parameters, body⟩) next
  | noFunction {first : Nat} : Reads [] first (.functions []) first
  | nextFunction {word rest : List Token} {declaration : FunctionDeclaration}
      {declarations : List FunctionDeclaration} {first middle next : Nat} :
      Reads word first (.function declaration) middle →
      Reads rest middle (.functions declarations) next →
      Reads (word ++ rest) first (.functions (declaration :: declarations)) next
  | classDeclaration {keyword name opening closing : Token} {word : List Token}
      {methods : List FunctionDeclaration} {first next : Nat} :
      keyword.isKeyword .class → name.isIdentifier → opening.isSymbol .leftBrace →
      Reads word first (.functions methods) next → closing.isSymbol .rightBrace →
      Reads (keyword :: name :: opening :: word ++ [closing]) first
        (.declaration false (.class name methods)) next
  | functionDeclaration {keyword : Token} {word : List Token}
      {declaration : FunctionDeclaration} {first next : Nat} :
      keyword.isKeyword .fun → Reads word first (.function declaration) next →
      Reads (keyword :: word) first (.declaration false (.function declaration)) next
  | variableDeclaration {keyword : Token} {word : List Token} {declared : Statement}
      {first next : Nat} :
      keyword.isKeyword .var → Reads word first (.variable declared) next →
      Reads (keyword :: word) first (.declaration false declared) next
  | statement {word : List Token} {dangling : Bool} {statement : Statement}
      {first next : Nat} :
      Reads word first (.statement dangling statement) next →
      Reads word first (.declaration dangling statement) next
  | noDeclaration {first : Nat} : Reads [] first (.declarations []) first
  | nextDeclaration {word rest : List Token} {dangling : Bool} {statement : Statement}
      {statements : List Statement} {first middle next : Nat} :
      Reads word first (.declaration dangling statement) middle →
      Reads rest middle (.declarations statements) next →
      Reads (word ++ rest) first (.declarations (statement :: statements)) next

end Lox.Grammar
