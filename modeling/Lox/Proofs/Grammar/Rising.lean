import Lox.Proofs.Grammar.Numbering

/-!
Contract: the order of the numbers in the trees that words read as.

Owns:
- `Statement.expressions`, the outermost expressions in a statement, whose numbers are those
  of the statement;
- `Expression.Rising`, that each node has a greater number than all nodes below it, with
  `Reads.rising`.

Does not own: which numbers a tree takes.
-/

namespace Lox

mutual

/-- Each node of an expression has a greater number than all nodes below it. -/
def Expression.Rising : Expression → Prop
  | .literal _ _ | .variable _ _ | .this _ _ => True
  | .grouping id inner | .unary id _ inner | .assign id _ inner | .get id inner _ =>
      inner.Rising ∧ ∀ number ∈ inner.numbers, number < id
  | .binary id left _ right | .logical id left _ right | .set id left _ right =>
      (left.Rising ∧ right.Rising) ∧ ∀ number ∈ left.numbers ++ right.numbers, number < id
  | .call id callee _ arguments =>
      (callee.Rising ∧ Expression.AllRising arguments) ∧
        ∀ number ∈ callee.numbers ++ Expression.numbersOfAll arguments, number < id

/-- The same for several expressions. -/
def Expression.AllRising : List Expression → Prop
  | [] => True
  | expression :: rest => expression.Rising ∧ Expression.AllRising rest

end

mutual

/-- The expressions in a statement that are not part of another one. -/
def Statement.expressions : Statement → List Expression
  | .expression value | .print value => [value]
  | .var _ initializer => initializer.toList
  | .block statements => Statement.expressionsOfAll statements
  | .conditional condition thenBranch none => condition :: thenBranch.expressions
  | .conditional condition thenBranch (some elseBranch) =>
      condition :: thenBranch.expressions ++ elseBranch.expressions
  | .loop condition body => condition :: body.expressions
  | .function declaration => Statement.expressionsOfFunction declaration
  | .return _ value => value.toList
  | .class _ methods => Statement.expressionsOfFunctions methods

/-- The same for several statements. -/
def Statement.expressionsOfAll : List Statement → List Expression
  | [] => []
  | statement :: rest => statement.expressions ++ Statement.expressionsOfAll rest

/-- The same for a function. -/
def Statement.expressionsOfFunction : FunctionOf Statement → List Expression
  | ⟨_, _, body⟩ => Statement.expressionsOfAll body

/-- The same for several functions. -/
def Statement.expressionsOfFunctions : List (FunctionOf Statement) → List Expression
  | [] => []
  | declaration :: rest =>
      Statement.expressionsOfFunction declaration ++ Statement.expressionsOfFunctions rest

end

theorem Expression.numbersOfOptional_eq (expression : Option Expression) :
    Expression.numbersOfOptional expression = expression.toList.flatMap Expression.numbers := by
  cases expression with
  | none => rfl
  | some expression => exact (List.append_nil _).symm

mutual

/-- The nodes of a statement are those of its expressions. -/
theorem Statement.numbers_eq : (statement : Statement) →
    statement.numbers = statement.expressions.flatMap Expression.numbers
  | .expression _ | .print _ => (List.append_nil _).symm
  | .var _ initializer => Expression.numbersOfOptional_eq initializer
  | .block statements => Statement.numbersOfAll_eq statements
  | .conditional _ thenBranch none =>
      congrArg (_ ++ ·) (Statement.numbers_eq thenBranch)
  | .conditional condition thenBranch (some elseBranch) => by
      show condition.numbers ++ thenBranch.numbers ++ elseBranch.numbers =
        (condition :: thenBranch.expressions ++ elseBranch.expressions).flatMap _
      rw [List.flatMap_append, List.flatMap_cons, Statement.numbers_eq thenBranch,
        Statement.numbers_eq elseBranch]
  | .loop _ body => congrArg (_ ++ ·) (Statement.numbers_eq body)
  | .function declaration => Statement.numbersOfFunction_eq declaration
  | .return _ value => Expression.numbersOfOptional_eq value
  | .class _ methods => Statement.numbersOfFunctions_eq methods

theorem Statement.numbersOfAll_eq : (statements : List Statement) →
    Statement.numbersOfAll statements =
      (Statement.expressionsOfAll statements).flatMap Expression.numbers
  | [] => rfl
  | statement :: rest => by
      show statement.numbers ++ Statement.numbersOfAll rest =
        (statement.expressions ++ Statement.expressionsOfAll rest).flatMap _
      rw [List.flatMap_append, Statement.numbers_eq statement, Statement.numbersOfAll_eq rest]

theorem Statement.numbersOfFunction_eq : (declaration : FunctionOf Statement) →
    Statement.numbersOfFunction declaration =
      (Statement.expressionsOfFunction declaration).flatMap Expression.numbers
  | ⟨_, _, body⟩ => Statement.numbersOfAll_eq body

theorem Statement.numbersOfFunctions_eq : (declarations : List (FunctionOf Statement)) →
    Statement.numbersOfFunctions declarations =
      (Statement.expressionsOfFunctions declarations).flatMap Expression.numbers
  | [] => rfl
  | declaration :: rest => by
      show Statement.numbersOfFunction declaration ++ Statement.numbersOfFunctions rest =
        (Statement.expressionsOfFunction declaration ++
          Statement.expressionsOfFunctions rest).flatMap _
      rw [List.flatMap_append, Statement.numbersOfFunction_eq declaration,
        Statement.numbersOfFunctions_eq rest]

end

namespace Grammar

/-- In each of the expressions the numbers rise. -/
def Ascending (expressions : List Expression) : Prop :=
  ∀ expression ∈ expressions, expression.Rising

namespace Ascending

variable {left right : List Expression} {expression : Expression}

theorem nil : Ascending [] :=
  nofun

theorem single (rising : expression.Rising) : Ascending [expression] :=
  List.forall_mem_singleton.mpr rising

theorem append (before : Ascending left) (behind : Ascending right) :
    Ascending (left ++ right) :=
  List.forall_mem_append.mpr ⟨before, behind⟩

theorem cons (rising : expression.Rising) (behind : Ascending right) :
    Ascending (expression :: right) :=
  List.forall_mem_cons.mpr ⟨rising, behind⟩

end Ascending

/-- The numbers in a phrase rise. Operations and accesses keep the expression to their left,
whose numbers are all below those that they take from `first` on. -/
def Phrase.Rising (first : Nat) : Phrase → Prop
  | expression _ value => value.Rising
  | operations _ left value | accesses left value =>
      left.Rising → (∀ number ∈ left.numbers, number < first) → value.Rising
  | items values | arguments values => Expression.AllRising values
  | parameters _ => True
  | optional value => Ascending value.toList
  | initializer none => True
  | «variable» declared | initializer (some declared) | statement _ declared
  | declaration _ declared => Ascending declared.expressions
  | declarations statements => Ascending (Statement.expressionsOfAll statements)
  | function declared => Ascending (Statement.expressionsOfFunction declared)
  | functions declared => Ascending (Statement.expressionsOfFunctions declared)

theorem make_rising (level : BinaryLevel) {id : Nat} {left right : Expression}
    (operator : Token) (leftRising : left.Rising) (rightRising : right.Rising)
    (below : ∀ number ∈ left.numbers ++ right.numbers, number < id) :
    (level.make id left operator right).Rising := by
  cases level <;> exact ⟨⟨leftRising, rightRising⟩, below⟩

theorem forLoop_expressions (initializer : Option Statement) (condition : Expression)
    (increment : Option Expression) (body : Statement) :
    (forScope initializer (.loop condition (forRound increment body))).expressions =
      initializer.toList.flatMap Statement.expressions ++
        condition :: (body.expressions ++ increment.toList) := by
  cases initializer <;> cases increment <;>
    simp [forScope, forRound, Statement.expressions, Statement.expressionsOfAll]

theorem initializer_rising {initializer : Option Statement} {first : Nat}
    (rising : (Phrase.initializer initializer).Rising first) :
    Ascending (initializer.toList.flatMap Statement.expressions) := by
  cases initializer with
  | none => exact Ascending.nil
  | some initializer =>
      have declared : Ascending initializer.expressions := rising
      simpa using declared

theorem forCondition_rising {condition : Option Expression} (last : Nat)
    (rising : Ascending condition.toList) : (forCondition condition last).1.Rising := by
  cases condition with
  | none => exact trivial
  | some condition => exact rising condition (List.mem_singleton_self condition)

/-- Numbers in front of a place are below it. -/
theorem Numbered.below {numbers : List Nat} {first next : Nat}
    (numbered : Numbered numbers first next) : ∀ number ∈ numbers, number < next :=
  fun number member => (numbered.inside number member).2

/-- By induction on the reading: a node takes its number when the nodes below it have theirs. -/
theorem Reads.rising {word : List Token} {first next : Nat} {phrase : Phrase}
    (read : Reads word first phrase next) : phrase.Rising first := by
  induction read with
  | literal | this | name => exact trivial
  | grouping _ read _ inner => exact ⟨inner, read.numbered.below⟩
  | noAccess | noOperation => exact fun rising _ => rising
  | @call _ _ _ _ callee _ values _ middle _ _ argumentsRead _ _ _ arguments rest =>
      intro rising below
      have inside : ∀ number ∈ callee.numbers ++ Expression.numbersOfAll values,
          number < middle := by
        refine List.forall_mem_append.mpr ⟨fun number member => ?_, argumentsRead.numbered.below⟩
        exact Nat.lt_of_lt_of_le (below number member) argumentsRead.numbered.ordered
      refine rest ⟨⟨rising, arguments⟩, inside⟩ (List.forall_mem_append.mpr ⟨?_, ?_⟩)
      · exact fun number member => Nat.lt_succ_of_lt (inside number member)
      · exact List.forall_mem_singleton.mpr (Nat.lt_succ_self _)
  | get _ _ _ rest =>
      intro rising below
      refine rest ⟨rising, below⟩ (List.forall_mem_append.mpr ⟨?_, ?_⟩)
      · exact fun number member => Nat.lt_succ_of_lt (below number member)
      · exact List.forall_mem_singleton.mpr (Nat.lt_succ_self _)
  | accessed leftRead _ left rest | binary leftRead _ left rest =>
      exact rest left leftRead.numbered.below
  | noArguments => exact trivial
  | someArguments _ items => exact items
  | lastItem _ item => exact ⟨item, trivial⟩
  | nextItem _ _ _ item items => exact ⟨item, items⟩
  | notNegated _ operand => exact operand
  | negated _ read operand => exact ⟨operand, read.numbered.below⟩
  | @operation level operator _ _ left right _ _ middle _ _ rightRead _ rightRising rest =>
      intro rising below
      have inside : ∀ number ∈ left.numbers ++ right.numbers, number < middle := by
        refine List.forall_mem_append.mpr ⟨fun number member => ?_, rightRead.numbered.below⟩
        exact Nat.lt_of_lt_of_le (below number member) rightRead.numbered.ordered
      refine rest (make_rising level operator rising rightRising inside) ?_
      rw [make_numbers]
      refine List.forall_mem_append.mpr ⟨?_, ?_⟩
      · exact fun number member => Nat.lt_succ_of_lt (inside number member)
      · exact List.forall_mem_singleton.mpr (Nat.lt_succ_self _)
  | notAssigned _ value => exact value
  | assigned _ _ read value => exact ⟨value, read.numbered.below⟩
  | propertyAssigned objectRead _ _ _ valueRead object value =>
      refine ⟨⟨object, value⟩, List.forall_mem_append.mpr
        ⟨fun number member => ?_, valueRead.numbered.below⟩⟩
      have inside := objectRead.numbered.below number member
      have ordered := valueRead.numbered.ordered
      omega
  | absent => exact Ascending.nil
  | present _ value => exact Ascending.single value
  | uninitialized => exact Ascending.nil
  | initialized _ _ _ _ value => exact Ascending.single value
  | noInitializer => exact trivial
  | variableInitializer _ _ declared => exact declared
  | expressionInitializer _ _ value => exact Ascending.single value
  | expression _ _ value => exact Ascending.single value
  | «for» _ _ _ _ _ _ _ _ initializer condition increment body =>
      show Ascending (Statement.expressions _)
      rw [forLoop_expressions]
      exact (initializer_rising initializer).append
        (Ascending.cons (forCondition_rising _ condition) (Ascending.append body increment))
  | «if» _ _ _ _ _ condition body => exact Ascending.cons condition body
  | ifElse _ _ _ _ _ _ _ condition thenBranch elseBranch =>
      exact Ascending.append (Ascending.cons condition thenBranch) elseBranch
  | print _ _ _ value => exact Ascending.single value
  | «return» _ _ _ value => exact value
  | «while» _ _ _ _ _ condition body => exact Ascending.cons condition body
  | block _ _ _ statements => exact statements
  | noParameters | lastParameter | nextParameter => exact trivial
  | function _ _ _ _ _ _ _ _ _ body => exact body
  | noFunction => exact Ascending.nil
  | nextFunction _ _ function functions => exact Ascending.append function functions
  | classDeclaration _ _ _ _ _ methods => exact methods
  | functionDeclaration _ _ function => exact function
  | variableDeclaration _ _ declared => exact declared
  | statement _ statement => exact statement
  | noDeclaration => exact Ascending.nil
  | nextDeclaration _ _ declaration declarations =>
      exact Ascending.append declaration declarations

end Grammar

end Lox
