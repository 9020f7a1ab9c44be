import Lox.Proofs.Evaluation.Definitions
import Lox.Proofs.Evaluation.Requirements
import Lox.Proofs.Grammar.Genuine

/-!
Contract: the operators of a program have a meaning.

Owns:
- the kinds that binary operators have in trees whose tokens are in their places;
- `Halt.Meaningless`: a halt at an operator without meaning, and what it says;
- `Spares`: a computation does not stop so on a machine on which all functions meet a requirement;
- how it composes, and that each construct of the language satisfies it, if the tokens in the code
  and in the required functions are in their places.

Does not own: which functions there are on a machine.
-/

namespace Lox

open Grammar (BinaryLevel isUnaryOperator)

/-! ### Kinds of operators -/

namespace Grammar

/-- The symbols that stand between two operands, without those of assignments and accesses. -/
def infixSymbols : List Symbol :=
  [.plus, .minus, .star, .slash, .equalEqual, .bangEqual, .greater, .greaterEqual, .less,
    .lessEqual]

/-- The operators of binary expressions are those symbols. -/
theorem isInfix_iff (operator : Token) :
    (∃ level : BinaryLevel, level.isOperator operator ∧
      level ≠ .disjunction ∧ level ≠ .conjunction) ↔
      ∃ symbol ∈ infixSymbols, operator.kind = .symbol symbol := by
  constructor
  · rintro ⟨level, isOperator, notOr, notAnd⟩
    cases level with
    | disjunction => exact absurd rfl notOr
    | conjunction => exact absurd rfl notAnd
    | _ =>
        obtain ⟨symbol, member, same⟩ := (any_isSymbol_iff _ operator).mp isOperator
        exact ⟨symbol, by clear same; revert symbol; decide, same⟩
  · rintro ⟨symbol, member, same⟩
    have levels : ∀ symbol ∈ infixSymbols,
        symbol ∈ [Symbol.bangEqual, .equalEqual] ∨
          symbol ∈ [Symbol.greater, .greaterEqual, .less, .lessEqual] ∨
          symbol ∈ [Symbol.minus, .plus] ∨ symbol ∈ [Symbol.star, .slash] := by decide
    have isOperator {symbols : List Symbol} (member : symbol ∈ symbols) :=
      (any_isSymbol_iff symbols operator).mpr ⟨symbol, member, same⟩
    rcases levels symbol member with among | among | among | among
    · exact ⟨.equality, isOperator among, nofun, nofun⟩
    · exact ⟨.comparison, isOperator among, nofun, nofun⟩
    · exact ⟨.term, isOperator among, nofun, nofun⟩
    · exact ⟨.factor, isOperator among, nofun, nofun⟩

end Grammar

namespace Evaluation

/-! ### Operators without meaning -/

/-- Whether evaluation has come to a token that is no operator. -/
def RuntimeFault.isMeaningless : RuntimeFault → Bool
  | .invalidUnaryOperator | .invalidBinaryOperator => true
  | _ => false

/-- Whether a halt is at a token that is no operator. -/
def Halt.isMeaningless : Halt → Bool
  | .fault error => error.fault.isMeaningless
  | .outOfFuel => false

/-- No other fault has a message that starts like these. -/
theorem RuntimeFault.meaningless_of_letter {fault : RuntimeFault}
    (letter : fault.message.toList.head? = some 'I') : fault.isMeaningless = true := by
  cases fault with
  | invalidUnaryOperator | invalidBinaryOperator => rfl
  | undefinedVariable name | unboundLocal name =>
      change ("Undefined variable '" ++ name ++ "'.").toList.head? = some 'I' at letter
      simp at letter
  | undefinedProperty name =>
      change ("Undefined property '" ++ name ++ "'.").toList.head? = some 'I' at letter
      simp at letter
  | wrongArgumentCount expected found =>
      change ("Expected " ++ toString expected ++ " arguments but got " ++ toString found ++
        ".").toList.head? = some 'I' at letter
      simp at letter
  | _ => exact absurd letter (by decide)

section Definitions

variable (required : Requirement)

/-- On a machine on which all functions meet a requirement a computation does not come to a token
that is no operator. -/
def Spares {α : Type} (computation : Eval α) : Prop :=
  ∀ machine, MachineMeets required machine → ∀ halt later,
    computation machine = .error halt later → halt.isMeaningless = false

/-- Calls of functions that meet a requirement do not. -/
def CallsSpare (invoke : Invoke) : Prop :=
  ∀ function paren arguments, FunctionMeets required function → ValuesMeet required arguments →
    Spares required (invoke function paren arguments)

end Definitions

variable {required : Requirement}

namespace Spares

variable {α β : Type} {known : α → Prop}

theorem ofOk {computation : Eval α}
    (ends : ∀ machine, ∃ value later, computation machine = .ok value later) :
    Spares required computation := by
  intro machine _ halt later halts
  obtain ⟨value, last, done⟩ := ends machine
  cases done.symm.trans halts

theorem pure (value : α) : Spares required (Pure.pure value : Eval α) :=
  ofOk fun machine => ⟨value, machine, rfl⟩

theorem outOfFuel : Spares required (throw .outOfFuel : Eval α) := by
  rintro machine _ _ _ ⟨⟩
  rfl

theorem fail (token : Token) {fault : RuntimeFault} (other : fault.isMeaningless = false) :
    Spares required (Evaluation.fail token fault : Eval α) := by
  rintro machine _ _ _ ⟨⟩
  exact other

theorem require (token : Token) {fault : RuntimeFault} (other : fault.isMeaningless = false)
    (value : Option α) : Spares required (Evaluation.require token fault value) := by
  cases value with
  | none => exact fail token other
  | some value => exact pure value

/-- What comes second starts with a value of which something is known. -/
theorem bind {first : Eval α} {next : α → Eval β} (spares : Spares required first)
    (maintains : Maintains required known first)
    (further : ∀ value, known value → Spares required (next value)) :
    Spares required (first >>= next) := by
  intro machine meets halt later halts
  rcases bind_error halts with early | ⟨value, middle, done, late⟩
  · exact spares machine meets halt later early
  · obtain ⟨between, holds⟩ := maintains.of_ok meets done
    exact further value holds middle between halt later late

theorem ite {condition : Prop} [Decidable condition] {first second : Eval α}
    (whenTrue : Spares required first) (whenFalse : Spares required second) :
    Spares required (if condition then first else second) := by
  split
  · exact whenTrue
  · exact whenFalse

theorem get {next : Machine → Eval α}
    (further : ∀ machine, MachineMeets required machine → Spares required (next machine)) :
    Spares required (MonadState.get >>= next) :=
  (ofOk fun machine => ⟨machine, machine, rfl⟩).bind Maintains.get further

theorem within (frame : Nat) {computation : Eval α} (spares : Spares required computation) :
    Spares required (Evaluation.within frame computation) := by
  intro machine meets halt later halts
  obtain ⟨last, inner⟩ := within_error halts
  have entered : MachineMeets required { machine with environment := frame } :=
    meets.congr rfl rfl
  exact spares _ entered halt last inner

theorem deeper {computation : Eval α} (spares : Spares required computation) :
    Spares required (Evaluation.deeper computation) := by
  intro machine meets halt later halts
  obtain ⟨last, inner⟩ := deeper_error halts
  have entered : MachineMeets required { machine with depth := machine.depth + 1 } :=
    meets.congr rfl rfl
  exact spares _ entered halt last inner

end Spares

/-! ### Steps -/

theorem lookUp_spares (id : Nat) (name : Token) : Spares required (lookUp id name) := by
  refine .get fun machine _ => ?_
  split
  · exact .require _ rfl _
  · exact .require _ rfl _

theorem assign_spares (id : Nat) (name : Token) (value : Value) :
    Spares required (assign id name value) := by
  have owner : Spares required (ownerOf id name) := by
    refine .get fun machine _ => ?_
    split
    · exact .require _ rfl _
    · exact .require _ rfl _
  exact owner.bind (ownerOf_maintains id name) fun _ _ => .ofOk fun _ => ⟨_, _, rfl⟩

theorem property_spares (id : Nat) (name : Token) : Spares required (property id name) := by
  refine .get fun machine meets => ?_
  dsimp only
  split
  · exact .pure _
  · have asked : Maintains required anyResult (require name (.undefinedProperty name.lexeme)
        (machine.instances[id]?.bind (·.owner.methods[name.lexeme]?))) :=
      .require _ _ fun _ _ => trivial
    exact (Spares.require _ rfl _).bind asked fun _ _ => .ofOk fun _ => ⟨_, _, rfl⟩

theorem checkArity_spares (paren : Token) (expected found : Nat) :
    Spares required (checkArity paren expected found : Eval Unit) :=
  .ite (.pure _) (.fail _ rfl)

theorem makeMethods_spares (declarations : List FunctionDeclaration) :
    Spares required (makeMethods declarations) := by
  refine .ofOk fun machine => ?_
  obtain ⟨methods, next, result⟩ :=
    makeMethods_result declarations machine.environment machine.nextIdentity
  exact ⟨methods, _, result machine rfl rfl⟩

theorem assignNearest_spares (name : Token) (value : Value) :
    Spares required (assignNearest name value) :=
  .get fun _ _ => (Spares.require _ rfl _).bind (Maintains.require _ _ fun _ _ => trivial)
    fun _ _ => .ofOk fun _ => ⟨_, _, rfl⟩

theorem defineClass_spares (name : Token) {methods : List FunctionDeclaration}
    (meet : ∀ method ∈ methods, required method (method.name.lexeme == initializerName)) :
    Spares required (defineClass name methods) :=
  (Spares.ofOk fun _ => ⟨_, _, rfl⟩).bind (define_maintains name.lexeme .nil trivial) fun _ _ =>
    (makeMethods_spares methods).bind (makeMethods_maintains meet) fun _ _ =>
      (Spares.ofOk fun _ => ⟨_, _, rfl⟩).bind freshIdentity_maintains fun _ _ =>
        assignNearest_spares _ _

/-- An operator that stands before its operand has a meaning. -/
theorem applyUnary_spares {operator : Token} (isOperator : isUnaryOperator operator)
    (operand : Value) : Spares required (applyUnary operator operand) := by
  obtain ⟨symbol, member, same⟩ := (Grammar.isUnaryOperator_iff operator).mp isOperator
  unfold applyUnary
  rw [same]
  rcases List.mem_cons.mp member with rfl | last
  · exact .pure _
  · obtain rfl := List.mem_singleton.mp last
    cases operand with
    | number => exact .pure _
    | _ => exact .fail _ rfl

/-- An operator that adds nothing and does not compare for equality has a meaning on numbers. -/
theorem numberOperator?_isSome {operator : Token}
    (isInfix : ∃ symbol ∈ Grammar.infixSymbols, operator.kind = .symbol symbol)
    (notPlus : operator.kind ≠ .symbol .plus) (notEqual : operator.kind ≠ .symbol .equalEqual)
    (notBang : operator.kind ≠ .symbol .bangEqual) (left right : Float) :
    ∃ value, (numberOperator? operator left right : Option Value) = some value := by
  obtain ⟨symbol, member, same⟩ := isInfix
  unfold numberOperator?
  rw [same]
  cases symbol with
  | minus | star | slash | greater | greaterEqual | less | lessEqual => exact ⟨_, rfl⟩
  | plus => exact absurd same notPlus
  | equalEqual => exact absurd same notEqual
  | bangEqual => exact absurd same notBang
  | _ => exact absurd member (by decide)

/-- An operator that stands between its operands has a meaning. -/
theorem applyBinary_spares {operator : Token}
    (isOperator : ∃ level : BinaryLevel, level.isOperator operator ∧
      level ≠ .disjunction ∧ level ≠ .conjunction) (left right : Value) :
    Spares required (applyBinary operator left right) := by
  have isInfix := (Grammar.isInfix_iff operator).mp isOperator
  unfold applyBinary
  split
  case h_1 =>
      split
      case h_1 | h_2 => exact .pure _
      case h_3 => exact .fail _ rfl
  case h_2 | h_3 => exact .pure _
  case h_4 notPlus notEqual notBang =>
      split
      case h_2 => exact .fail _ rfl
      case h_1 left right =>
          obtain ⟨value, meant⟩ :=
            numberOperator?_isSome isInfix notPlus notEqual notBang left right
          rw [meant]
          exact .pure _

/-! ### Expressions -/

section Constructs

variable {invoke : Invoke} {among : Token → Prop}

theorem callValue_spares (maintain : CallsMaintain required invoke)
    (spare : CallsSpare required invoke) {callee : Value} (paren : Token) {arguments : List Value}
    (meets : ValueMeets required callee) (meet : ValuesMeet required arguments) :
    Spares required (callValue invoke callee paren arguments) := by
  unfold callValue
  split
  case h_1 =>
      exact (checkArity_spares _ _ _).bind (checkArity_maintains _ _ _) fun _ _ =>
        .ofOk fun _ => ⟨_, _, rfl⟩
  case h_2 function =>
      exact (checkArity_spares _ _ _).bind (checkArity_maintains _ _ _) fun _ _ =>
        spare function paren arguments meets meet
  case h_3 owner =>
      refine (checkArity_spares _ _ _).bind (checkArity_maintains _ _ _) fun _ _ => ?_
      have methods : MethodsMeet required owner.methods := meets
      refine (Spares.ofOk fun _ => ⟨_, _, rfl⟩).bind (makeInstance_maintains methods)
        fun id _ => ?_
      cases present : owner.initializer? with
      | none => exact .pure _
      | some initializer =>
          exact (Spares.ofOk fun _ => ⟨_, _, rfl⟩).bind
            (bindMethod_maintains (methods _ _ present) id) fun bound holds =>
              (spare bound paren arguments holds meet).bind
                (maintain bound paren arguments holds meet) fun _ _ => .pure _
  case h_4 => exact .fail _ rfl

mutual

/-- By induction on the expression. -/
theorem evaluate_spares (maintain : CallsMaintain required invoke)
    (spare : CallsSpare required invoke) : (expression : Expression) →
    expression.Genuine among → Spares required (evaluate invoke expression)
  | .literal _ _, _ => .pure _
  | .grouping _ inner, genuine => evaluate_spares maintain spare inner genuine
  | .unary _ _ operand, genuine =>
      (evaluate_spares maintain spare operand genuine.2).bind
        (evaluate_maintains maintain operand) fun _ _ => applyUnary_spares genuine.1.1 _
  | .binary _ left _ right, genuine =>
      (evaluate_spares maintain spare left genuine.2.1).bind (evaluate_maintains maintain left)
        fun _ _ => (evaluate_spares maintain spare right genuine.2.2).bind
          (evaluate_maintains maintain right) fun _ _ => applyBinary_spares genuine.1.1 _ _
  | .logical _ left _ right, genuine =>
      (evaluate_spares maintain spare left genuine.2.1).bind (evaluate_maintains maintain left)
        fun _ _ => .ite (.pure _) (evaluate_spares maintain spare right genuine.2.2)
  | .variable id name, _ => lookUp_spares id name
  | .this id keyword, _ => lookUp_spares id keyword
  | .assign id name value, genuine =>
      (evaluate_spares maintain spare value genuine.2).bind (evaluate_maintains maintain value)
        fun _ meets => (assign_spares id name _).bind (assign_maintains id name meets)
          fun _ _ => .pure _
  | .call _ callee paren arguments, genuine =>
      (evaluate_spares maintain spare callee genuine.2.1).bind
        (evaluate_maintains maintain callee) fun _ meets =>
          (evaluateAll_spares maintain spare arguments genuine.2.2).bind
            (evaluateAll_maintains maintain arguments) fun _ meet =>
              callValue_spares maintain spare paren meets meet
  | .get _ object name, genuine => by
      refine (evaluate_spares maintain spare object genuine.2).bind
        (evaluate_maintains maintain object) fun target _ => ?_
      cases target with
      | «instance» id => exact property_spares id name
      | _ => exact .fail _ rfl
  | .set _ object name value, genuine => by
      refine (evaluate_spares maintain spare object genuine.2.1).bind
        (evaluate_maintains maintain object) fun target _ => ?_
      cases target with
      | «instance» id =>
          exact (evaluate_spares maintain spare value genuine.2.2).bind
            (evaluate_maintains maintain value) fun _ _ => .ofOk fun _ => ⟨_, _, rfl⟩
      | _ => exact .fail _ rfl

theorem evaluateAll_spares (maintain : CallsMaintain required invoke)
    (spare : CallsSpare required invoke) : (expressions : List Expression) →
    Expression.AllGenuine among expressions → Spares required (evaluateAll invoke expressions)
  | [], _ => .pure _
  | expression :: rest, genuine =>
      (evaluate_spares maintain spare expression genuine.1).bind
        (evaluate_maintains maintain expression) fun _ _ =>
          (evaluateAll_spares maintain spare rest genuine.2).bind
            (evaluateAll_maintains maintain rest) fun _ _ => .pure _

end

theorem evaluateOptional_spares (maintain : CallsMaintain required invoke)
    (spare : CallsSpare required invoke) {expression : Option Expression}
    (genuine : Expression.OptionGenuine among expression) :
    Spares required (evaluateOptional invoke expression) := by
  cases expression with
  | none => exact .pure _
  | some expression => exact evaluate_spares maintain spare expression genuine

/-! ### Statements -/

/-- By induction on the rounds. -/
theorem repeatWhile_spares {condition : Eval Value} {body : Eval Completion}
    (tests : Maintains required (ValueMeets required) condition)
    (goes : Maintains required (CompletionMeets required) body)
    (testSpares : Spares required condition) (bodySpares : Spares required body) (rounds : Nat) :
    Spares required (repeatWhile condition body rounds) := by
  induction rounds with
  | zero => exact .outOfFuel
  | succ rounds inductionHypothesis =>
      refine testSpares.bind tests fun _ _ => .ite (bodySpares.bind goes fun completion _ => ?_)
        (.pure _)
      cases completion with
      | normal => exact inductionHypothesis
      | returned value => exact .pure _

mutual

/-- By induction on the statement, whatever fuel there is for loops. -/
theorem execute_spares (maintain : CallsMaintain required invoke)
    (spare : CallsSpare required invoke) (rounds : Nat) : (statement : Statement) →
    statement.Meets required → statement.Genuine among →
    Spares required (execute invoke rounds statement)
  | .expression value, _, genuine =>
      (evaluate_spares maintain spare value genuine).bind (evaluate_maintains maintain value)
        fun _ _ => .pure _
  | .print value, _, genuine =>
      (evaluate_spares maintain spare value genuine).bind (evaluate_maintains maintain value)
        fun _ _ => .ofOk fun _ => ⟨_, _, rfl⟩
  | .var _ initializer, _, genuine =>
      (evaluateOptional_spares maintain spare genuine.2).bind
        (evaluateOptional_maintains maintain initializer) fun _ _ => .ofOk fun _ => ⟨_, _, rfl⟩
  | .block statements, meet, genuine =>
      .get fun _ _ => (Spares.ofOk fun _ => ⟨_, _, rfl⟩).bind (pushFrame_maintains _)
        fun frame _ => (executeAll_spares maintain spare rounds statements meet genuine).within
          frame
  | .conditional condition thenBranch none, meets, genuine =>
      (evaluate_spares maintain spare condition genuine.1).bind
        (evaluate_maintains maintain condition) fun _ _ =>
          .ite (execute_spares maintain spare rounds thenBranch meets genuine.2) (.pure _)
  | .conditional condition thenBranch (some elseBranch), meet, genuine =>
      (evaluate_spares maintain spare condition genuine.1).bind
        (evaluate_maintains maintain condition) fun _ _ =>
          .ite (execute_spares maintain spare rounds thenBranch meet.1 genuine.2.1)
            (execute_spares maintain spare rounds elseBranch meet.2 genuine.2.2)
  | .loop condition body, meets, genuine =>
      repeatWhile_spares (evaluate_maintains maintain condition)
        (execute_maintains maintain rounds body meets)
        (evaluate_spares maintain spare condition genuine.1)
        (execute_spares maintain spare rounds body meets genuine.2) rounds
  | .function _, _, _ => .ofOk fun _ => ⟨_, _, rfl⟩
  | .return _ value, _, genuine =>
      (evaluateOptional_spares maintain spare genuine.2).bind
        (evaluateOptional_maintains maintain value) fun _ _ => .pure _
  | .class name _, meet, _ =>
      (defineClass_spares name meet).bind (defineClass_maintains name meet) fun _ _ => .pure _

theorem executeAll_spares (maintain : CallsMaintain required invoke)
    (spare : CallsSpare required invoke) (rounds : Nat) : (statements : List Statement) →
    Statement.AllMeet required statements → Statement.AllGenuine among statements →
    Spares required (executeAll invoke rounds statements)
  | [], _, _ => .pure _
  | statement :: rest, meet, genuine => by
      refine (execute_spares maintain spare rounds statement meet.1 genuine.1).bind
        (execute_maintains maintain rounds statement meet.1) fun completion _ => ?_
      cases completion with
      | normal => exact executeAll_spares maintain spare rounds rest meet.2 genuine.2
      | returned value => exact .pure _

end

end Constructs

/-! ### Calls -/

section Calls

variable {among : Token → Prop}

theorem bindParameters_spares (frame : Nat) {pairs : List (Token × Value)}
    (meet : ∀ pair ∈ pairs, ValueMeets required pair.2) :
    Spares required (pairs.forM fun (parameter, argument) =>
      defineIn frame parameter.lexeme argument) := by
  induction pairs with
  | nil => exact .pure _
  | cons pair pairs inductionHypothesis =>
      exact (Spares.ofOk fun _ => ⟨_, _, rfl⟩).bind
        (defineIn_maintains frame pair.1.lexeme pair.2 (meet pair List.mem_cons_self))
        fun _ _ => inductionHypothesis fun other member => meet other (List.mem_cons_of_mem pair member)

/-- A call runs the body of its function. -/
theorem callFunction_spares (passesOn : required.PassesOn)
    (genuine : ∀ declaration isInitializer, required declaration isInitializer →
      Statement.AllGenuine among declaration.body)
    {run : List Statement → Eval Completion}
    (maintain : ∀ statements, Statement.AllMeet required statements →
      Maintains required (CompletionMeets required) (run statements))
    (spare : ∀ statements, Statement.AllMeet required statements →
      Statement.AllGenuine among statements → Spares required (run statements)) :
    CallsSpare required (callFunction run) := by
  intro function paren arguments meets meet
  have parameters : ∀ pair ∈ function.declaration.parameters.zip arguments,
      ValueMeets required pair.2 := fun pair member => meet pair.2 (List.of_mem_zip member).2
  have body := passesOn _ _ meets
  refine .get fun _ _ => .ite (.fail _ rfl) ?_
  refine (Spares.ofOk fun _ => ⟨_, _, rfl⟩).bind (pushFrame_maintains _) fun frame _ => ?_
  refine (bindParameters_spares frame parameters).bind (bindParameters_maintains frame parameters)
    fun _ _ => ?_
  refine ((spare _ body (genuine _ _ meets)).within frame).deeper.bind
    ((maintain _ body).within frame).deeper fun completion _ =>
      .ite (.ofOk fun _ => ⟨_, _, rfl⟩) ?_
  cases completion with
  | normal => exact .pure _
  | returned value => exact .pure _

/-- By induction on the fuel for calls. -/
theorem invoke_spares (passesOn : required.PassesOn)
    (genuine : ∀ declaration isInitializer, required declaration isInitializer →
      Statement.AllGenuine among declaration.body) (fuel : Nat) :
    CallsSpare required (invoke fuel) := by
  induction fuel with
  | zero => exact fun _ _ _ _ _ => .outOfFuel
  | succ fuel inductionHypothesis =>
      have maintain := invoke_maintains passesOn fuel
      exact callFunction_spares passesOn genuine (executeAll_maintains maintain fuel)
        (executeAll_spares maintain inductionHypothesis fuel)

end Calls

end Evaluation

end Lox
