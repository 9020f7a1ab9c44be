import Mathlib.Data.List.Forall2
import Lox.Proofs.Relabel.Objects

/-!
Contract: programs on machines that are alike.

Owns: that evaluation, execution and calls of relabelled code end as they do with the code
as it was, each by induction on what bounds it: the syntax tree, or the fuel for loops and
calls.
-/

namespace Lox.Relabelled

open Evaluation (Eval Invoke Completion)

variable {likeness : Likeness}

/-- Calls of alike functions end alike. -/
def InvokeAlike (likeness : Likeness) (invoke : Invoke) : Prop :=
  ∀ (function other : FunctionValue) (paren another : Token) (arguments others : List Value),
    FunctionAlike likeness function other → TokenAlike likeness paren another →
    List.Forall₂ (ValueAlike likeness) arguments others →
    Mirrors likeness (ValueAlike likeness) (invoke function paren arguments)
      (invoke other another others)

variable {invoke : Invoke} {labels : Relabelling}

/-! ### Expressions -/

theorem checkArity_mirrors {paren other : Token} (tokens : TokenAlike likeness paren other)
    (expected found : Nat) :
    Mirrors likeness Eq (Evaluation.checkArity paren expected found : Eval Unit)
      (Evaluation.checkArity other expected found) := by
  unfold Evaluation.checkArity
  split
  case isTrue => exact Mirrors.pure rfl
  case isFalse => exact Mirrors.fail tokens _

theorem callValue_mirrors (invokes : InvokeAlike likeness invoke) {callee other : Value}
    (callees : ValueAlike likeness callee other) {paren another : Token}
    (tokens : TokenAlike likeness paren another) {arguments others : List Value}
    (values : List.Forall₂ (ValueAlike likeness) arguments others) :
    Mirrors likeness (ValueAlike likeness) (Evaluation.callValue invoke callee paren arguments)
      (Evaluation.callValue invoke other another others) := by
  unfold Evaluation.callValue
  rw [← values.length_eq]
  cases callees with
  | native function =>
      cases function with
      | clock =>
          refine (checkArity_mirrors tokens _ _).bind fun _ _ _ => ?_
          refine readClock_mirrors.bind fun time _ same => ?_
          rw [← same]
          exact Mirrors.pure (.number time)
  | function functions =>
      dsimp only
      rw [functions.arity]
      exact (checkArity_mirrors tokens _ _).bind fun _ _ _ =>
        invokes _ _ _ _ _ _ functions tokens values
  | @«class» owner second owners =>
      dsimp only
      rw [owners.arity]
      refine (checkArity_mirrors tokens _ _).bind fun _ _ _ => ?_
      refine (makeInstance_mirrors owners).bind fun id _ same => ?_
      subst same
      have initializer := owners.initializer?
      generalize owner.initializer? = method, second.initializer? = other at initializer ⊢
      cases initializer with
      | none => exact Mirrors.pure (.instance id)
      | some methods =>
          refine (bindMethod_mirrors methods id).bind fun bound other functions => ?_
          exact (invokes _ _ _ _ _ _ functions.1 tokens values).bind fun _ _ _ =>
            Mirrors.pure (.instance id)
  | _ => exact Mirrors.fail tokens _

mutual

/-- By induction on the expression. -/
theorem evaluate_mirrors (invokes : InvokeAlike likeness invoke)
    (origin : likeness.origins labels) : (expression : Expression) →
    expression.Within labels →
    Mirrors likeness (ValueAlike likeness) (Evaluation.evaluate invoke expression)
      (Evaluation.evaluate invoke (expression.relabel labels))
  | .literal _ value, _ => Mirrors.pure (.ofLiteral value)
  | .grouping _ inner, within => evaluate_mirrors invokes origin inner within
  | .unary _ operator operand, within =>
      (evaluate_mirrors invokes origin operand within.2).bind fun _ _ operands =>
        applyUnary_mirrors (tokenAlike origin within.1) operands
  | .binary _ left operator right, within =>
      (evaluate_mirrors invokes origin left within.2.1).bind fun _ _ lefts =>
        (evaluate_mirrors invokes origin right within.2.2).bind fun _ _ rights =>
          applyBinary_mirrors (tokenAlike origin within.1) lefts rights
  | .logical _ left operator right, within => by
      refine (evaluate_mirrors invokes origin left within.2.1).bind fun value other lefts => ?_
      have keyword : (labels.token operator).isKeyword .or = operator.isKeyword .or := by
        unfold Token.isKeyword
        rw [labels.kind]
      rw [lefts.isTruthy, keyword]
      split
      · exact Mirrors.pure lefts
      · exact evaluate_mirrors invokes origin right within.2.2
  | .variable _ _, within => lookUp_mirrors origin within
  | .this _ _, within => lookUp_mirrors origin within
  | .assign _ _ value, within =>
      (evaluate_mirrors invokes origin value within.2).bind fun _ _ values =>
        (assign_mirrors origin within.1 values).bind fun _ _ _ => Mirrors.pure values
  | .call _ callee _ arguments, within =>
      (evaluate_mirrors invokes origin callee within.2.1).bind fun _ _ callees =>
        (evaluateAll_mirrors invokes origin arguments within.2.2).bind fun _ _ values =>
          callValue_mirrors invokes callees (tokenAlike origin within.1) values
  | .get _ object name, within => by
      refine (evaluate_mirrors invokes origin object within.2).bind fun value other objects => ?_
      cases objects with
      | «instance» id => exact property_mirrors id origin within.1
      | _ => exact Mirrors.fail (tokenAlike origin within.1) _
  | .set _ object name value, within => by
      refine (evaluate_mirrors invokes origin object within.2.1).bind fun target other objects => ?_
      cases objects with
      | «instance» id =>
          refine (evaluate_mirrors invokes origin value within.2.2).bind fun _ _ values => ?_
          exact (setField_mirrors id (labels.lexeme name) values).bind fun _ _ _ =>
            Mirrors.pure values
      | _ => exact Mirrors.fail (tokenAlike origin within.1) _

theorem evaluateAll_mirrors (invokes : InvokeAlike likeness invoke)
    (origin : likeness.origins labels) : (expressions : List Expression) →
    Expression.AllWithin labels expressions →
    Mirrors likeness (List.Forall₂ (ValueAlike likeness))
      (Evaluation.evaluateAll invoke expressions)
      (Evaluation.evaluateAll invoke (Expression.relabelAll labels expressions))
  | [], _ => Mirrors.pure .nil
  | expression :: rest, within =>
      (evaluate_mirrors invokes origin expression within.1).bind fun _ _ first =>
        (evaluateAll_mirrors invokes origin rest within.2).bind fun _ _ values =>
          Mirrors.pure (.cons first values)

end

theorem evaluateOptional_mirrors (invokes : InvokeAlike likeness invoke)
    (origin : likeness.origins labels) (expression : Option Expression)
    (within : Expression.OptionWithin labels expression) :
    Mirrors likeness (ValueAlike likeness) (Evaluation.evaluateOptional invoke expression)
      (Evaluation.evaluateOptional invoke (expression.map (Expression.relabel labels))) := by
  cases expression with
  | none => exact Mirrors.pure .nil
  | some expression => exact evaluate_mirrors invokes origin expression within

/-! ### Statements -/

/-- Statements end alike. -/
inductive CompletionAlike (likeness : Likeness) : Completion → Completion → Prop where
  | normal : CompletionAlike likeness .normal .normal
  | returned {value other : Value} : ValueAlike likeness value other →
      CompletionAlike likeness (.returned value) (.returned other)

theorem repeatWhile_mirrors {condition another : Eval Value} {body second : Eval Completion}
    (conditions : Mirrors likeness (ValueAlike likeness) condition another)
    (bodies : Mirrors likeness (CompletionAlike likeness) body second) (fuel : Nat) :
    Mirrors likeness (CompletionAlike likeness) (Evaluation.repeatWhile condition body fuel)
      (Evaluation.repeatWhile another second fuel) := by
  induction fuel with
  | zero => exact Mirrors.outOfFuel
  | succ fuel inductionHypothesis =>
      refine conditions.bind fun value other values => ?_
      rw [values.isTruthy]
      split
      case isFalse => exact Mirrors.pure .normal
      case isTrue =>
          refine bodies.bind fun completion other ended => ?_
          cases ended with
          | normal => exact inductionHypothesis
          | returned values => exact Mirrors.pure (.returned values)

theorem defineClass_mirrors (origin : likeness.origins labels) (name : Token)
    (methods : List FunctionDeclaration) (within : (Statement.class name methods).Within labels) :
    Mirrors likeness Eq (Evaluation.defineClass name methods)
      (Evaluation.defineClass (labels.token name) (Statement.relabelFunctions labels methods)) := by
  unfold Evaluation.defineClass
  rw [labels.lexeme]
  refine (define_mirrors _ .nil).bind fun _ _ _ => ?_
  refine (makeMethods_mirrors origin within.2).bind fun methods others alike => ?_
  refine freshIdentity_mirrors.bind fun identity _ same => ?_
  subst same
  exact assignNearest_mirrors origin within.1 (.class ⟨rfl, rfl, alike⟩)

mutual

/-- By induction on the statement. -/
theorem execute_mirrors (invokes : InvokeAlike likeness invoke)
    (origin : likeness.origins labels) (fuel : Nat) : (statement : Statement) →
    statement.Within labels →
    Mirrors likeness (CompletionAlike likeness) (Evaluation.execute invoke fuel statement)
      (Evaluation.execute invoke fuel (statement.relabel labels))
  | .expression value, within =>
      (evaluate_mirrors invokes origin value within).bind fun _ _ _ => Mirrors.pure .normal
  | .print value, within =>
      (evaluate_mirrors invokes origin value within).bind fun _ _ values =>
        (printValue_mirrors values).bind fun _ _ _ => Mirrors.pure .normal
  | .var name initializer, within => by
      refine (evaluateOptional_mirrors invokes origin initializer within.2).bind
        fun value other values => ?_
      rw [labels.lexeme]
      exact (define_mirrors _ values).bind fun _ _ _ => Mirrors.pure .normal
  | .block statements, within => by
      refine Mirrors.get fun machine other alike => ?_
      rw [alike.environment]
      refine ((pushFrame_mirrors _).bind fun frame _ same => ?_) machine other alike
      subst same
      exact within_mirrors frame (executeAll_mirrors invokes origin fuel statements within)
  | .conditional condition thenBranch none, within => by
      refine (evaluate_mirrors invokes origin condition within.1).bind fun value other values => ?_
      rw [values.isTruthy]
      split
      case isFalse => exact Mirrors.pure .normal
      case isTrue => exact execute_mirrors invokes origin fuel thenBranch within.2
  | .conditional condition thenBranch (some elseBranch), within => by
      refine (evaluate_mirrors invokes origin condition within.1).bind fun value other values => ?_
      rw [values.isTruthy]
      split
      case isFalse => exact execute_mirrors invokes origin fuel elseBranch within.2.2
      case isTrue => exact execute_mirrors invokes origin fuel thenBranch within.2.1
  | .loop condition body, within =>
      repeatWhile_mirrors (evaluate_mirrors invokes origin condition within.1)
        (execute_mirrors invokes origin fuel body within.2) fuel
  | .function declaration, within => by
      refine Mirrors.get fun machine other alike => ?_
      rw [alike.environment, Statement.relabelFunction_name, labels.lexeme]
      refine ((makeFunction_mirrors origin within rfl _ false).bind fun function other made => ?_)
        machine other alike
      exact (define_mirrors _ (.function made.1)).bind fun _ _ _ => Mirrors.pure .normal
  | .return _ value, within =>
      (evaluateOptional_mirrors invokes origin value within.2).bind fun _ _ values =>
        Mirrors.pure (.returned values)
  | .class name methods, within =>
      (defineClass_mirrors origin name methods within).bind fun _ _ _ => Mirrors.pure .normal

theorem executeAll_mirrors (invokes : InvokeAlike likeness invoke)
    (origin : likeness.origins labels) (fuel : Nat) : (statements : List Statement) →
    Statement.AllWithin labels statements →
    Mirrors likeness (CompletionAlike likeness) (Evaluation.executeAll invoke fuel statements)
      (Evaluation.executeAll invoke fuel (Statement.relabelAll labels statements))
  | [], _ => Mirrors.pure .normal
  | statement :: rest, within => by
      refine (execute_mirrors invokes origin fuel statement within.1).bind
        fun completion other ended => ?_
      cases ended with
      | normal => exact executeAll_mirrors invokes origin fuel rest within.2
      | returned values => exact Mirrors.pure (.returned values)

end

/-! ### Calls -/

/-- Runs of relabelled statements end alike. -/
def RunAlike (likeness : Likeness) (run : List Statement → Eval Completion) : Prop :=
  ∀ labels, likeness.origins labels → ∀ statements, Statement.AllWithin labels statements →
    Mirrors likeness (CompletionAlike likeness) (run statements)
      (run (Statement.relabelAll labels statements))

theorem bindParameters_mirrors (frame : Nat) (labels : Relabelling) {parameters : List Token}
    {arguments others : List Value}
    (values : List.Forall₂ (ValueAlike likeness) arguments others) :
    Mirrors likeness Eq
      ((parameters.zip arguments).forM fun (parameter, argument) =>
        Evaluation.defineIn frame parameter.lexeme argument)
      (((parameters.map labels.token).zip others).forM fun (parameter, argument) =>
        Evaluation.defineIn frame parameter.lexeme argument) := by
  induction parameters generalizing arguments others with
  | nil => exact Mirrors.pure rfl
  | cons parameter parameters inductionHypothesis =>
      cases values with
      | nil => exact Mirrors.pure rfl
      | cons first values =>
          refine Mirrors.bind (?_ : Mirrors likeness Eq _ _) fun _ _ _ =>
            inductionHypothesis values
          dsimp only
          rw [labels.lexeme]
          exact defineIn_mirrors frame parameter.lexeme first

theorem callFunction_mirrors {run : List Statement → Eval Completion}
    (runs : RunAlike likeness run) : InvokeAlike likeness (Evaluation.callFunction run) := by
  intro function other paren another arguments others functions tokens values
  obtain ⟨labels, origin, within, code⟩ := functions.code
  have body := runs labels origin _ ((Statement.functionWithin_iff labels).mp within).2.2
  unfold Evaluation.callFunction
  refine Mirrors.get fun machine other alike => ?_
  rw [alike.depth, functions.closure, functions.isInitializer, code,
    Statement.relabelFunction_parameters, Statement.relabelFunction_body]
  split
  case isTrue => exact Mirrors.fail tokens _ machine other alike
  case isFalse =>
      refine ((pushFrame_mirrors _).bind fun frame _ same => ?_) machine other alike
      subst same
      refine (bindParameters_mirrors _ labels values).bind fun _ _ _ => ?_
      refine (deeper_mirrors (within_mirrors frame body)).bind fun completion other ended => ?_
      split
      case isTrue =>
          refine Mirrors.get fun machine other alike => ?_
          have names := alike.names function.closure Keyword.this.spelling
          generalize machine.frames.lookup? function.closure Keyword.this.spelling = left,
            other.frames.lookup? function.closure Keyword.this.spelling = right at names ⊢
          cases names with
          | none => exact Mirrors.pure .nil machine other alike
          | some values => exact Mirrors.pure values machine other alike
      case isFalse =>
          cases ended with
          | normal => exact Mirrors.pure .nil
          | returned values => exact Mirrors.pure values

/-- By induction on the fuel for calls. -/
theorem invoke_mirrors (fuel : Nat) : InvokeAlike likeness (Evaluation.invoke fuel) := by
  induction fuel with
  | zero => exact fun _ _ _ _ _ _ _ _ _ => Mirrors.outOfFuel
  | succ fuel inductionHypothesis =>
      exact callFunction_mirrors fun labels origin statements within =>
        executeAll_mirrors inductionHypothesis origin fuel statements within

end Lox.Relabelled
