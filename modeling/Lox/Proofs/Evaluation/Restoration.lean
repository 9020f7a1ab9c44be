import Lox.Evaluation.Evaluate

/-!
Contract: what evaluation puts back, however it ends.

Owns:
- `Restores`: a computation leaves the current frame, the globals, the table of local names
  and the depth of calls as they were, with a value, at an error and out of fuel;
- how it composes, and that each step and each construct of the language satisfies it.

Does not own: the frames and instances themselves, which programs change.
-/

namespace Lox.Evaluation

/-- The machine that a computation leaves. -/
def final {α : Type} : EStateM.Result Halt Machine α → Machine
  | .ok _ machine => machine
  | .error _ machine => machine

/-- The second machine stands where the first one stood. -/
structure Restored (before after : Machine) : Prop where
  environment : after.environment = before.environment
  globals : after.globals = before.globals
  locals : after.locals = before.locals
  depth : after.depth = before.depth

theorem Restored.refl (machine : Machine) : Restored machine machine :=
  ⟨rfl, rfl, rfl, rfl⟩

theorem Restored.trans {before between after : Machine} (first : Restored before between)
    (second : Restored between after) : Restored before after where
  environment := second.environment.trans first.environment
  globals := second.globals.trans first.globals
  locals := second.locals.trans first.locals
  depth := second.depth.trans first.depth

/-- A computation puts back where it stood. -/
def Restores {α : Type} (computation : Eval α) : Prop :=
  ∀ machine, Restored machine (final (computation machine))

namespace Restores

variable {α β : Type}

theorem of_ok {computation : Eval α} (restores : Restores computation) {machine later : Machine}
    {value : α} (done : computation machine = .ok value later) : Restored machine later := by
  have restored := restores machine
  rw [done] at restored
  exact restored

/-! ### Composition -/

theorem pure (value : α) : Restores (Pure.pure value : Eval α) :=
  fun machine => Restored.refl machine

theorem outOfFuel : Restores (throw .outOfFuel : Eval α) :=
  fun machine => Restored.refl machine

theorem fail (token : Token) (fault : RuntimeFault) :
    Restores (Evaluation.fail token fault : Eval α) :=
  fun machine => Restored.refl machine

theorem get : Restores (MonadState.get : Eval Machine) :=
  fun machine => Restored.refl machine

theorem bind {first : Eval α} {next : α → Eval β} (restores : Restores first)
    (further : ∀ value, Restores (next value)) : Restores (first >>= next) := by
  intro machine
  have before := restores machine
  show Restored machine (final (EStateM.bind first next machine))
  unfold EStateM.bind
  generalize first machine = result at before ⊢
  cases result with
  | ok value middle => exact before.trans (further value middle)
  | error halt middle => exact before

theorem require (token : Token) (fault : RuntimeFault) (value : Option α) :
    Restores (Evaluation.require token fault value) := by
  cases value with
  | none => exact fail token fault
  | some value => exact pure value

theorem ite {condition : Prop} [Decidable condition] {first second : Eval α}
    (whenTrue : Restores first) (whenFalse : Restores second) :
    Restores (if condition then first else second) := by
  split
  · exact whenTrue
  · exact whenFalse

/-- A change of the machine that leaves it where it stands. -/
theorem modifyGet {change : Machine → α × Machine}
    (stays : ∀ machine, Restored machine (change machine).2) :
    Restores (MonadStateOf.modifyGet change : Eval α) :=
  stays

theorem modify {change : Machine → Machine}
    (stays : ∀ machine, Restored machine (change machine)) :
    Restores (modify change : Eval PUnit) :=
  stays

/-- A computation in another frame. The frame around it is put back. -/
theorem within (frame : Nat) {computation : Eval α} (restores : Restores computation) :
    Restores (Evaluation.within frame computation) := by
  intro machine
  have inside := restores { machine with environment := frame }
  unfold Evaluation.within
  dsimp only
  generalize computation { machine with environment := frame } = result at inside ⊢
  cases result with
  | ok value after => exact { inside with environment := rfl }
  | error halt after => exact { inside with environment := rfl }

/-- A computation one call deeper. The call is over afterwards. -/
theorem deeper {computation : Eval α} (restores : Restores computation) :
    Restores (Evaluation.deeper computation) := by
  intro machine
  have inside := restores { machine with depth := machine.depth + 1 }
  unfold Evaluation.deeper
  generalize computation { machine with depth := machine.depth + 1 } = result at inside ⊢
  have back : ∀ after : Machine, after.depth = machine.depth + 1 →
      after.depth - 1 = machine.depth := by omega
  cases result with
  | ok value after => exact { inside with depth := back after inside.depth }
  | error halt after => exact { inside with depth := back after inside.depth }

end Restores

/-! ### Steps -/

section Steps

theorem freshIdentity_restores : Restores freshIdentity :=
  Restores.modifyGet fun _ => ⟨rfl, rfl, rfl, rfl⟩

theorem readClock_restores : Restores readClock :=
  Restores.modifyGet fun _ => ⟨rfl, rfl, rfl, rfl⟩

theorem printValue_restores (value : Value) : Restores (printValue value) :=
  Restores.modify fun _ => ⟨rfl, rfl, rfl, rfl⟩

theorem pushFrame_restores (parent : Nat) : Restores (pushFrame parent) :=
  Restores.modifyGet fun _ => ⟨rfl, rfl, rfl, rfl⟩

theorem defineIn_restores (frame : Nat) (name : String) (value : Value) :
    Restores (defineIn frame name value) :=
  Restores.modify fun _ => ⟨rfl, rfl, rfl, rfl⟩

theorem define_restores (name : String) (value : Value) : Restores (define name value) :=
  Restores.get.bind fun _ => defineIn_restores _ _ _

theorem lookUp_restores (id : Nat) (name : Token) : Restores (lookUp id name) := by
  refine Restores.get.bind fun machine => ?_
  split
  · exact Restores.require _ _ _
  · exact Restores.require _ _ _

theorem ownerOf_restores (id : Nat) (name : Token) : Restores (ownerOf id name) := by
  refine Restores.get.bind fun machine => ?_
  split
  · exact Restores.require _ _ _
  · exact Restores.require _ _ _

theorem assign_restores (id : Nat) (name : Token) (value : Value) :
    Restores (assign id name value) :=
  (ownerOf_restores id name).bind fun _ => defineIn_restores _ _ _

theorem assignNearest_restores (name : Token) (value : Value) :
    Restores (assignNearest name value) :=
  Restores.get.bind fun _ => (Restores.require _ _ _).bind fun _ => defineIn_restores _ _ _

theorem makeFunction_restores (declaration : FunctionDeclaration) (closure : Nat)
    (isInitializer : Bool) : Restores (makeFunction declaration closure isInitializer) :=
  freshIdentity_restores.bind fun _ => Restores.pure _

theorem makeMethods_restores (declarations : List FunctionDeclaration) :
    Restores (makeMethods declarations) := by
  refine Restores.get.bind fun machine => ?_
  generalize (∅ : Bindings FunctionValue) = methods
  induction declarations generalizing methods with
  | nil => exact Restores.pure methods
  | cons declaration declarations inductionHypothesis =>
      rw [List.foldlM_cons]
      exact Restores.bind ((makeFunction_restores _ _ _).bind fun _ => Restores.pure _)
        fun methods => inductionHypothesis methods

theorem makeInstance_restores (owner : ClassValue) : Restores (makeInstance owner) :=
  Restores.modifyGet fun _ => ⟨rfl, rfl, rfl, rfl⟩

theorem bindMethod_restores (method : FunctionValue) (id : Nat) :
    Restores (bindMethod method id) :=
  (pushFrame_restores _).bind fun _ => (defineIn_restores _ _ _).bind fun _ =>
    makeFunction_restores _ _ _

theorem property_restores (id : Nat) (name : Token) : Restores (property id name) := by
  refine Restores.get.bind fun machine => ?_
  dsimp only
  split
  · exact Restores.pure _
  · exact (Restores.require _ _ _).bind fun method =>
      (bindMethod_restores method id).bind fun _ => Restores.pure _

theorem setField_restores (id : Nat) (name : Token) (value : Value) :
    Restores (setField id name value) :=
  Restores.modify fun _ => ⟨rfl, rfl, rfl, rfl⟩

theorem applyUnary_restores (operator : Token) (operand : Value) :
    Restores (applyUnary operator operand : Eval Value) := by
  unfold applyUnary
  split
  case h_1 | h_3 => exact Restores.pure _
  case h_2 | h_4 => exact Restores.fail _ _

theorem applyBinary_restores (operator : Token) (left right : Value) :
    Restores (applyBinary operator left right : Eval Value) := by
  unfold applyBinary
  split
  case h_1 =>
      split
      case h_1 | h_2 => exact Restores.pure _
      case h_3 => exact Restores.fail _ _
  case h_2 | h_3 => exact Restores.pure _
  case h_4 =>
      split
      case h_1 => exact Restores.require _ _ _
      case h_2 => exact Restores.fail _ _

theorem checkArity_restores (paren : Token) (expected found : Nat) :
    Restores (checkArity paren expected found : Eval Unit) :=
  Restores.ite (Restores.pure _) (Restores.fail _ _)

end Steps

/-! ### Expressions and statements -/

/-- Calls of functions put back where they stood. -/
def CallsRestore (invoke : Invoke) : Prop :=
  ∀ function paren arguments, Restores (invoke function paren arguments)

variable {invoke : Invoke}

theorem callValue_restores (calls : CallsRestore invoke) (callee : Value) (paren : Token)
    (arguments : List Value) : Restores (callValue invoke callee paren arguments) := by
  unfold callValue
  split
  case h_1 =>
      exact (checkArity_restores _ _ _).bind fun _ => readClock_restores.bind fun _ =>
        Restores.pure _
  case h_2 function =>
      exact (checkArity_restores _ _ _).bind fun _ => calls function paren arguments
  case h_3 owner =>
      refine (checkArity_restores _ _ _).bind fun _ => ?_
      refine (makeInstance_restores owner).bind fun id => ?_
      cases owner.initializer? with
      | none => exact Restores.pure _
      | some initializer =>
          exact (bindMethod_restores initializer id).bind fun bound =>
            (calls bound paren arguments).bind fun _ => Restores.pure _
  case h_4 => exact Restores.fail _ _

mutual

/-- By induction on the expression. -/
theorem evaluate_restores (calls : CallsRestore invoke) :
    (expression : Expression) → Restores (evaluate invoke expression)
  | .literal _ _ => Restores.pure _
  | .grouping _ inner => evaluate_restores calls inner
  | .unary _ operator operand =>
      (evaluate_restores calls operand).bind fun value => applyUnary_restores operator value
  | .binary _ left operator right =>
      (evaluate_restores calls left).bind fun first =>
        (evaluate_restores calls right).bind fun second =>
          applyBinary_restores operator first second
  | .logical _ left _ right =>
      (evaluate_restores calls left).bind fun _ =>
        Restores.ite (Restores.pure _) (evaluate_restores calls right)
  | .variable id name => lookUp_restores id name
  | .this id keyword => lookUp_restores id keyword
  | .assign id name value =>
      (evaluate_restores calls value).bind fun value =>
        (assign_restores id name value).bind fun _ => Restores.pure _
  | .call _ callee paren arguments =>
      (evaluate_restores calls callee).bind fun callee =>
        (evaluateAll_restores calls arguments).bind fun values =>
          callValue_restores calls callee paren values
  | .get _ object name => by
      refine (evaluate_restores calls object).bind fun target => ?_
      cases target with
      | «instance» id => exact property_restores id name
      | _ => exact Restores.fail _ _
  | .set _ object name value => by
      refine (evaluate_restores calls object).bind fun target => ?_
      cases target with
      | «instance» id =>
          exact (evaluate_restores calls value).bind fun value =>
            (setField_restores id name value).bind fun _ => Restores.pure _
      | _ => exact Restores.fail _ _

theorem evaluateAll_restores (calls : CallsRestore invoke) :
    (expressions : List Expression) → Restores (evaluateAll invoke expressions)
  | [] => Restores.pure _
  | expression :: rest =>
      (evaluate_restores calls expression).bind fun _ =>
        (evaluateAll_restores calls rest).bind fun _ => Restores.pure _

end

theorem evaluateOptional_restores (calls : CallsRestore invoke)
    (expression : Option Expression) :
    Restores (evaluateOptional invoke expression) := by
  cases expression with
  | none => exact Restores.pure _
  | some expression => exact evaluate_restores calls expression

/-- By induction on the rounds. -/
theorem repeatWhile_restores {condition : Eval Value} {body : Eval Completion}
    (tests : Restores condition) (goes : Restores body) (rounds : Nat) :
    Restores (repeatWhile condition body rounds) := by
  induction rounds with
  | zero => exact Restores.outOfFuel
  | succ rounds inductionHypothesis =>
      refine tests.bind fun value => Restores.ite (goes.bind fun completion => ?_) (Restores.pure _)
      cases completion with
      | normal => exact inductionHypothesis
      | returned value => exact Restores.pure _

theorem defineClass_restores (name : Token) (methods : List FunctionDeclaration) :
    Restores (defineClass name methods) :=
  (define_restores _ _).bind fun _ => (makeMethods_restores methods).bind fun _ =>
    freshIdentity_restores.bind fun _ => assignNearest_restores _ _

mutual

/-- By induction on the statement, whatever fuel there is for loops. -/
theorem execute_restores (calls : CallsRestore invoke) (rounds : Nat) :
    (statement : Statement) → Restores (execute invoke rounds statement)
  | .expression value =>
      (evaluate_restores calls value).bind fun _ => Restores.pure _
  | .print value =>
      (evaluate_restores calls value).bind fun value => (printValue_restores value).bind fun _ =>
        Restores.pure _
  | .var _ initializer =>
      (evaluateOptional_restores calls initializer).bind fun _ =>
        (define_restores _ _).bind fun _ => Restores.pure _
  | .block statements =>
      Restores.get.bind fun _ => (pushFrame_restores _).bind fun frame =>
        (executeAll_restores calls rounds statements).within frame
  | .conditional condition thenBranch none =>
      (evaluate_restores calls condition).bind fun _ =>
        Restores.ite (execute_restores calls rounds thenBranch) (Restores.pure _)
  | .conditional condition thenBranch (some elseBranch) =>
      (evaluate_restores calls condition).bind fun _ =>
        Restores.ite (execute_restores calls rounds thenBranch)
          (execute_restores calls rounds elseBranch)
  | .loop condition body =>
      repeatWhile_restores (evaluate_restores calls condition)
        (execute_restores calls rounds body) rounds
  | .function _ =>
      Restores.get.bind fun _ => (makeFunction_restores _ _ _).bind fun _ =>
        (define_restores _ _).bind fun _ => Restores.pure _
  | .return _ value =>
      (evaluateOptional_restores calls value).bind fun _ => Restores.pure _
  | .class name methods => (defineClass_restores name methods).bind fun _ => Restores.pure _

theorem executeAll_restores (calls : CallsRestore invoke) (rounds : Nat) :
    (statements : List Statement) → Restores (executeAll invoke rounds statements)
  | [] => Restores.pure _
  | statement :: rest => by
      refine (execute_restores calls rounds statement).bind fun completion => ?_
      cases completion with
      | normal => exact executeAll_restores calls rounds rest
      | returned value => exact Restores.pure _

end

/-! ### Calls -/

theorem bindParameters_restores (frame : Nat) (pairs : List (Token × Value)) :
    Restores (pairs.forM fun (parameter, argument) =>
      defineIn frame parameter.lexeme argument) := by
  induction pairs with
  | nil => exact Restores.pure _
  | cons pair pairs inductionHypothesis =>
      exact (defineIn_restores _ _ _).bind fun _ => inductionHypothesis

theorem callFunction_restores {run : List Statement → Eval Completion}
    (runs : ∀ statements, Restores (run statements)) (function : FunctionValue) (paren : Token)
    (arguments : List Value) : Restores (callFunction run function paren arguments) := by
  refine Restores.get.bind fun machine => Restores.ite (Restores.fail _ _) ?_
  refine (pushFrame_restores _).bind fun frame => ?_
  refine (bindParameters_restores frame _).bind fun _ => ?_
  refine ((runs _).within frame).deeper.bind fun completion => ?_
  refine Restores.ite (Restores.get.bind fun _ => Restores.pure _) ?_
  cases completion with
  | normal => exact Restores.pure _
  | returned value => exact Restores.pure _

/-- By induction on the fuel for calls. -/
theorem invoke_restores (fuel : Nat) : CallsRestore (Evaluation.invoke fuel) := by
  induction fuel with
  | zero => exact fun _ _ _ => Restores.outOfFuel
  | succ fuel inductionHypothesis =>
      exact callFunction_restores (executeAll_restores inductionHypothesis fuel)

end Lox.Evaluation
