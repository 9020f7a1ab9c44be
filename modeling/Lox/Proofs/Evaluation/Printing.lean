import Lox.Proofs.Evaluation.Course
import Lox.Proofs.Evaluation.Definitions
import Lox.Proofs.Evaluation.Stack

/-!
Contract: what is printed, and that nothing else depends on where it goes.

Owns:
- `Point.line?` and `Point.printed`: the lines of the print statements that are executed from a
  point on, in the order in which they are;
- `Prints`: a computation prints given lines, into whatever output there is, and does the same
  otherwise;
- how it composes, and that what is done at a point prints the lines of the point.

Does not own: sessions.
-/

namespace Lox

namespace Output

/-- Print lines in order. -/
def printAll (lines : List String) (output : Output) : Output :=
  lines.foldl (fun output line => output.print line) output

@[simp] theorem printAll_nil (output : Output) : output.printAll [] = output :=
  rfl

@[simp] theorem printAll_append (lines more : List String) (output : Output) :
    output.printAll (lines ++ more) = (output.printAll lines).printAll more :=
  List.foldl_append

/-- A sink that takes no lines stays one. -/
@[simp] theorem printAll_broken (lines : List String) : broken.printAll lines = broken := by
  induction lines with
  | nil => rfl
  | cons line rest inductionHypothesis => exact inductionHypothesis

/-- A sink that takes lines has them behind those before. -/
theorem printAll_open (lines : List String) (before : Array String) :
    (Output.open before).printAll lines = .open (before ++ lines.toArray) := by
  induction lines generalizing before with
  | nil => simp [printAll]
  | cons line rest inductionHypothesis =>
      refine (inductionHypothesis (before.push line)).trans ?_
      simp

end Output

/-- Let a machine print to another output. -/
def Machine.setOutput (output : Output) (machine : Machine) : Machine :=
  { machine with output := output }

namespace Evaluation

/-! ### Lines -/

/-- The line that a print statement prints, if its operand has a value. -/
def Point.line? (point : Point) : Option String :=
  match point.task with
  | .statement (.print value) =>
      match evaluate (invoke point.fuel) value point.machine with
      | .ok value later => some (later.display value)
      | .error _ _ => none
  | _ => none

/-- The lines of the print statements that are executed from a point on, in order. -/
def Point.printed (point : Point) : List String :=
  point.course.filterMap Point.line?

/-- The parts print first. -/
theorem Point.printed_eq (point : Point) :
    point.printed = point.parts.flatMap Point.printed ++ point.line?.toList := by
  unfold Point.printed
  rw [Point.course_eq, List.filterMap_append, List.filterMap_flatMap]
  congr 1

/-! ### Composition -/

/-- A result on a machine that prints to another output. -/
def settingOutput {α : Type} (output : Output) :
    EStateM.Result Halt Machine α → EStateM.Result Halt Machine α
  | .ok value later => .ok value (later.setOutput output)
  | .error halt later => .error halt (later.setOutput output)

/-- On a machine a computation prints given lines, into whatever output there is. Whatever else it
does is the same. -/
def Prints {α : Type} (computation : Eval α) (machine : Machine) (lines : List String) : Prop :=
  ∀ output, computation (machine.setOutput output) =
    settingOutput (output.printAll lines) (computation machine)

namespace Prints

variable {α β : Type} {machine : Machine} {lines : List String}

/-- A computation that neither prints nor looks at what has been printed. -/
theorem quiet {computation : Eval α}
    (same : ∀ output, computation (machine.setOutput output) =
      settingOutput output (computation machine)) : Prints computation machine [] :=
  same

theorem cast {computation : Eval α} {others : List String}
    (prints : Prints computation machine lines) (same : lines = others) :
    Prints computation machine others :=
  same ▸ prints

theorem pure (value : α) : Prints (Pure.pure value) machine [] :=
  fun _ => rfl

theorem outOfFuel : Prints (throw .outOfFuel : Eval α) machine [] :=
  fun _ => rfl

theorem fail (token : Token) (fault : RuntimeFault) :
    Prints (Evaluation.fail token fault : Eval α) machine [] :=
  fun _ => rfl

theorem require (token : Token) (fault : RuntimeFault) (value : Option α) :
    Prints (Evaluation.require token fault value) machine [] := by
  cases value with
  | none => exact fail token fault
  | some value => exact pure value

/-- What comes second prints behind what comes first. -/
theorem bind {first : Eval α} {next : α → Eval β} {more : α → Machine → List String}
    (prints : Prints first machine lines)
    (further : ∀ value later, first machine = .ok value later →
      Prints (next value) later (more value later)) :
    Prints (first >>= next) machine (lines ++ following (first machine) more) := by
  intro output
  have before := prints output
  cases result : first machine with
  | ok value later =>
      rw [result] at before
      rw [bind_of_ok next before, bind_of_ok next result, further value later result]
      simp [following]
  | error halt later =>
      rw [result] at before
      rw [bind_of_error next before, bind_of_error next result]
      simp [following, settingOutput]

/-- What comes second prints nothing. -/
theorem andThen {first : Eval α} {next : α → Eval β} (prints : Prints first machine lines)
    (further : ∀ value later, first machine = .ok value later → Prints (next value) later []) :
    Prints (first >>= next) machine lines := by
  refine (prints.bind further).cast ?_
  rw [following_nil, List.append_nil]

/-- What comes first prints nothing. -/
theorem behind {first : Eval α} {next : α → Eval β} {more : α → Machine → List String}
    (prints : Prints first machine [])
    (further : ∀ value later, first machine = .ok value later →
      Prints (next value) later (more value later)) :
    Prints (first >>= next) machine (following (first machine) more) :=
  prints.bind further

theorem ite {condition : Prop} [Decidable condition] {first second : Eval α}
    {others : List String} (whenTrue : Prints first machine lines)
    (whenFalse : Prints second machine others) :
    Prints (if condition then first else second) machine (if condition then lines else others) := by
  split
  · exact whenTrue
  · exact whenFalse

/-- What reads the machine, but not where it prints. -/
theorem get {next : Machine → Eval α} (prints : Prints (next machine) machine lines)
    (same : ∀ output, next (machine.setOutput output) = next machine) :
    Prints (MonadState.get >>= next) machine lines := by
  intro output
  rw [get_bind, get_bind, same]
  exact prints output

theorem within {computation : Eval α} {frame : Nat}
    (prints : Prints computation { machine with environment := frame } lines) :
    Prints (Evaluation.within frame computation) machine lines := by
  intro output
  have inside := prints output
  show (match computation (Machine.setOutput output { machine with environment := frame }) with
    | .ok value final => EStateM.Result.ok value { final with environment := machine.environment }
    | .error halt final => .error halt { final with environment := machine.environment }) =
      settingOutput _ (Evaluation.within frame computation machine)
  unfold Evaluation.within
  rw [inside]
  cases computation { machine with environment := frame } <;> rfl

theorem deeper {computation : Eval α}
    (prints : Prints computation { machine with depth := machine.depth + 1 } lines) :
    Prints (Evaluation.deeper computation) machine lines := by
  intro output
  have inside := prints output
  show (match computation (Machine.setOutput output
      { machine with depth := machine.depth + 1 }) with
    | .ok value final => EStateM.Result.ok value { final with depth := final.depth - 1 }
    | .error halt final => .error halt { final with depth := final.depth - 1 }) =
      settingOutput _ (Evaluation.deeper computation machine)
  unfold Evaluation.deeper
  rw [inside]
  cases computation { machine with depth := machine.depth + 1 } <;> rfl

end Prints

/-! ### Steps -/

section Steps

variable {machine : Machine}

theorem printValue_prints (value : Value) :
    Prints (printValue value) machine [machine.display value] :=
  fun _ => rfl

theorem freshIdentity_quiet : Prints freshIdentity machine [] :=
  .quiet fun _ => rfl

theorem readClock_quiet : Prints readClock machine [] :=
  .quiet fun _ => rfl

theorem pushFrame_quiet (parent : Nat) : Prints (pushFrame parent) machine [] :=
  .quiet fun _ => rfl

theorem defineIn_quiet (frame : Nat) (name : String) (value : Value) :
    Prints (defineIn frame name value) machine [] :=
  .quiet fun _ => rfl

theorem define_quiet (name : String) (value : Value) : Prints (define name value) machine [] :=
  .quiet fun _ => rfl

theorem lookUp_quiet (id : Nat) (name : Token) : Prints (lookUp id name) machine [] := by
  refine .get ?_ fun _ => rfl
  split
  · exact .require _ _ _
  · exact .require _ _ _

theorem ownerOf_quiet (id : Nat) (name : Token) : Prints (ownerOf id name) machine [] := by
  refine .get ?_ fun _ => rfl
  split
  · exact .require _ _ _
  · exact .require _ _ _

theorem assign_quiet (id : Nat) (name : Token) (value : Value) :
    Prints (assign id name value) machine [] :=
  (ownerOf_quiet id name).andThen fun _ _ _ => defineIn_quiet _ _ _

theorem makeFunction_quiet (declaration : FunctionDeclaration) (closure : Nat)
    (isInitializer : Bool) : Prints (makeFunction declaration closure isInitializer) machine [] :=
  .quiet fun _ => rfl

theorem makeMethods_quiet (declarations : List FunctionDeclaration) :
    Prints (makeMethods declarations) machine [] := by
  obtain ⟨methods, next, result⟩ :=
    makeMethods_result declarations machine.environment machine.nextIdentity
  refine .quiet fun output => ?_
  rw [result machine rfl rfl, result (machine.setOutput output) rfl rfl]
  rfl

theorem assignNearest_quiet (name : Token) (value : Value) :
    Prints (assignNearest name value) machine [] :=
  .get ((Prints.require _ _ _).andThen fun _ _ _ => defineIn_quiet _ _ _) fun _ => rfl

theorem makeInstance_quiet (owner : ClassValue) : Prints (makeInstance owner) machine [] :=
  .quiet fun _ => rfl

theorem bindMethod_quiet (method : FunctionValue) (id : Nat) :
    Prints (bindMethod method id) machine [] :=
  .quiet fun _ => rfl

theorem property_quiet (id : Nat) (name : Token) : Prints (property id name) machine [] := by
  refine .get ?_ fun _ => rfl
  dsimp only
  split
  · exact .pure _
  · exact (Prints.require _ _ _).andThen fun method _ _ =>
      (bindMethod_quiet method id).andThen fun _ _ _ => .pure _

theorem setField_quiet (id : Nat) (name : Token) (value : Value) :
    Prints (setField id name value) machine [] :=
  .quiet fun _ => rfl

theorem applyUnary_quiet (operator : Token) (operand : Value) :
    Prints (applyUnary operator operand) machine [] := by
  unfold applyUnary
  split
  case h_1 | h_3 => exact .pure _
  case h_2 | h_4 => exact .fail _ _

theorem applyBinary_quiet (operator : Token) (left right : Value) :
    Prints (applyBinary operator left right) machine [] := by
  unfold applyBinary
  split
  case h_1 =>
      split
      case h_1 | h_2 => exact .pure _
      case h_3 => exact .fail _ _
  case h_2 | h_3 => exact .pure _
  case h_4 =>
      split
      case h_1 => exact .require _ _ _
      case h_2 => exact .fail _ _

theorem checkArity_quiet (paren : Token) (expected found : Nat) :
    Prints (checkArity paren expected found) machine [] := by
  unfold checkArity
  split
  case isTrue => exact .pure _
  case isFalse => exact .fail _ _

/-- What follows a check goes on only if the check succeeds. -/
theorem checkArity_prints {α : Type} {paren : Token} {expected found : Nat} {next : Unit → Eval α}
    {lines : List String} (prints : expected = found → Prints (next ()) machine lines) :
    Prints (checkArity paren expected found >>= next) machine
      (if expected = found then lines else []) := by
  unfold checkArity
  split
  case isTrue matching => exact prints matching
  case isFalse => exact .fail _ _

theorem defineClass_quiet (name : Token) (methods : List FunctionDeclaration) :
    Prints (defineClass name methods) machine [] :=
  (define_quiet _ _).andThen fun _ _ _ => (makeMethods_quiet methods).andThen fun _ _ _ =>
    freshIdentity_quiet.andThen fun _ _ _ => assignNearest_quiet _ _

end Steps

/-! ### The lines of a point -/

/-- All that is not a print statement prints what its parts print. -/
theorem Point.printed_of_silent {point : Point} (silent : point.line? = none) :
    point.printed = point.parts.flatMap Point.printed := by
  rw [Point.printed_eq, silent]
  exact List.append_nil _

section Lines

variable {fuel : Nat} {machine : Machine}

theorem printed_expression (initialized : Option Token) (value : Expression) :
    Point.printed ⟨fuel, .expression initialized value, machine⟩ =
      (expressionParts fuel machine initialized value).flatMap Point.printed :=
  Point.printed_of_silent rfl

theorem printed_expressions (initialized : Option Token) (values : List Expression) :
    Point.printed ⟨fuel, .expressions initialized values, machine⟩ =
      (expressionsParts fuel machine initialized values).flatMap Point.printed :=
  Point.printed_of_silent rfl

theorem printed_assignment (initialized : Option Token) (id : Nat) (name : Token) (value : Value) :
    Point.printed ⟨fuel, .assignment initialized id name value, machine⟩ = [] :=
  Point.printed_of_silent rfl

theorem printed_application (callee : Value) (paren : Token) (arguments : List Value) :
    Point.printed ⟨fuel, .application callee paren arguments, machine⟩ =
      (applicationParts fuel machine paren arguments callee).flatMap Point.printed :=
  Point.printed_of_silent rfl

theorem printed_call (function : FunctionValue) (paren : Token) (arguments : List Value) :
    Point.printed ⟨fuel, .call function paren arguments, machine⟩ =
      (callParts machine function arguments fuel).flatMap Point.printed :=
  Point.printed_of_silent rfl

theorem printed_statements (parts : List Statement) :
    Point.printed ⟨fuel, .statements parts, machine⟩ =
      (statementsParts fuel machine parts).flatMap Point.printed :=
  Point.printed_of_silent rfl

theorem printed_rounds (condition : Expression) (body : Statement) (left : Nat) :
    Point.printed ⟨fuel, .rounds condition body left, machine⟩ =
      (roundsParts fuel machine condition body left).flatMap Point.printed :=
  Point.printed_of_silent rfl

end Lines

/-! ### Expressions -/

/-- Calls of functions print the lines of the point at which they are called. -/
def CallsPrint (fuel : Nat) : Prop :=
  ∀ function paren arguments machine, Prints (invoke fuel function paren arguments) machine
    (Point.printed ⟨fuel, .call function paren arguments, machine⟩)

section Constructs

variable {fuel : Nat}

theorem callValue_prints (calls : CallsPrint fuel) (callee : Value) (paren : Token)
    (arguments : List Value) (machine : Machine) :
    Prints (callValue (invoke fuel) callee paren arguments) machine
      (Point.printed ⟨fuel, .application callee paren arguments, machine⟩) := by
  rw [printed_application]
  cases callee with
  | native function =>
      cases function with
      | clock =>
          exact (checkArity_quiet _ _ _).andThen fun _ _ _ => readClock_quiet.andThen fun _ _ _ =>
            .pure _
  | function function =>
      exact (checkArity_prints fun _ => calls function paren arguments machine).cast
        (by rw [applicationParts, flatMap_ite, List.flatMap_singleton])
  | «class» owner =>
      cases present : owner.initializer? with
      | none =>
          have prints : Prints (callValue (invoke fuel) (.class owner) paren arguments) machine
              (if owner.arity = arguments.length then [] else []) := by
            unfold callValue
            simp only [present]
            exact checkArity_prints fun _ => (makeInstance_quiet owner).andThen fun _ _ _ => .pure _
          exact prints.cast (by rw [applicationParts, present, flatMap_ite, List.flatMap_nil])
      | some method =>
          have prints : Prints (callValue (invoke fuel) (.class owner) paren arguments) machine
              (if owner.arity = arguments.length then
                following (makeInstance owner machine) fun id middle =>
                  following (bindMethod method id middle) fun bound later =>
                    Point.printed ⟨fuel, .call bound paren arguments, later⟩
              else []) := by
            unfold callValue
            simp only [present]
            exact checkArity_prints fun _ => (makeInstance_quiet owner).behind fun id middle _ =>
              (bindMethod_quiet method id).behind fun bound later _ =>
                (calls bound paren arguments later).andThen fun _ _ _ => .pure _
          refine prints.cast ?_
          rw [applicationParts, present, flatMap_ite]
          simp only [flatMap_following, List.flatMap_singleton]
  | _ => exact .fail _ _

mutual

/-- By induction on the expression. -/
theorem evaluate_prints (calls : CallsPrint fuel) (initialized : Option Token) :
    (expression : Expression) → (machine : Machine) →
    Prints (evaluate (invoke fuel) expression) machine
      (Point.printed ⟨fuel, .expression initialized expression, machine⟩)
  | .literal _ _, _ => (Prints.pure _).cast (by simp [printed_expression, expressionParts])
  | .grouping _ inner, machine => by
      rw [printed_expression]
      exact (evaluate_prints calls initialized inner machine).cast (by simp [expressionParts])
  | .unary _ operator operand, machine => by
      rw [printed_expression]
      exact ((evaluate_prints calls initialized operand machine).andThen fun _ _ _ =>
        applyUnary_quiet _ _).cast (by simp [expressionParts])
  | .binary _ left operator right, machine => by
      rw [printed_expression]
      exact ((evaluate_prints calls initialized left machine).bind fun _ later _ =>
        (evaluate_prints calls initialized right later).andThen fun _ _ _ =>
          applyBinary_quiet _ _ _).cast (by simp [expressionParts, flatMap_following])
  | .logical _ left operator right, machine => by
      rw [printed_expression]
      exact ((evaluate_prints calls initialized left machine).bind fun _ later _ =>
        .ite (.pure _) (evaluate_prints calls initialized right later)).cast
          (by simp [expressionParts, flatMap_following, apply_ite])
  | .variable id name, _ => (lookUp_quiet id name).cast (by simp [printed_expression, expressionParts])
  | .this id keyword, _ => (lookUp_quiet id keyword).cast (by simp [printed_expression, expressionParts])
  | .assign id name value, machine => by
      rw [printed_expression]
      exact ((evaluate_prints calls initialized value machine).andThen fun value _ _ =>
        (assign_quiet id name value).andThen fun _ _ _ => .pure _).cast
          (by simp [expressionParts, flatMap_following, printed_assignment])
  | .call _ callee paren arguments, machine => by
      rw [printed_expression]
      exact ((evaluate_prints calls initialized callee machine).bind fun callee middle _ =>
        (evaluateAll_prints calls initialized arguments middle).bind fun values later _ =>
          callValue_prints calls callee paren values later).cast
            (by simp [expressionParts, flatMap_following])
  | .get _ object name, machine => by
      rw [printed_expression]
      refine ((evaluate_prints calls initialized object machine).andThen fun target _ _ => ?_).cast
        (by simp [expressionParts])
      cases target with
      | «instance» id => exact property_quiet id name
      | _ => exact .fail _ _
  | .set node object name value, machine => by
      rw [printed_expression]
      have prints : Prints (evaluate (invoke fuel) (.set node object name value)) machine
          (Point.printed ⟨fuel, .expression initialized object, machine⟩ ++
            following (evaluate (invoke fuel) object machine) fun target later =>
              match target with
              | .instance _ => Point.printed ⟨fuel, .expression initialized value, later⟩
              | _ => []) :=
        (evaluate_prints calls initialized object machine).bind fun target later _ => by
          cases target with
          | «instance» id =>
              exact (evaluate_prints calls initialized value later).andThen fun _ _ _ =>
                (setField_quiet id name _).andThen fun _ _ _ => .pure _
          | _ => exact .fail _ _
      refine prints.cast ?_
      rw [expressionParts, List.flatMap_cons, flatMap_following]
      congr 2
      funext target later
      cases target <;> simp

theorem evaluateAll_prints (calls : CallsPrint fuel) (initialized : Option Token) :
    (expressions : List Expression) → (machine : Machine) →
    Prints (evaluateAll (invoke fuel) expressions) machine
      (Point.printed ⟨fuel, .expressions initialized expressions, machine⟩)
  | [], _ => (Prints.pure _).cast (by simp [printed_expressions, expressionsParts])
  | expression :: rest, machine => by
      rw [printed_expressions]
      exact ((evaluate_prints calls initialized expression machine).bind fun _ later _ =>
        (evaluateAll_prints calls initialized rest later).andThen fun _ _ _ =>
          .pure _).cast (by simp [expressionsParts, flatMap_following])

end

theorem evaluateOptional_prints (calls : CallsPrint fuel) (initialized : Option Token)
    (value : Option Expression) (machine : Machine) :
    Prints (evaluateOptional (invoke fuel) value) machine (value.toList.flatMap fun value =>
      Point.printed ⟨fuel, .expression initialized value, machine⟩) := by
  cases value with
  | none => exact .pure _
  | some value =>
      exact (evaluate_prints calls initialized value machine).cast (by simp)

/-! ### Statements -/

/-- A print statement prints one line, behind those of its operand, if the operand has a value. -/
theorem printed_print (value : Expression) (machine : Machine) :
    Point.printed ⟨fuel, .statement (.print value), machine⟩ =
      Point.printed ⟨fuel, .expression none value, machine⟩ ++
        following (evaluate (invoke fuel) value machine) fun value later =>
          [later.display value] := by
  rw [Point.printed_eq]
  simp only [Point.parts, statementParts, Point.line?, List.flatMap_singleton]
  cases evaluate (invoke fuel) value machine <;> rfl

/-- What is printed behind a statement, if it did not return. -/
def linesBehind (lines : List String) : Completion → List String
  | .normal => lines
  | .returned _ => []

/-- By induction on the rounds that are left. -/
theorem repeatWhile_prints {condition : Expression} {body : Statement}
    (conditionPrints : ∀ machine, Prints (evaluate (invoke fuel) condition) machine
      (Point.printed ⟨fuel, .expression none condition, machine⟩))
    (bodyPrints : ∀ machine, Prints (execute (invoke fuel) fuel body) machine
      (Point.printed ⟨fuel, .statement body, machine⟩)) (left : Nat) (machine : Machine) :
    Prints (repeatWhile (evaluate (invoke fuel) condition) (execute (invoke fuel) fuel body) left)
      machine (Point.printed ⟨fuel, .rounds condition body left, machine⟩) := by
  induction left generalizing machine with
  | zero => exact Prints.outOfFuel.cast (by simp [printed_rounds, roundsParts])
  | succ left inductionHypothesis =>
      have prints : Prints (repeatWhile (evaluate (invoke fuel) condition)
          (execute (invoke fuel) fuel body) (left + 1)) machine
          (Point.printed ⟨fuel, .expression none condition, machine⟩ ++
            following (evaluate (invoke fuel) condition machine) fun value middle =>
              if value.isTruthy then
                Point.printed ⟨fuel, .statement body, middle⟩ ++
                  following (execute (invoke fuel) fuel body middle) fun completion later =>
                    linesBehind (Point.printed ⟨fuel, .rounds condition body left, later⟩) completion
              else []) :=
        (conditionPrints machine).bind fun _ middle _ =>
          .ite ((bodyPrints middle).bind fun completion later _ => by
            cases completion with
            | normal => exact inductionHypothesis later
            | returned => exact .pure _) (.pure _)
      refine prints.cast ?_
      rw [printed_rounds, roundsParts]
      simp only [List.flatMap_cons, flatMap_following, flatMap_ite]
      congr 2
      funext value middle
      congr 3
      funext completion later
      cases completion <;> simp [linesBehind]

mutual

/-- By induction on the statement. -/
theorem execute_prints (calls : CallsPrint fuel) :
    (statement : Statement) → (machine : Machine) →
    Prints (execute (invoke fuel) fuel statement) machine
      (Point.printed ⟨fuel, .statement statement, machine⟩)
  | .expression value, machine => by
      rw [Point.printed_of_silent rfl]
      exact ((evaluate_prints calls none value machine).andThen fun _ _ _ => .pure _).cast
        (by simp [Point.parts, statementParts])
  | .print value, machine => by
      rw [printed_print]
      exact (evaluate_prints calls none value machine).bind fun _ _ _ =>
        (printValue_prints _).andThen fun _ _ _ => .pure _
  | .var name initializer, machine => by
      rw [Point.printed_of_silent rfl]
      refine ((evaluateOptional_prints calls (some name) initializer machine).andThen fun _ _ _ =>
        (define_quiet _ _).andThen fun _ _ _ => .pure _).cast ?_
      cases initializer <;> simp [Point.parts, statementParts]
  | .block statements, machine => by
      rw [Point.printed_of_silent rfl]
      have inside (frame : Nat) (opened : Machine) :
          Prints (within frame (executeAll (invoke fuel) fuel statements)) opened
            (Point.printed ⟨fuel, .statements statements, { opened with environment := frame }⟩) :=
        .within (executeAll_prints calls statements _)
      exact (Prints.get ((pushFrame_quiet machine.environment).behind fun frame opened _ =>
        inside frame opened) fun _ => rfl).cast (List.flatMap_singleton _ _).symm
  | .conditional condition thenBranch none, machine => by
      rw [Point.printed_of_silent rfl]
      exact ((evaluate_prints calls none condition machine).bind fun _ later _ =>
        .ite (execute_prints calls thenBranch later) (.pure _)).cast
          (by simp [Point.parts, statementParts, flatMap_following, flatMap_ite])
  | .conditional condition thenBranch (some elseBranch), machine => by
      rw [Point.printed_of_silent rfl]
      exact ((evaluate_prints calls none condition machine).bind fun _ later _ =>
        .ite (execute_prints calls thenBranch later) (execute_prints calls elseBranch later)).cast
          (by simp [Point.parts, statementParts, flatMap_following, apply_ite])
  | .loop condition body, machine => by
      rw [Point.printed_of_silent rfl]
      exact (repeatWhile_prints (evaluate_prints calls none condition) (execute_prints calls body)
        fuel machine).cast (by simp [Point.parts, statementParts])
  | .function declaration, machine => by
      rw [Point.printed_of_silent rfl]
      exact Prints.get ((makeFunction_quiet declaration machine.environment false).andThen
        fun _ _ _ => (define_quiet _ _).andThen fun _ _ _ => .pure _) fun _ => rfl
  | .return _ value, machine => by
      rw [Point.printed_of_silent rfl]
      refine ((evaluateOptional_prints calls none value machine).andThen fun _ _ _ =>
        .pure _).cast ?_
      cases value <;> simp [Point.parts, statementParts]
  | .class name methods, machine => by
      rw [Point.printed_of_silent rfl]
      exact (defineClass_quiet name methods).andThen fun _ _ _ => .pure _

theorem executeAll_prints (calls : CallsPrint fuel) :
    (statements : List Statement) → (machine : Machine) →
    Prints (executeAll (invoke fuel) fuel statements) machine
      (Point.printed ⟨fuel, .statements statements, machine⟩)
  | [], _ => (Prints.pure _).cast (by simp [printed_statements, statementsParts])
  | statement :: rest, machine => by
      rw [printed_statements]
      have prints : Prints (executeAll (invoke fuel) fuel (statement :: rest)) machine
          (Point.printed ⟨fuel, .statement statement, machine⟩ ++
            following (execute (invoke fuel) fuel statement machine) fun completion later =>
              linesBehind (Point.printed ⟨fuel, .statements rest, later⟩) completion) :=
        (execute_prints calls statement machine).bind fun completion later _ => by
          cases completion with
          | normal => exact executeAll_prints calls rest later
          | returned => exact .pure _
      refine prints.cast ?_
      simp only [statementsParts, List.flatMap_cons, flatMap_following]
      congr 2
      funext completion later
      cases completion <;> simp [linesBehind]

end

end Constructs

/-! ### Calls -/

theorem bindParameters_quiet (frame : Nat) (pairs : List (Token × Value)) (machine : Machine) :
    Prints (pairs.forM fun (parameter, argument) => defineIn frame parameter.lexeme argument)
      machine [] := by
  induction pairs generalizing machine with
  | nil => exact .pure _
  | cons pair rest inductionHypothesis =>
      exact (defineIn_quiet frame pair.1.lexeme pair.2).andThen fun _ later _ =>
        inductionHypothesis later

theorem openFrame_quiet (function : FunctionValue) (arguments : List Value) (machine : Machine) :
    Prints (openFrame function arguments) machine [] :=
  (pushFrame_quiet _).andThen fun frame opened _ =>
    (bindParameters_quiet frame _ opened).andThen fun _ _ _ => .pure _

theorem callResult_quiet (function : FunctionValue) (completion : Completion) (machine : Machine) :
    Prints (callResult function completion) machine [] := by
  unfold callResult
  split
  case isTrue => exact .get (.pure _) fun _ => rfl
  case isFalse =>
      cases completion with
      | normal => exact .pure _
      | returned value => exact .pure _

/-- By induction on the fuel. -/
theorem invoke_prints (fuel : Nat) : CallsPrint fuel := by
  induction fuel with
  | zero =>
      intro function paren arguments machine
      exact Prints.outOfFuel.cast (by simp [printed_call, callParts])
  | succ fuel inductionHypothesis =>
      intro function paren arguments machine
      rw [printed_call, callParts]
      rcases Nat.lt_or_ge machine.depth maxDepth with shallow | deep
      · have body (frame : Nat) (opened : Machine) :
            Prints (deeper (within frame
                (executeAll (invoke fuel) fuel function.declaration.body))) opened
              (Point.printed ⟨fuel, .statements function.declaration.body,
                { opened with depth := opened.depth + 1, environment := frame }⟩) :=
          .deeper (.within (executeAll_prints inductionHypothesis _ _))
        have prints := (openFrame_quiet function arguments machine).behind
          fun frame opened _ => (body frame opened).andThen fun completion later _ =>
            callResult_quiet function completion later
        intro output
        have called (machine : Machine) (shallow : machine.depth < maxDepth) :=
          callFunction_of_shallow (executeAll (invoke fuel) fuel) function paren arguments shallow
        refine (called (machine.setOutput output) shallow).trans ((prints output).trans ?_)
        rw [if_pos shallow, flatMap_following]
        simp only [List.flatMap_singleton]
        exact congrArg (settingOutput _) (called machine shallow).symm
      · rw [if_neg (Nat.not_lt_of_le deep)]
        intro output
        have stops (machine : Machine) (deep : maxDepth ≤ machine.depth) :=
          callFunction_of_deep (executeAll (invoke fuel) fuel) function paren arguments deep
        exact (stops (machine.setOutput output) deep).trans
          (congrArg (settingOutput output) (stops machine deep)).symm

/-- Statements print the lines of the point at which they start, and look at none of them. -/
theorem statements_print (fuel : Nat) (statements : List Statement) (machine : Machine) :
    Prints (interpret fuel statements) machine
      (Point.printed ⟨fuel, .statements statements, machine⟩) :=
  (executeAll_prints (invoke_prints fuel) statements machine).andThen fun _ _ _ => .pure _

end Evaluation

end Lox
