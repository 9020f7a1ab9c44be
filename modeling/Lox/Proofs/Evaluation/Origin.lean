import Lox.Proofs.Evaluation.Definitions
import Lox.Proofs.Evaluation.Reach

/-!
Contract: what stops evaluation.

Owns:
- what it is to look up or to assign a name that has a record;
- that no point comes to itself again, over however many points;
- that evaluation stops with whatever stops a point that it comes to;
- that evaluation which stops at a missing local name has come to a point at which this very
  name is looked up or assigned, and is missing;
- that evaluation stops because calls are too deep if and only if it comes to a call when no
  further one can be entered.
-/

namespace Lox.Evaluation

/-! ### Names with a record -/

section Names

variable {machine : Machine} {id distance : Nat}

theorem lookUp_of_local (isLocal : machine.locals[id]? = some distance) (name : Token) :
    lookUp id name machine = require name (.unboundLocal name.lexeme)
      (machine.frames.getAt? machine.environment distance name.lexeme) machine := by
  unfold lookUp
  rw [get_bind, isLocal]

theorem ownerOf_of_local (isLocal : machine.locals[id]? = some distance) (name : Token) :
    ownerOf id name machine = require name (.unboundLocal name.lexeme)
      (machine.frames.owner? machine.environment distance name.lexeme) machine := by
  unfold ownerOf
  rw [get_bind, isLocal]

theorem lookUp_of_global (isGlobal : machine.locals[id]? = none) (name : Token) :
    lookUp id name machine = require name (.undefinedVariable name.lexeme)
      (machine.frames.get? machine.globals name.lexeme) machine := by
  unfold lookUp
  rw [get_bind, isGlobal]

theorem ownerOf_of_global (isGlobal : machine.locals[id]? = none) (name : Token) :
    ownerOf id name machine = require name (.undefinedVariable name.lexeme)
      (machine.frames.find? name.lexeme machine.globals) machine := by
  unfold ownerOf
  rw [get_bind, isGlobal]

/-- A name that the frame at the recorded distance binds can be assigned. -/
theorem assign_of_owner (isLocal : machine.locals[id]? = some distance) {name : Token}
    {owner : Nat}
    (owns : machine.frames.owner? machine.environment distance name.lexeme = some owner)
    (value : Value) :
    assign id name value machine =
      .ok () { machine with frames := machine.frames.define owner name.lexeme value } := by
  have found : ownerOf id name machine = .ok owner machine := by
    rw [ownerOf_of_local isLocal, owns]
    rfl
  unfold assign
  rw [bind_of_ok _ found]
  rfl

end Names

/-! ### Points in order -/

/-- The size of what is to be done. The rounds of a loop come between the loop and its
parts, and the application of a value between a call and its function. -/
noncomputable def Task.size : Task → Nat
  | .expression _ value => 2 * sizeOf value
  | .expressions _ values => 2 * sizeOf values
  | .assignment .. | .call .. => 0
  | .application .. => 1
  | .statement part => 2 * sizeOf part
  | .statements parts => 2 * sizeOf parts
  | .rounds condition body _ => 2 * sizeOf condition + 2 * sizeOf body + 1

/-- How many rounds are left. -/
def Task.left : Task → Nat
  | .rounds _ _ left => left
  | _ => 0

/-- A point comes to points with less fuel, or with a smaller task, or with fewer rounds. -/
noncomputable def Point.rank (point : Point) : Nat × Nat × Nat :=
  (point.fuel, point.task.size, point.task.left)

theorem Demands.rank_lt {point next : Point} (demands : Demands point next) :
    Prod.Lex (· < ·) (Prod.Lex (· < ·) (· < ·)) next.rank point.rank := by
  simp only [Prod.lex_def, Point.rank]
  cases demands with
  | nextRound => exact Or.inr ⟨rfl, Or.inr ⟨rfl, Nat.lt_succ_self _⟩⟩
  | body => exact Or.inl (Nat.lt_succ_self _)
  | _ =>
      refine Or.inr ⟨rfl, Or.inl ?_⟩
      simp [Task.size] <;> omega

/-! ### Computations that stop -/

/-- Doing what is to be done at a point stops. -/
def Point.Halts (point : Point) (halt : Halt) : Prop :=
  ∃ final, match point.task with
    | .expression _ value =>
        evaluate (invoke point.fuel) value point.machine = .error halt final
    | .expressions _ values =>
        evaluateAll (invoke point.fuel) values point.machine = .error halt final
    | .assignment _ id name value => assign id name value point.machine = .error halt final
    | .application callee paren arguments =>
        callValue (invoke point.fuel) callee paren arguments point.machine = .error halt final
    | .call function paren arguments =>
        invoke point.fuel function paren arguments point.machine = .error halt final
    | .statement part =>
        execute (invoke point.fuel) point.fuel part point.machine = .error halt final
    | .statements parts =>
        executeAll (invoke point.fuel) point.fuel parts point.machine = .error halt final
    | .rounds condition body left =>
        repeatWhile (evaluate (invoke point.fuel) condition)
          (execute (invoke point.fuel) point.fuel body) left point.machine = .error halt final

/-- The halt of a local name that is missing. -/
abbrev missing (name : Token) (text : String) : Halt :=
  .fault ⟨name, .unboundLocal text⟩

/-- The halt of a call that is too deep. -/
abbrev tooDeep (paren : Token) : Halt :=
  .fault ⟨paren, .stackOverflow⟩

/-- A name is looked up or assigned at a point, and the frame at the distance recorded for it
does not bind it. -/
def Point.Misses (point : Point) (missed : Token) : Prop :=
  match point.task with
  | .expression _ (.variable id name) | .expression _ (.this id name) =>
      missed = name ∧ ∃ distance, point.machine.locals[id]? = some distance ∧
        point.machine.frames.getAt? point.machine.environment distance name.lexeme = none
  | .assignment _ id name _ =>
      missed = name ∧ ∃ distance, point.machine.locals[id]? = some distance ∧
        point.machine.frames.owner? point.machine.environment distance name.lexeme = none
  | _ => False

/-- A function is called at a point, though no further call can be entered. -/
def Point.Overflows (point : Point) (paren : Token) : Prop :=
  ∃ fuel function arguments, point.fuel = fuel + 1 ∧ point.task = .call function paren arguments ∧
    maxDepth ≤ point.machine.depth

/-- A point stops with a halt itself: at a missing local name, or at a call that is too deep. -/
inductive Point.Stops (point : Point) : Halt → Prop where
  | missing {missed : Token} {text : String} :
      point.Misses missed → point.Stops (Evaluation.missing missed text)
  | tooDeep {paren : Token} : point.Overflows paren → point.Stops (Evaluation.tooDeep paren)

/-- Whether a fault is traced back to the point that stops with it itself. -/
def RuntimeFault.isTraced : RuntimeFault → Bool
  | .unboundLocal _ | .stackOverflow => true
  | _ => false

/-- Whether a halt is traced back to the point that stops with it itself. -/
def Halt.isTraced : Halt → Bool
  | .fault error => error.fault.isTraced
  | .outOfFuel => false

/-- A computation stops with other halts only. -/
def Untraced {α : Type} (computation : Eval α) : Prop :=
  ∀ machine halt final, computation machine = .error halt final → halt.isTraced = false

namespace Untraced

variable {α β : Type}

theorem ofOk {computation : Eval α}
    (ends : ∀ machine, ∃ value final, computation machine = .ok value final) :
    Untraced computation := by
  intro machine halt final halts
  obtain ⟨value, other, done⟩ := ends machine
  cases done.symm.trans halts

theorem pure (value : α) : Untraced (Pure.pure value : Eval α) :=
  ofOk fun machine => ⟨value, machine, rfl⟩

theorem bind {first : Eval α} {next : α → Eval β} (untraced : Untraced first)
    (further : ∀ value, Untraced (next value)) : Untraced (first >>= next) := by
  intro machine halt final halts
  rcases bind_error halts with early | ⟨value, middle, _, late⟩
  · exact untraced _ _ _ early
  · exact further value _ _ _ late

theorem outOfFuel : Untraced (throw .outOfFuel : Eval α) := by
  rintro machine _ _ ⟨⟩
  rfl

theorem fail (token : Token) {fault : RuntimeFault} (other : fault.isTraced = false) :
    Untraced (Evaluation.fail token fault : Eval α) := by
  rintro machine _ _ ⟨⟩
  exact other

theorem require (token : Token) {fault : RuntimeFault} (other : fault.isTraced = false)
    (value : Option α) : Untraced (Evaluation.require token fault value) := by
  cases value with
  | none => exact fail token other
  | some value => exact pure value

theorem modify (change : Machine → Machine) : Untraced (modify change : Eval PUnit) :=
  ofOk fun machine => ⟨⟨⟩, change machine, rfl⟩

theorem modifyGet (change : Machine → α × Machine) :
    Untraced (MonadStateOf.modifyGet change : Eval α) :=
  ofOk fun machine => ⟨(change machine).1, (change machine).2, rfl⟩

theorem get : Untraced (MonadState.get : Eval Machine) :=
  ofOk fun machine => ⟨machine, machine, rfl⟩

theorem forM {step : α → Eval PUnit} (untraced : ∀ value, Untraced (step value))
    (values : List α) : Untraced (values.forM step) := by
  induction values with
  | nil => exact pure _
  | cons value rest inductionHypothesis =>
      exact (untraced value).bind fun _ => inductionHypothesis

/-- A halt that is traced comes from elsewhere. -/
theorem elim {computation : Eval α} (untraced : Untraced computation)
    {machine final : Machine} {halt : Halt} {goal : Prop} (isTraced : halt.isTraced = true)
    (halts : computation machine = .error halt final) : goal :=
  Bool.noConfusion (isTraced.symm.trans (untraced _ _ _ halts))

end Untraced

/-! ### Steps that stop otherwise -/

theorem applyUnary_untraced (operator : Token) (operand : Value) :
    Untraced (applyUnary operator operand) := by
  unfold applyUnary
  split
  case h_1 => exact Untraced.pure _
  case h_2 => exact Untraced.fail _ rfl
  case h_3 => exact Untraced.pure _
  case h_4 => exact Untraced.fail _ rfl

theorem applyBinary_untraced (operator : Token) (left right : Value) :
    Untraced (applyBinary operator left right) := by
  unfold applyBinary
  split
  case h_1 =>
      split
      case h_1 => exact Untraced.pure _
      case h_2 => exact Untraced.pure _
      case h_3 => exact Untraced.fail _ rfl
  case h_2 => exact Untraced.pure _
  case h_3 => exact Untraced.pure _
  case h_4 =>
      split
      case h_1 => exact Untraced.require _ rfl _
      case h_2 => exact Untraced.fail _ rfl

theorem checkArity_untraced (paren : Token) (expected found : Nat) :
    Untraced (checkArity paren expected found : Eval Unit) := by
  unfold checkArity
  split
  · exact Untraced.pure _
  · exact Untraced.fail _ rfl

theorem checkArity_ok {paren : Token} {expected found : Nat} {machine final : Machine}
    (checked : checkArity paren expected found machine = .ok () final) :
    expected = found ∧ final = machine := by
  unfold checkArity at checked
  by_cases same : expected = found
  · rw [if_pos same] at checked
    cases checked
    exact ⟨same, rfl⟩
  · rw [if_neg same] at checked
    cases checked

theorem checkArity_of_eq (paren : Token) {expected found : Nat} (same : expected = found)
    (machine : Machine) : checkArity paren expected found machine = .ok () machine := by
  unfold checkArity
  rw [if_pos same]
  rfl

theorem bindMethod_untraced (method : FunctionValue) (id : Nat) : Untraced (bindMethod method id) :=
  Untraced.ofOk fun _ => ⟨_, _, rfl⟩

theorem property_untraced (id : Nat) (name : Token) : Untraced (property id name) := by
  refine Untraced.get.bind fun machine => ?_
  dsimp only
  split
  · exact Untraced.pure _
  · refine (Untraced.require _ rfl _).bind fun method => ?_
    exact (bindMethod_untraced method id).bind fun _ => Untraced.pure _

theorem define_untraced (name : String) (value : Value) : Untraced (define name value) :=
  Untraced.ofOk fun _ => ⟨_, _, rfl⟩

theorem functionValue_untraced (declaration : FunctionDeclaration) :
    Untraced (functionValue declaration) :=
  Untraced.ofOk fun _ => ⟨_, _, rfl⟩

theorem makeMethods_untraced (declarations : List FunctionDeclaration) :
    Untraced (makeMethods declarations) := by
  refine Untraced.ofOk fun machine => ?_
  obtain ⟨methods, next, result⟩ :=
    makeMethods_result declarations machine.environment machine.nextIdentity
  exact ⟨methods, _, result machine rfl rfl⟩

theorem defineClass_untraced (name : Token) (methods : List FunctionDeclaration) :
    Untraced (defineClass name methods) := by
  refine (define_untraced _ _).bind fun _ => (makeMethods_untraced methods).bind fun _ => ?_
  refine (Untraced.modifyGet _).bind fun _ => Untraced.get.bind fun machine => ?_
  exact (Untraced.require _ rfl _).bind fun _ => Untraced.modify _

theorem openFrame_untraced (function : FunctionValue) (arguments : List Value) :
    Untraced (openFrame function arguments) :=
  (Untraced.modifyGet _).bind fun _ =>
    (Untraced.forM (fun _ => Untraced.modify _) _).bind fun _ => Untraced.pure _

/-- What a call yields once its body has ended. -/
def callResult (function : FunctionValue) (completion : Completion) : Eval Value := do
  if function.isInitializer then
    let instance? := (← get).frames.lookup? function.closure Keyword.this.spelling
    return instance?.getD .nil
  else
    match completion with
    | .normal => return .nil
    | .returned value => return value

theorem callResult_untraced (function : FunctionValue) (completion : Completion) :
    Untraced (callResult function completion) := by
  unfold callResult
  split
  · exact Untraced.get.bind fun _ => Untraced.pure _
  · cases completion with
    | normal => exact Untraced.pure _
    | returned value => exact Untraced.pure _

/-- A call that is not too deep, in three steps. -/
theorem callFunction_of_shallow (run : List Statement → Eval Completion)
    (function : FunctionValue) (paren : Token) (arguments : List Value) {machine : Machine}
    (shallow : machine.depth < maxDepth) :
    callFunction run function paren arguments machine =
      (do
        let frame ← openFrame function arguments
        let completion ← deeper (within frame (run function.declaration.body))
        callResult function completion : Eval Value) machine := by
  unfold callFunction openFrame
  simp only [bind_assoc, pure_bind]
  show (if maxDepth ≤ machine.depth then _ else _ : Eval Value) machine = _
  rw [if_neg (Nat.not_le_of_lt shallow)]
  rfl

/-- A call at the greatest depth stops at once. -/
theorem callFunction_of_deep (run : List Statement → Eval Completion) (function : FunctionValue)
    (paren : Token) (arguments : List Value) {machine : Machine}
    (deep : maxDepth ≤ machine.depth) :
    callFunction run function paren arguments machine = .error (tooDeep paren) machine := by
  unfold callFunction
  show (if maxDepth ≤ machine.depth then _ else _ : Eval Value) machine = _
  rw [if_pos deep]
  rfl

/-! ### Steps that may miss a name -/

/-- A value that should be there is missing. -/
theorem require_misses {α : Type} {machine final : Machine} {name : Token} {text : String}
    {value : Option α} {halt : Halt}
    (halts : require name (.unboundLocal text) value machine = .error halt final) :
    halt = missing name text ∧ value = none := by
  cases value with
  | none =>
      cases halts
      exact ⟨rfl, rfl⟩
  | some value => cases halts

section Missing

variable {machine final : Machine} {id : Nat} {name : Token} {halt : Halt}

theorem lookUp_misses (isTraced : halt.isTraced = true)
    (halts : lookUp id name machine = .error halt final) :
    halt = missing name name.lexeme ∧ ∃ distance, machine.locals[id]? = some distance ∧
      machine.frames.getAt? machine.environment distance name.lexeme = none := by
  cases isLocal : machine.locals[id]? with
  | none =>
      rw [lookUp_of_global isLocal] at halts
      exact (Untraced.require _ rfl _).elim isTraced halts
  | some distance =>
      rw [lookUp_of_local isLocal] at halts
      obtain ⟨same, absent⟩ := require_misses halts
      exact ⟨same, distance, rfl, absent⟩

theorem assign_misses {value : Value} (isTraced : halt.isTraced = true)
    (halts : assign id name value machine = .error halt final) :
    halt = missing name name.lexeme ∧ ∃ distance, machine.locals[id]? = some distance ∧
      machine.frames.owner? machine.environment distance name.lexeme = none := by
  rcases bind_error halts with early | ⟨owner, middle, _, late⟩
  · cases isLocal : machine.locals[id]? with
    | none =>
        rw [ownerOf_of_global isLocal] at early
        exact (Untraced.require _ rfl _).elim isTraced early
    | some distance =>
        rw [ownerOf_of_local isLocal] at early
        obtain ⟨same, absent⟩ := require_misses early
        exact ⟨same, distance, rfl, absent⟩
  · exact (Untraced.modify _).elim isTraced late

end Missing

/-! ### One step back -/

/-- A point stops with a halt itself, or comes to one that stops with it. -/
def Traced (point : Point) (halt : Halt) : Prop :=
  point.Stops halt ∨ ∃ next, Demands point next ∧ next.Halts halt

section Back

variable {fuel : Nat} {machine : Machine} {halt : Halt} {initialized : Option Token}

theorem Traced.to {point next : Point} (demands : Demands point next)
    (halts : next.Halts halt) : Traced point halt :=
  Or.inr ⟨next, demands, halts⟩

theorem expression_traced (isTraced : halt.isTraced = true) (value : Expression)
    (halts : Point.Halts ⟨fuel, .expression initialized value, machine⟩ halt) :
    Traced ⟨fuel, .expression initialized value, machine⟩ halt := by
  obtain ⟨final, halts⟩ := halts
  dsimp only at halts
  cases value with
  | literal => exact (Untraced.pure _).elim isTraced halts
  | grouping => exact .to .grouping ⟨final, halts⟩
  | unary id operator operand =>
      rcases bind_error halts with early | ⟨value, middle, _, late⟩
      · exact .to .operand ⟨final, early⟩
      · exact (applyUnary_untraced _ _).elim isTraced late
  | binary id left operator right =>
      rcases bind_error halts with early | ⟨value, middle, done, late⟩
      · exact .to .leftOperand ⟨final, early⟩
      · rcases bind_error late with early | ⟨other, _, _, late⟩
        · exact .to (.rightOperand done) ⟨final, early⟩
        · exact (applyBinary_untraced _ _ _).elim isTraced late
  | logical id left operator right =>
      rcases bind_error halts with early | ⟨value, middle, done, late⟩
      · exact .to .leftCondition ⟨final, early⟩
      · by_cases decided : value.isTruthy = operator.isKeyword .or
        · rw [if_pos decided] at late
          exact (Untraced.pure _).elim isTraced late
        · rw [if_neg decided] at late
          exact .to (.rightCondition done decided) ⟨final, late⟩
  | «variable» id name =>
      obtain ⟨rfl, missed⟩ := lookUp_misses isTraced halts
      exact Or.inl (.missing ⟨rfl, missed⟩)
  | this id keyword =>
      obtain ⟨rfl, missed⟩ := lookUp_misses isTraced halts
      exact Or.inl (.missing ⟨rfl, missed⟩)
  | assign id name value =>
      rcases bind_error halts with early | ⟨assigned, middle, done, late⟩
      · exact .to .assignedValue ⟨final, early⟩
      · rcases bind_error late with early | ⟨_, _, _, late⟩
        · exact .to (.assignment done) ⟨final, early⟩
        · exact (Untraced.pure _).elim isTraced late
  | call id callee paren arguments =>
      rcases bind_error halts with early | ⟨value, middle, called, late⟩
      · exact .to .callee ⟨final, early⟩
      · rcases bind_error late with early | ⟨values, _, argued, late⟩
        · exact .to (.arguments called) ⟨final, early⟩
        · exact .to (.application called argued) ⟨final, late⟩
  | get id object name =>
      rcases bind_error halts with early | ⟨value, middle, _, late⟩
      · exact .to .object ⟨final, early⟩
      · cases value with
        | «instance» => exact (property_untraced _ _).elim isTraced late
        | _ => exact (Untraced.fail _ rfl).elim isTraced late
  | set id object name value =>
      rcases bind_error halts with early | ⟨target, middle, done, late⟩
      · exact .to .changedObject ⟨final, early⟩
      · cases target with
        | «instance» target =>
            rcases bind_error late with early | ⟨_, _, _, late⟩
            · exact .to (.fieldValue done) ⟨final, early⟩
            · exact ((Untraced.modify _).bind fun _ => Untraced.pure _).elim isTraced late
        | _ => exact (Untraced.fail _ rfl).elim isTraced late

theorem expressions_traced (isTraced : halt.isTraced = true) (values : List Expression)
    (halts : Point.Halts ⟨fuel, .expressions initialized values, machine⟩ halt) :
    Traced ⟨fuel, .expressions initialized values, machine⟩ halt := by
  obtain ⟨final, halts⟩ := halts
  dsimp only at halts
  cases values with
  | nil => exact (Untraced.pure _).elim isTraced halts
  | cons value values =>
      rcases bind_error halts with early | ⟨first, middle, done, late⟩
      · exact .to .firstExpression ⟨final, early⟩
      · rcases bind_error late with early | ⟨_, _, _, late⟩
        · exact .to (.nextExpressions done) ⟨final, early⟩
        · exact (Untraced.pure _).elim isTraced late

theorem application_traced (isTraced : halt.isTraced = true) (callee : Value) (paren : Token)
    (arguments : List Value)
    (halts : Point.Halts ⟨fuel, .application callee paren arguments, machine⟩ halt) :
    Traced ⟨fuel, .application callee paren arguments, machine⟩ halt := by
  obtain ⟨final, halts⟩ := halts
  dsimp only at halts
  cases callee with
  | native function =>
      cases function with
      | clock =>
          rcases bind_error halts with early | ⟨_, middle, _, late⟩
          · exact (checkArity_untraced _ _ _).elim isTraced early
          · exact ((Untraced.modifyGet _).bind fun _ => Untraced.pure _).elim isTraced late
  | function function =>
      rcases bind_error halts with early | ⟨_, middle, checked, late⟩
      · exact (checkArity_untraced _ _ _).elim isTraced early
      · obtain ⟨matching, rfl⟩ := checkArity_ok checked
        exact .to (.function matching) ⟨final, late⟩
  | «class» owner =>
      rcases bind_error halts with early | ⟨_, middle, checked, late⟩
      · exact (checkArity_untraced _ _ _).elim isTraced early
      · obtain ⟨matching, rfl⟩ := checkArity_ok checked
        rcases bind_error late with early | ⟨id, between, made, late⟩
        · exact (Untraced.modifyGet _).elim isTraced early
        · cases present : owner.initializer? with
          | none =>
              rw [present] at late
              exact (Untraced.pure _).elim isTraced late
          | some method =>
              rw [present] at late
              rcases bind_error late with early | ⟨bound, _, bound', late⟩
              · exact (bindMethod_untraced _ _).elim isTraced early
              · rcases bind_error late with early | ⟨_, _, _, late⟩
                · exact .to (.initializer matching present made bound') ⟨final, early⟩
                · exact (Untraced.pure _).elim isTraced late
  | _ => exact (Untraced.fail _ rfl).elim isTraced halts

theorem call_traced (isTraced : halt.isTraced = true) (function : FunctionValue)
    (paren : Token) (arguments : List Value)
    (halts : Point.Halts ⟨fuel, .call function paren arguments, machine⟩ halt) :
    Traced ⟨fuel, .call function paren arguments, machine⟩ halt := by
  obtain ⟨final, halts⟩ := halts
  dsimp only at halts
  cases fuel with
  | zero => exact Untraced.outOfFuel.elim isTraced halts
  | succ fuel =>
      by_cases shallow : machine.depth < maxDepth
      · change callFunction _ _ _ _ _ = _ at halts
        rw [callFunction_of_shallow _ _ _ _ shallow] at halts
        rcases bind_error halts with early | ⟨frame, middle, opened, late⟩
        · exact (openFrame_untraced _ _).elim isTraced early
        · rcases bind_error late with early | ⟨completion, _, _, late⟩
          · obtain ⟨_, inner⟩ := deeper_error early
            exact .to (.body shallow opened) (within_error inner)
          · exact (callResult_untraced _ _).elim isTraced late
      · have deep := Nat.le_of_not_lt shallow
        change callFunction _ _ _ _ _ = _ at halts
        rw [callFunction_of_deep _ _ _ _ deep] at halts
        cases halts
        exact Or.inl (.tooDeep ⟨fuel, function, arguments, rfl, rfl, deep⟩)

theorem statement_traced (isTraced : halt.isTraced = true) (part : Statement)
    (halts : Point.Halts ⟨fuel, .statement part, machine⟩ halt) :
    Traced ⟨fuel, .statement part, machine⟩ halt := by
  obtain ⟨final, halts⟩ := halts
  dsimp only at halts
  cases part with
  | expression value =>
      rcases bind_error halts with early | ⟨_, _, _, late⟩
      · exact .to .expression ⟨final, early⟩
      · exact (Untraced.pure _).elim isTraced late
  | print value =>
      rcases bind_error halts with early | ⟨_, _, _, late⟩
      · exact .to .printed ⟨final, early⟩
      · exact ((Untraced.modify _).bind fun _ => Untraced.pure _).elim isTraced late
  | var name initializer =>
      rcases bind_error halts with early | ⟨_, _, _, late⟩
      · cases initializer with
        | none => exact (Untraced.pure _).elim isTraced early
        | some value => exact .to .initialValue ⟨final, early⟩
      · exact ((define_untraced _ _).bind fun _ => Untraced.pure _).elim isTraced late
  | block statements =>
      have inner : within machine.frames.size (executeAll (invoke fuel) fuel statements)
          { machine with frames := machine.frames.push (some machine.environment) } =
            .error halt final := halts
      exact .to .block (within_error inner)
  | conditional condition thenBranch elseBranch =>
      cases elseBranch with
      | none =>
          rcases bind_error halts with early | ⟨value, middle, done, late⟩
          · exact .to .condition ⟨final, early⟩
          · by_cases truthy : value.isTruthy = true
            · rw [if_pos truthy] at late
              exact .to (.thenBranch done truthy) ⟨final, late⟩
            · rw [if_neg truthy] at late
              exact (Untraced.pure _).elim isTraced late
      | some elseBranch =>
          rcases bind_error halts with early | ⟨value, middle, done, late⟩
          · exact .to .condition ⟨final, early⟩
          · by_cases truthy : value.isTruthy = true
            · rw [if_pos truthy] at late
              exact .to (.thenBranch done truthy) ⟨final, late⟩
            · rw [if_neg truthy] at late
              exact .to (.elseBranch done (Bool.eq_false_iff.mpr truthy)) ⟨final, late⟩
  | loop condition body => exact .to .loop ⟨final, halts⟩
  | function declaration =>
      rw [execute_function] at halts
      rcases bind_error halts with early | ⟨_, _, _, late⟩
      · have makes :=
          (functionValue_untraced declaration).bind (define_untraced declaration.name.lexeme)
        exact makes.elim isTraced early
      · exact (Untraced.pure _).elim isTraced late
  | «return» keyword value =>
      rcases bind_error halts with early | ⟨_, _, _, late⟩
      · cases value with
        | none => exact (Untraced.pure _).elim isTraced early
        | some value => exact .to .returned ⟨final, early⟩
      · exact (Untraced.pure _).elim isTraced late
  | «class» name methods =>
      rcases bind_error halts with early | ⟨_, _, _, late⟩
      · exact (defineClass_untraced _ _).elim isTraced early
      · exact (Untraced.pure _).elim isTraced late

theorem statements_traced (isTraced : halt.isTraced = true) (parts : List Statement)
    (halts : Point.Halts ⟨fuel, .statements parts, machine⟩ halt) :
    Traced ⟨fuel, .statements parts, machine⟩ halt := by
  obtain ⟨final, halts⟩ := halts
  dsimp only at halts
  cases parts with
  | nil => exact (Untraced.pure _).elim isTraced halts
  | cons part parts =>
      rcases bind_error halts with early | ⟨completion, middle, done, late⟩
      · exact .to .firstStatement ⟨final, early⟩
      · cases completion with
        | normal => exact .to (.nextStatements done) ⟨final, late⟩
        | returned value => exact (Untraced.pure _).elim isTraced late

theorem rounds_traced (isTraced : halt.isTraced = true) (condition : Expression)
    (body : Statement) (left : Nat)
    (halts : Point.Halts ⟨fuel, .rounds condition body left, machine⟩ halt) :
    Traced ⟨fuel, .rounds condition body left, machine⟩ halt := by
  obtain ⟨final, halts⟩ := halts
  dsimp only at halts
  cases left with
  | zero => exact Untraced.outOfFuel.elim isTraced halts
  | succ left =>
      rcases bind_error halts with early | ⟨value, middle, evaluated, late⟩
      · exact .to .loopCondition ⟨final, early⟩
      · by_cases truthy : value.isTruthy = true
        · rw [if_pos truthy] at late
          rcases bind_error late with early | ⟨completion, later, done, late⟩
          · exact .to (.loopBody evaluated truthy) ⟨final, early⟩
          · cases completion with
            | normal => exact .to (.nextRound evaluated truthy done) ⟨final, late⟩
            | returned value => exact (Untraced.pure _).elim isTraced late
        · rw [if_neg truthy] at late
          exact (Untraced.pure _).elim isTraced late

end Back

theorem traced {point : Point} {halt : Halt} (isTraced : halt.isTraced = true)
    (halts : point.Halts halt) : Traced point halt := by
  obtain ⟨fuel, task, machine⟩ := point
  cases task with
  | expression initialized value => exact expression_traced isTraced value halts
  | expressions initialized values => exact expressions_traced isTraced values halts
  | assignment initialized id name value =>
      obtain ⟨final, halts⟩ := halts
      obtain ⟨rfl, missed⟩ := assign_misses isTraced halts
      exact Or.inl (.missing ⟨rfl, missed⟩)
  | application callee paren arguments =>
      exact application_traced isTraced callee paren arguments halts
  | call function paren arguments => exact call_traced isTraced function paren arguments halts
  | statement part => exact statement_traced isTraced part halts
  | statements parts => exact statements_traced isTraced parts halts
  | rounds condition body left => exact rounds_traced isTraced condition body left halts

/-- Evaluation that stops with a halt that is traced has come to a point that stops with it
itself. By induction on the rank of the point. -/
theorem reaches_stop {point : Point} {halt : Halt} (isTraced : halt.isTraced = true)
    (halts : point.Halts halt) : ∃ last, Reaches point last ∧ last.Stops halt := by
  rcases traced isTraced halts with here | ⟨next, demands, later⟩
  · exact ⟨point, .refl, here⟩
  · obtain ⟨last, reaches, stops⟩ := reaches_stop isTraced later
    exact ⟨last, .head demands reaches, stops⟩
termination_by point.rank
decreasing_by exact demands.rank_lt

/-- Evaluation that stops at a missing local name has come to a point at which this name is
missing. -/
theorem reaches_missing {point : Point} {missed : Token} {text : String}
    (halts : point.Halts (missing missed text)) :
    ∃ last, Reaches point last ∧ last.Misses missed := by
  obtain ⟨last, reaches, stops⟩ := reaches_stop rfl halts
  cases stops with
  | missing misses => exact ⟨last, reaches, misses⟩

/-! ### One step on -/

section On

variable {α β : Type} {halt : Halt} {machine middle : Machine}

theorem halts_first {first : Eval α} (next : α → Eval β)
    (halts : ∃ final, first machine = .error halt final) :
    ∃ final, (first >>= next) machine = .error halt final := by
  obtain ⟨final, early⟩ := halts
  exact ⟨final, bind_of_error next early⟩

theorem halts_behind {first : Eval α} {next : α → Eval β} {value : α}
    (done : first machine = .ok value middle)
    (halts : ∃ final, next value middle = .error halt final) :
    ∃ final, (first >>= next) machine = .error halt final := by
  obtain ⟨final, late⟩ := halts
  exact ⟨final, (bind_of_ok next done).trans late⟩

theorem halts_within {computation : Eval α} {frame : Nat}
    (halts : ∃ final, computation { machine with environment := frame } = .error halt final) :
    ∃ final, within frame computation machine = .error halt final := by
  obtain ⟨last, inner⟩ := halts
  exact ⟨_, within_of_error inner⟩

theorem halts_deeper {computation : Eval α}
    (halts : ∃ final, computation { machine with depth := machine.depth + 1 } =
      .error halt final) :
    ∃ final, deeper computation machine = .error halt final := by
  obtain ⟨last, inner⟩ := halts
  exact ⟨_, deeper_of_error inner⟩

/-- What stops a part stops the whole. -/
theorem Demands.halts {point next : Point} (demands : Demands point next)
    (halts : next.Halts halt) : point.Halts halt := by
  cases demands with
  | grouping | loop => exact halts
  | operand | leftOperand | leftCondition | assignedValue | callee | object | changedObject
  | firstExpression | expression | printed | initialValue | loopCondition | returned
  | firstStatement => exact halts_first _ halts
  | rightOperand done | assignment done | arguments done | fieldValue done
  | nextExpressions done => exact halts_behind done (halts_first _ halts)
  | rightCondition done undecided =>
      refine halts_behind done ?_
      rw [if_neg undecided]
      exact halts
  | application called argued => exact halts_behind called (halts_behind argued halts)
  | function matching => exact halts_behind (checkArity_of_eq _ matching _) halts
  | initializer matching present made bound =>
      refine halts_behind (checkArity_of_eq _ matching _) (halts_behind made ?_)
      simp only [present]
      exact halts_behind bound (halts_first _ halts)
  | body shallow opened =>
      show ∃ final, callFunction _ _ _ _ _ = .error halt final
      rw [callFunction_of_shallow _ _ _ _ shallow]
      exact halts_behind opened (halts_first _ (halts_deeper (halts_within halts)))
  | @block fuel machine statements =>
      have inner : ∃ final, within machine.frames.size (executeAll (invoke fuel) fuel statements)
          { machine with frames := machine.frames.push (some machine.environment) } =
            .error halt final := halts_within halts
      exact inner
  | @condition _ _ _ _ elseBranch =>
      cases elseBranch with
      | none | some => exact halts_first _ halts
  | @thenBranch _ _ _ _ elseBranch _ _ done truthy =>
      cases elseBranch with
      | none | some =>
          refine halts_behind done ?_
          rw [if_pos truthy]
          exact halts
  | elseBranch done falsy =>
      refine halts_behind done ?_
      rw [if_neg (Bool.eq_false_iff.mp falsy)]
      exact halts
  | loopBody done truthy =>
      refine halts_behind done ?_
      rw [if_pos truthy]
      exact halts_first _ halts
  | nextRound evaluated truthy done =>
      refine halts_behind evaluated ?_
      rw [if_pos truthy]
      exact halts_behind done halts
  | nextStatements done => exact halts_behind done halts

end On

/-- Evaluation stops with what stops a point that it comes to. By induction on the way to the
point. -/
theorem Reaches.halts {start point : Point} {halt : Halt} (reaches : Reaches start point)
    (halts : point.Halts halt) : start.Halts halt := by
  induction reaches using Relation.ReflTransGen.head_induction_on with
  | refl => exact halts
  | head demands _ inductionHypothesis => exact demands.halts inductionHypothesis

theorem Point.Overflows.halts {point : Point} {paren : Token} (overflows : point.Overflows paren) :
    point.Halts (tooDeep paren) := by
  obtain ⟨fuel, task, machine⟩ := point
  obtain ⟨_, function, arguments, rfl, rfl, deep⟩ := overflows
  exact ⟨machine, callFunction_of_deep _ function paren arguments deep⟩

/-- Evaluation stops because calls are too deep if and only if it comes to a call when no
further one can be entered. -/
theorem halts_tooDeep_iff {point : Point} {paren : Token} :
    point.Halts (tooDeep paren) ↔ ∃ last, Reaches point last ∧ last.Overflows paren := by
  constructor
  · intro halts
    obtain ⟨last, reaches, stops⟩ := reaches_stop rfl halts
    cases stops with
    | tooDeep overflows => exact ⟨last, reaches, overflows⟩
  · rintro ⟨last, reaches, overflows⟩
    exact Reaches.halts reaches overflows.halts

end Lox.Evaluation
