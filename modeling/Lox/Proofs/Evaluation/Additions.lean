import Lox.Proofs.Evaluation.Restoration
import Lox.Proofs.Evaluation.Runs
import Lox.Proofs.Frames
import Lox.Proofs.Scope.Rules

/-!
Contract: which names evaluation brings into frames that are there already.

Owns:
- `Frames.Grown`: old frames keep their parents and their names, and a name comes into one only
  where it may;
- `Adds`: a computation changes the frames so, with a value, at an error and out of fuel;
- how it composes, and that each step and each construct of the language satisfies it: an
  expression brings in nothing, and a statement what it declares, in the current frame.

What is bound in a frame that the computation has made itself does not count. Nothing is assumed
of the machine, of its frames or of its table of local names.
-/

namespace Lox

namespace Frames

/-- Old frames keep their parents and their names, and a name comes into one only where it may. -/
structure Grown (may : Nat → String → Prop) (before after : Frames) : Prop where
  size : before.size ≤ after.size
  parent : ∀ id < before.size, after.parent? id = before.parent? id
  kept : ∀ id < before.size, ∀ name,
    (before.lookup? id name).isSome → (after.lookup? id name).isSome
  new : ∀ id < before.size, ∀ name, (after.lookup? id name).isSome →
    (before.lookup? id name).isSome ∨ may id name

namespace Grown

variable {may : Nat → String → Prop} {before between after : Frames}

theorem refl (may : Nat → String → Prop) (frames : Frames) : frames.Grown may frames where
  size := Nat.le_refl _
  parent _ _ := rfl
  kept _ _ _ := id
  new _ _ _ := Or.inl

theorem trans (first : before.Grown may between) (second : between.Grown may after) :
    before.Grown may after where
  size := Nat.le_trans first.size second.size
  parent id old := by
    have middle : id < between.size := Nat.lt_of_lt_of_le old first.size
    exact (second.parent id middle).trans (first.parent id old)
  kept id old name bound := by
    have middle : id < between.size := Nat.lt_of_lt_of_le old first.size
    exact second.kept id middle name (first.kept id old name bound)
  new id old name bound := by
    have middle : id < between.size := Nat.lt_of_lt_of_le old first.size
    rcases second.new id middle name bound with here | allowed
    · exact first.new id old name here
    · exact Or.inr allowed

/-- A frame binds a name that it binds already, or one that it may. -/
theorem define (frames : Frames) {frame : Nat} {name : String} (value : Value)
    (allowed : (frames.lookup? frame name).isSome ∨ may frame name) :
    frames.Grown may (frames.define frame name value) where
  size := Nat.le_of_eq (frames.size_define frame name value).symm
  parent id _ := frames.parent?_define frame name value id
  kept id old other bound := by
    by_cases same : id = frame ∧ other = name
    · obtain ⟨rfl, rfl⟩ := same
      rw [frames.lookup?_define_self old]
      rfl
    · rw [frames.lookup?_define_of_ne value same]
      exact bound
  new id _ other bound := by
    by_cases same : id = frame ∧ other = name
    · obtain ⟨rfl, rfl⟩ := same
      exact allowed
    · rw [frames.lookup?_define_of_ne value same] at bound
      exact Or.inl bound

/-- What a frame binds that was not there at first does not count. -/
theorem ofPush {parent : Option Nat}
    (grown : (before.push parent).Grown (fun id name => id = before.size ∨ may id name) after) :
    before.Grown may after where
  size := by
    have size := grown.size
    rw [size_push] at size
    omega
  parent id old := by
    have inside : id < (before.push parent).size := by
      rw [size_push]
      omega
    exact (grown.parent id inside).trans (before.parent?_push_of_ne parent (Nat.ne_of_lt old))
  kept id old name bound := by
    have inside : id < (before.push parent).size := by
      rw [size_push]
      omega
    rw [← before.lookup?_push parent] at bound
    exact grown.kept id inside name bound
  new id old name bound := by
    have inside : id < (before.push parent).size := by
      rw [size_push]
      omega
    have found := grown.new id inside name bound
    rw [lookup?_push] at found
    rcases found with here | here | allowed
    · exact Or.inl here
    · exact absurd here (Nat.ne_of_lt old)
    · exact Or.inr allowed

end Grown

end Frames

namespace Evaluation

/-- A computation in a frame stays there, and names come into old frames only where they may. -/
def Adds {α : Type} (frame : Nat) (may : Nat → String → Prop) (computation : Eval α) : Prop :=
  ∀ machine : Machine, machine.environment = frame →
    (final (computation machine)).environment = frame ∧
      machine.frames.Grown may (final (computation machine)).frames

variable {frame : Nat} {may : Nat → String → Prop}

namespace Adds

variable {α β : Type}

/-! ### Composition -/

/-- A computation that leaves the frames and the current one as they are. -/
theorem ofStays {computation : Eval α}
    (stays : ∀ machine, (final (computation machine)).environment = machine.environment ∧
      (final (computation machine)).frames = machine.frames) :
    Adds frame may computation := by
  intro machine current
  obtain ⟨environment, frames⟩ := stays machine
  rw [frames]
  exact ⟨environment.trans current, .refl may _⟩

theorem pure (value : α) : Adds frame may (Pure.pure value : Eval α) :=
  ofStays fun _ => ⟨rfl, rfl⟩

theorem outOfFuel : Adds frame may (throw .outOfFuel : Eval α) :=
  ofStays fun _ => ⟨rfl, rfl⟩

theorem fail (token : Token) (fault : RuntimeFault) :
    Adds frame may (Evaluation.fail token fault : Eval α) :=
  ofStays fun _ => ⟨rfl, rfl⟩

theorem get : Adds frame may (MonadState.get : Eval Machine) :=
  ofStays fun _ => ⟨rfl, rfl⟩

theorem require (token : Token) (fault : RuntimeFault) (value : Option α) :
    Adds frame may (Evaluation.require token fault value) := by
  cases value with
  | none => exact fail token fault
  | some value => exact pure value

theorem bind {first : Eval α} {next : α → Eval β} (adds : Adds frame may first)
    (further : ∀ value, Adds frame may (next value)) : Adds frame may (first >>= next) := by
  intro machine current
  have before := adds machine current
  cases result : first machine with
  | ok value middle =>
      rw [result] at before
      have behind := further value middle before.1
      rw [bind_of_ok next result]
      exact ⟨behind.1, before.2.trans behind.2⟩
  | error halt middle =>
      rw [result] at before
      rw [bind_of_error next result]
      exact before

theorem ite {condition : Prop} [Decidable condition] {first second : Eval α}
    (whenTrue : Adds frame may first) (whenFalse : Adds frame may second) :
    Adds frame may (if condition then first else second) := by
  split
  · exact whenTrue
  · exact whenFalse

/-- In a new frame anything may be bound. -/
theorem inNewFrame (parent : Nat) {next : Nat → Eval α}
    (adds : ∀ new, Adds frame (fun id name => id = new ∨ may id name) (next new)) :
    Adds frame may (pushFrame parent >>= next) := by
  intro machine current
  obtain ⟨environment, grown⟩ := adds machine.frames.size
    { machine with frames := machine.frames.push (some parent) } current
  exact ⟨environment, grown.ofPush⟩

/-- A computation in another frame. The frame around it is put back. -/
theorem within {inner : Nat} {computation : Eval α} (adds : Adds inner may computation) :
    Adds frame may (Evaluation.within inner computation) := by
  intro machine current
  have inside := adds { machine with environment := inner } rfl
  unfold Evaluation.within
  dsimp only
  generalize computation { machine with environment := inner } = result at inside ⊢
  cases result with
  | ok value after => exact ⟨current, inside.2⟩
  | error halt after => exact ⟨current, inside.2⟩

theorem deeper {computation : Eval α} (adds : Adds frame may computation) :
    Adds frame may (Evaluation.deeper computation) := by
  intro machine current
  have inside := adds { machine with depth := machine.depth + 1 } current
  unfold Evaluation.deeper
  generalize computation { machine with depth := machine.depth + 1 } = result at inside ⊢
  cases result with
  | ok value after => exact inside
  | error halt after => exact inside

end Adds

/-! ### Steps -/

theorem freshIdentity_adds : Adds frame may freshIdentity :=
  Adds.ofStays fun _ => ⟨rfl, rfl⟩

theorem readClock_adds : Adds frame may readClock :=
  Adds.ofStays fun _ => ⟨rfl, rfl⟩

theorem printValue_adds (value : Value) : Adds frame may (printValue value) :=
  Adds.ofStays fun _ => ⟨rfl, rfl⟩

theorem makeInstance_adds (owner : ClassValue) : Adds frame may (makeInstance owner) :=
  Adds.ofStays fun _ => ⟨rfl, rfl⟩

theorem setField_adds (id : Nat) (name : Token) (value : Value) :
    Adds frame may (setField id name value) :=
  Adds.ofStays fun _ => ⟨rfl, rfl⟩

theorem defineIn_adds {target : Nat} {name : String} (value : Value) (allowed : may target name) :
    Adds frame may (defineIn target name value) :=
  fun machine current => ⟨current, .define machine.frames value (Or.inr allowed)⟩

theorem define_adds {name : String} (value : Value) (allowed : may frame name) :
    Adds frame may (define name value) :=
  fun machine current =>
    ⟨current, .define machine.frames value (Or.inr (current.symm ▸ allowed))⟩

theorem lookUp_adds (id : Nat) (name : Token) : Adds frame may (lookUp id name) := by
  refine Adds.get.bind fun machine => ?_
  split
  · exact Adds.require _ _ _
  · exact Adds.require _ _ _

/-- The binding that a name refers to is there already. -/
theorem defineIn_owner_adds {machine : Machine} (current : machine.environment = frame)
    {owner : Option Nat} {name : Token} (fault : RuntimeFault) (value : Value)
    (bound : ∀ target, owner = some target →
      (machine.frames.lookup? target name.lexeme).isSome) :
    let after := final ((require name fault owner >>= fun target =>
      defineIn target name.lexeme value) machine)
    after.environment = frame ∧ machine.frames.Grown may after.frames := by
  cases owner with
  | none => exact ⟨current, .refl may _⟩
  | some target => exact ⟨current, .define _ value (Or.inl (bound target rfl))⟩

theorem assign_adds (id : Nat) (name : Token) (value : Value) :
    Adds frame may (assign id name value) := by
  intro machine current
  unfold assign ownerOf
  rw [bind_assoc, get_bind]
  cases machine.locals[id]? with
  | some distance =>
      exact defineIn_owner_adds current _ value fun _ => machine.frames.lookup?_of_owner?
  | none => exact defineIn_owner_adds current _ value fun _ => machine.frames.lookup?_of_find?

theorem assignNearest_adds (name : Token) (value : Value) :
    Adds frame may (assignNearest name value) :=
  fun machine current =>
    defineIn_owner_adds current _ value fun _ => machine.frames.lookup?_of_find?

theorem makeFunction_adds (declaration : FunctionDeclaration) (closure : Nat)
    (isInitializer : Bool) : Adds frame may (makeFunction declaration closure isInitializer) :=
  freshIdentity_adds.bind fun _ => Adds.pure _

theorem makeMethods_adds (declarations : List FunctionDeclaration) :
    Adds frame may (makeMethods declarations) := by
  refine Adds.get.bind fun machine => ?_
  generalize (∅ : Bindings FunctionValue) = methods
  induction declarations generalizing methods with
  | nil => exact Adds.pure methods
  | cons declaration declarations inductionHypothesis =>
      rw [List.foldlM_cons]
      exact Adds.bind ((makeFunction_adds _ _ _).bind fun _ => Adds.pure _)
        fun methods => inductionHypothesis methods

/-- A bound method closes over a frame of its own, in which `this` is bound. -/
theorem bindMethod_adds (method : FunctionValue) (id : Nat) :
    Adds frame may (bindMethod method id) :=
  Adds.inNewFrame _ fun _ => (defineIn_adds _ (Or.inl rfl)).bind fun _ => makeFunction_adds _ _ _

theorem property_adds (id : Nat) (name : Token) : Adds frame may (property id name) := by
  refine Adds.get.bind fun machine => ?_
  dsimp only
  split
  · exact Adds.pure _
  · exact (Adds.require _ _ _).bind fun method =>
      (bindMethod_adds method id).bind fun _ => Adds.pure _

theorem applyUnary_adds (operator : Token) (operand : Value) :
    Adds frame may (applyUnary operator operand : Eval Value) := by
  unfold applyUnary
  split
  case h_1 | h_3 => exact Adds.pure _
  case h_2 | h_4 => exact Adds.fail _ _

theorem applyBinary_adds (operator : Token) (left right : Value) :
    Adds frame may (applyBinary operator left right : Eval Value) := by
  unfold applyBinary
  split
  case h_1 =>
      split
      case h_1 | h_2 => exact Adds.pure _
      case h_3 => exact Adds.fail _ _
  case h_2 | h_3 => exact Adds.pure _
  case h_4 =>
      split
      case h_1 => exact Adds.require _ _ _
      case h_2 => exact Adds.fail _ _

theorem checkArity_adds (paren : Token) (expected found : Nat) :
    Adds frame may (checkArity paren expected found : Eval Unit) :=
  Adds.ite (Adds.pure _) (Adds.fail _ _)

/-! ### Expressions -/

/-- Calls of functions bring nothing into old frames. -/
def CallsAdd (invoke : Invoke) : Prop :=
  ∀ frame may function paren arguments, Adds frame may (invoke function paren arguments)

variable {invoke : Invoke}

theorem callValue_adds (calls : CallsAdd invoke) (callee : Value) (paren : Token)
    (arguments : List Value) : Adds frame may (callValue invoke callee paren arguments) := by
  unfold callValue
  split
  case h_1 =>
      exact (checkArity_adds _ _ _).bind fun _ => readClock_adds.bind fun _ => Adds.pure _
  case h_2 function =>
      exact (checkArity_adds _ _ _).bind fun _ => calls _ _ function paren arguments
  case h_3 owner =>
      refine (checkArity_adds _ _ _).bind fun _ => (makeInstance_adds owner).bind fun id => ?_
      cases owner.initializer? with
      | none => exact Adds.pure _
      | some initializer =>
          exact (bindMethod_adds initializer id).bind fun bound =>
            (calls _ _ bound paren arguments).bind fun _ => Adds.pure _
  case h_4 => exact Adds.fail _ _

mutual

/-- By induction on the expression. -/
theorem evaluate_adds (calls : CallsAdd invoke) :
    (expression : Expression) → Adds frame may (evaluate invoke expression)
  | .literal _ _ => Adds.pure _
  | .grouping _ inner => evaluate_adds calls inner
  | .unary _ operator operand =>
      (evaluate_adds calls operand).bind fun value => applyUnary_adds operator value
  | .binary _ left operator right =>
      (evaluate_adds calls left).bind fun first =>
        (evaluate_adds calls right).bind fun second => applyBinary_adds operator first second
  | .logical _ left _ right =>
      (evaluate_adds calls left).bind fun _ => Adds.ite (Adds.pure _) (evaluate_adds calls right)
  | .variable id name => lookUp_adds id name
  | .this id keyword => lookUp_adds id keyword
  | .assign id name value =>
      (evaluate_adds calls value).bind fun value =>
        (assign_adds id name value).bind fun _ => Adds.pure _
  | .call _ callee paren arguments =>
      (evaluate_adds calls callee).bind fun callee =>
        (evaluateAll_adds calls arguments).bind fun values =>
          callValue_adds calls callee paren values
  | .get _ object name => by
      refine (evaluate_adds calls object).bind fun target => ?_
      cases target with
      | «instance» id => exact property_adds id name
      | _ => exact Adds.fail _ _
  | .set _ object name value => by
      refine (evaluate_adds calls object).bind fun target => ?_
      cases target with
      | «instance» id =>
          exact (evaluate_adds calls value).bind fun value =>
            (setField_adds id name value).bind fun _ => Adds.pure _
      | _ => exact Adds.fail _ _

theorem evaluateAll_adds (calls : CallsAdd invoke) :
    (expressions : List Expression) → Adds frame may (evaluateAll invoke expressions)
  | [] => Adds.pure _
  | expression :: rest =>
      (evaluate_adds calls expression).bind fun _ =>
        (evaluateAll_adds calls rest).bind fun _ => Adds.pure _

end

theorem evaluateOptional_adds (calls : CallsAdd invoke) (expression : Option Expression) :
    Adds frame may (evaluateOptional invoke expression) := by
  cases expression with
  | none => exact Adds.pure _
  | some expression => exact evaluate_adds calls expression

/-! ### Statements -/

/-- By induction on the rounds. -/
theorem repeatWhile_adds {condition : Eval Value} {body : Eval Completion}
    (tests : Adds frame may condition) (goes : Adds frame may body) (rounds : Nat) :
    Adds frame may (repeatWhile condition body rounds) := by
  induction rounds with
  | zero => exact Adds.outOfFuel
  | succ rounds inductionHypothesis =>
      refine tests.bind fun value => Adds.ite (goes.bind fun completion => ?_) (Adds.pure _)
      cases completion with
      | normal => exact inductionHypothesis
      | returned value => exact Adds.pure _

theorem defineClass_adds (name : Token) (methods : List FunctionDeclaration)
    (allowed : may frame name.lexeme) : Adds frame may (defineClass name methods) :=
  (define_adds _ allowed).bind fun _ => (makeMethods_adds methods).bind fun _ =>
    freshIdentity_adds.bind fun _ => assignNearest_adds _ _

mutual

/-- By induction on the statement, whatever fuel there is for loops. The names that a block
declares are bound in its own frame. -/
theorem execute_adds (calls : CallsAdd invoke) (rounds : Nat) {frame : Nat}
    {may : Nat → String → Prop} : (statement : Statement) →
    (∀ name ∈ statement.declared, may frame name) → Adds frame may (execute invoke rounds statement)
  | .expression value, _ => (evaluate_adds calls value).bind fun _ => Adds.pure _
  | .print value, _ =>
      (evaluate_adds calls value).bind fun value => (printValue_adds value).bind fun _ =>
        Adds.pure _
  | .var _ initializer, allowed =>
      (evaluateOptional_adds calls initializer).bind fun _ =>
        (define_adds _ (allowed _ (List.mem_singleton_self _))).bind fun _ => Adds.pure _
  | .block statements, _ =>
      Adds.get.bind fun _ => Adds.inNewFrame _ fun _ =>
        (executeAll_adds calls rounds statements fun _ _ _ _ => Or.inl rfl).within
  | .conditional condition thenBranch none, allowed =>
      (evaluate_adds calls condition).bind fun _ =>
        Adds.ite (execute_adds calls rounds thenBranch allowed) (Adds.pure _)
  | .conditional condition thenBranch (some elseBranch), allowed =>
      (evaluate_adds calls condition).bind fun _ => Adds.ite
        (execute_adds calls rounds thenBranch fun name declared =>
          allowed name (List.mem_append_left _ declared))
        (execute_adds calls rounds elseBranch fun name declared =>
          allowed name (List.mem_append_right _ declared))
  | .loop condition body, allowed =>
      repeatWhile_adds (evaluate_adds calls condition) (execute_adds calls rounds body allowed)
        rounds
  | .function _, allowed =>
      Adds.get.bind fun _ => (makeFunction_adds _ _ _).bind fun _ =>
        (define_adds _ (allowed _ (List.mem_singleton_self _))).bind fun _ => Adds.pure _
  | .return _ value, _ => (evaluateOptional_adds calls value).bind fun _ => Adds.pure _
  | .class name methods, allowed =>
      (defineClass_adds name methods (allowed _ (List.mem_singleton_self _))).bind fun _ =>
        Adds.pure _

theorem executeAll_adds (calls : CallsAdd invoke) (rounds : Nat) {frame : Nat}
    {may : Nat → String → Prop} : (statements : List Statement) →
    (∀ statement ∈ statements, ∀ name ∈ statement.declared, may frame name) →
    Adds frame may (executeAll invoke rounds statements)
  | [], _ => Adds.pure _
  | statement :: rest, allowed => by
      have first := execute_adds calls rounds statement (allowed statement List.mem_cons_self)
      refine first.bind fun completion => ?_
      cases completion with
      | normal =>
          exact executeAll_adds calls rounds rest fun other member =>
            allowed other (List.mem_cons_of_mem statement member)
      | returned value => exact Adds.pure _

end

/-! ### Calls -/

theorem bindParameters_adds {target : Nat} (allowed : ∀ name, may target name)
    (pairs : List (Token × Value)) :
    Adds frame may (pairs.forM fun (parameter, argument) =>
      defineIn target parameter.lexeme argument) := by
  induction pairs with
  | nil => exact Adds.pure _
  | cons pair pairs inductionHypothesis =>
      exact (defineIn_adds _ (allowed _)).bind fun _ => inductionHypothesis

/-- Parameters and what a body declares are bound in the frame of the call. -/
theorem callFunction_adds {run : List Statement → Eval Completion}
    (runs : ∀ frame may, (∀ name, may frame name) →
      ∀ statements, Adds frame may (run statements)) :
    CallsAdd (callFunction run) := by
  intro frame may function paren arguments
  refine Adds.get.bind fun machine => Adds.ite (Adds.fail _ _) ?_
  refine Adds.inNewFrame _ fun new => ?_
  refine (bindParameters_adds (fun _ => Or.inl rfl) _).bind fun _ => ?_
  refine ((runs new _ (fun _ => Or.inl rfl) _).within.deeper).bind fun completion => ?_
  refine Adds.ite (Adds.get.bind fun _ => Adds.pure _) ?_
  cases completion with
  | normal => exact Adds.pure _
  | returned value => exact Adds.pure _

/-- By induction on the fuel for calls. -/
theorem invoke_adds (fuel : Nat) : CallsAdd (Evaluation.invoke fuel) := by
  induction fuel with
  | zero => exact fun _ _ _ _ _ => Adds.outOfFuel
  | succ fuel inductionHypothesis =>
      exact callFunction_adds fun frame may allowed statements =>
        executeAll_adds inductionHypothesis fuel statements fun _ _ name _ => allowed name

end Evaluation

end Lox
