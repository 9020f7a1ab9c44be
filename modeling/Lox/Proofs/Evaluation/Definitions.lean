import Lox.Proofs.Evaluation.Runs
import Lox.Proofs.Frames

/-!
Contract: declarations, as a value that is computed and then bound.

Owns: that methods depend on the current frame and the next identity alone, and that
binding the name of a class before its methods are made has no other effect than binding
it afterwards.
-/

namespace Lox.Evaluation

/-- A class with its methods, which is not bound to its name. -/
def classValue (name : Token) (methods : List FunctionDeclaration) : Eval Value := do
  let methods ← makeMethods methods
  return .class ⟨← freshIdentity, name.lexeme, methods⟩

/-- Methods are made from the current frame and the next identity, and only the latter is
different afterwards. -/
theorem makeMethods_result (declarations : List FunctionDeclaration)
    (environment identity : Nat) :
    ∃ methods next, ∀ machine : Machine, machine.environment = environment →
      machine.nextIdentity = identity →
      makeMethods declarations machine = .ok methods { machine with nextIdentity := next } := by
  have fold : ∀ (methods : Bindings FunctionValue) (identity : Nat),
      ∃ final next, ∀ machine : Machine, machine.nextIdentity = identity →
        (declarations.foldlM (fun methods declaration => do
          let method ← makeFunction declaration environment
            (declaration.name.lexeme == initializerName)
          return methods.insert declaration.name.lexeme method) methods : Eval _) machine =
        .ok final { machine with nextIdentity := next } := by
    induction declarations with
    | nil =>
        intro methods identity
        refine ⟨methods, identity, ?_⟩
        rintro machine rfl
        rfl
    | cons declaration declarations inductionHypothesis =>
        intro methods identity
        obtain ⟨final, next, rest⟩ := inductionHypothesis (methods.insert declaration.name.lexeme
          ⟨identity, declaration, environment, declaration.name.lexeme == initializerName⟩)
          (identity + 1)
        refine ⟨final, next, ?_⟩
        rintro machine rfl
        exact rest { machine with nextIdentity := machine.nextIdentity + 1 } rfl
  obtain ⟨final, next, result⟩ := fold ∅ identity
  refine ⟨final, next, ?_⟩
  rintro machine rfl same
  exact result machine same

/-- The name of a class may as well be bound when the class is there. -/
theorem defineClass_eq (name : Token) (methods : List FunctionDeclaration) {machine : Machine}
    (made : machine.environment < machine.frames.size) :
    defineClass name methods machine =
      (classValue name methods >>= define name.lexeme) machine := by
  obtain ⟨made', next, result⟩ :=
    makeMethods_result methods machine.environment machine.nextIdentity
  let bound : Machine :=
    { machine with frames := machine.frames.define machine.environment name.lexeme .nil }
  have whole : (classValue name methods >>= define name.lexeme) machine =
      .ok () { machine with
        frames := machine.frames.define machine.environment name.lexeme
          (.class ⟨next, name.lexeme, made'⟩)
        nextIdentity := next + 1 } := by
    unfold classValue
    rw [bind_assoc, bind_of_ok _ (result machine rfl rfl)]
    rfl
  have found : bound.frames.find? name.lexeme machine.environment = some machine.environment := by
    apply Frames.find?_self
    rw [Frames.lookup?_define_self _ made]
    rfl
  rw [whole]
  show (do
    let methods ← makeMethods methods
    assignNearest name (.class ⟨← freshIdentity, name.lexeme, methods⟩) : Eval Unit) bound = _
  rw [bind_of_ok _ (result bound rfl rfl)]
  show (do
    let owner ← require name (.undefinedVariable name.lexeme)
      (bound.frames.find? name.lexeme machine.environment)
    defineIn owner name.lexeme (.class ⟨next, name.lexeme, made'⟩) : Eval Unit)
      { bound with nextIdentity := next + 1 } = _
  rw [found]
  show EStateM.Result.ok () { bound with
    frames := bound.frames.define machine.environment name.lexeme
      (.class ⟨next, name.lexeme, made'⟩)
    nextIdentity := next + 1 } = _
  rw [Frames.define_define]

/-! ### Statements that declare a name -/

/-- A function that is not bound to its name. -/
def functionValue (declaration : FunctionDeclaration) : Eval Value := do
  return .function (← makeFunction declaration (← get).environment false)

variable (invoke : Invoke) (fuel : Nat)

theorem execute_var (name : Token) (initializer : Option Expression) :
    execute invoke fuel (.var name initializer) =
      ((evaluateOptional invoke initializer >>= define name.lexeme) >>= fun _ => pure .normal) := by
  rw [bind_assoc]
  rfl

theorem execute_function (declaration : FunctionDeclaration) :
    execute invoke fuel (.function declaration) =
      ((functionValue declaration >>= define declaration.name.lexeme) >>=
        fun _ => pure .normal) := by
  unfold functionValue
  rw [bind_assoc, bind_assoc]
  rfl

theorem execute_class (name : Token) (methods : List FunctionDeclaration) {machine : Machine}
    (made : machine.environment < machine.frames.size) :
    execute invoke fuel (.class name methods) machine =
      ((classValue name methods >>= define name.lexeme) >>= fun _ => pure .normal) machine := by
  show EStateM.bind (defineClass name methods) _ machine = EStateM.bind _ _ machine
  unfold EStateM.bind
  rw [defineClass_eq name methods made]

end Lox.Evaluation
