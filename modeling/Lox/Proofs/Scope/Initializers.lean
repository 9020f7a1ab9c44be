import Lox.Proofs.Evaluation.Requirements
import Lox.Proofs.Scope.Table

/-!
Contract: initializers return no values.

Owns:
- `Statement.ReturnsBare`: the returns of a statement give no value, but for those in its
  functions;
- `Scope.Checked`: the requirement that nothing is wrong with a function, an initializer having
  been checked as one;
- that the functions of an accepted program are checked, and those in the bodies of checked
  functions, and that checked initializers only return without a value.
-/

namespace Lox

mutual

/-- The returns of a statement give no value. Those in the bodies of functions may. -/
def Statement.ReturnsBare : Statement → Prop
  | .return _ value => value = none
  | .block statements => Statement.AllReturnBare statements
  | .conditional _ thenBranch none => thenBranch.ReturnsBare
  | .conditional _ thenBranch (some elseBranch) =>
      thenBranch.ReturnsBare ∧ elseBranch.ReturnsBare
  | .loop _ body => body.ReturnsBare
  | .expression _ | .print _ | .var _ _ | .function _ | .class _ _ => True

/-- The same for several statements. -/
def Statement.AllReturnBare : List Statement → Prop
  | [] => True
  | statement :: rest => statement.ReturnsBare ∧ Statement.AllReturnBare rest

end

namespace Scope

/-- Nothing is wrong with a function, where it stands. An initializer stands where returns give no
value. -/
def Checked : Requirement := fun declaration isInitializer =>
  ∃ context scopes, (isInitializer = true → context.surrounding = .initializer) ∧
    violations (ofFunction context scopes declaration) = []

mutual

/-- In an initializer nothing is wrong with returns that give no value only. -/
theorem returnsBare_of_quiet {inClass : Bool} (scopes : Scopes) : (statement : Statement) →
    violations (ofStatement ⟨.initializer, inClass⟩ scopes statement).2 = [] →
    statement.ReturnsBare
  | .return _ none, _ => rfl
  | .return _ (some _), quiet => by
      have wrong := (violations_append_eq_nil.mp quiet).1
      cases wrong
  | .block statements, quiet => allReturnBare_of_quiet ([] :: scopes) statements quiet
  | .conditional _ thenBranch none, quiet =>
      returnsBare_of_quiet scopes thenBranch (violations_append_eq_nil.mp quiet).2
  | .conditional _ thenBranch (some elseBranch), quiet => by
      obtain ⟨front, elseQuiet⟩ := violations_append_eq_nil.mp quiet
      exact ⟨returnsBare_of_quiet scopes thenBranch (violations_append_eq_nil.mp front).2,
        returnsBare_of_quiet _ elseBranch elseQuiet⟩
  | .loop _ body, quiet => returnsBare_of_quiet scopes body (violations_append_eq_nil.mp quiet).2
  | .expression _, _ | .print _, _ | .var _ _, _ | .function _, _ | .class _ _, _ => trivial

theorem allReturnBare_of_quiet {inClass : Bool} (scopes : Scopes) :
    (statements : List Statement) →
    violations (ofStatements ⟨.initializer, inClass⟩ scopes statements) = [] →
    Statement.AllReturnBare statements
  | [], _ => trivial
  | statement :: rest, quiet => by
      obtain ⟨first, behind⟩ := violations_append_eq_nil.mp quiet
      exact ⟨returnsBare_of_quiet scopes statement first, allReturnBare_of_quiet _ rest behind⟩

end

/-- The methods of a class are checked, and the initializer is checked as one. -/
theorem methods_checked {scopes : Scopes} {methods : List FunctionDeclaration}
    (quiet : violations (ofMethods scopes methods) = []) :
    ∀ method ∈ methods, Checked method (method.name.lexeme == initializerName) := by
  induction methods with
  | nil => exact fun method member => by cases member
  | cons method rest inductionHypothesis =>
      obtain ⟨first, behind⟩ := violations_append_eq_nil.mp quiet
      refine List.forall_mem_cons.mpr ⟨⟨_, scopes, fun named => ?_, first⟩,
        inductionHypothesis behind⟩
      exact if_pos (eq_of_beq named)

mutual

/-- The functions that a statement declares are checked, if nothing is wrong with it. -/
theorem meets_checked {context : Context} (scopes : Scopes) : (statement : Statement) →
    violations (ofStatement context scopes statement).2 = [] → statement.Meets Checked
  | .function declaration, quiet =>
      ⟨_, _, Bool.noConfusion, (violations_append_eq_nil.mp quiet).2⟩
  | .class _ methods, quiet => methods_checked (violations_append_eq_nil.mp quiet).2
  | .block statements, quiet => allMeet_checked ([] :: scopes) statements quiet
  | .conditional _ thenBranch none, quiet =>
      meets_checked scopes thenBranch (violations_append_eq_nil.mp quiet).2
  | .conditional _ thenBranch (some elseBranch), quiet => by
      obtain ⟨front, elseQuiet⟩ := violations_append_eq_nil.mp quiet
      exact ⟨meets_checked scopes thenBranch (violations_append_eq_nil.mp front).2,
        meets_checked _ elseBranch elseQuiet⟩
  | .loop _ body, quiet => meets_checked scopes body (violations_append_eq_nil.mp quiet).2
  | .expression _, _ | .print _, _ | .var _ _, _ | .return _ _, _ => trivial

theorem allMeet_checked {context : Context} (scopes : Scopes) : (statements : List Statement) →
    violations (ofStatements context scopes statements) = [] →
    Statement.AllMeet Checked statements
  | [], _ => trivial
  | statement :: rest, quiet => by
      obtain ⟨first, behind⟩ := violations_append_eq_nil.mp quiet
      exact ⟨meets_checked scopes statement first, allMeet_checked _ rest behind⟩

end

/-- The functions in the body of a checked function are checked. -/
theorem checked_passesOn : Checked.PassesOn := by
  rintro ⟨name, parameters, body⟩ isInitializer ⟨context, scopes, _, quiet⟩
  exact allMeet_checked _ body (violations_append_eq_nil.mp quiet).2

/-- The body of a checked initializer returns without a value only. -/
theorem Checked.allReturnBare {declaration : FunctionDeclaration}
    (checked : Checked declaration true) : Statement.AllReturnBare declaration.body := by
  obtain ⟨⟨surrounding, inClass⟩, scopes, initializer, quiet⟩ := checked
  obtain rfl : surrounding = .initializer := initializer rfl
  obtain ⟨name, parameters, body⟩ := declaration
  exact allReturnBare_of_quiet _ body (violations_append_eq_nil.mp quiet).2

theorem allMeet_of_resolve {program : List Statement} {table : Locals}
    (accepted : resolve program = .ok table) : Statement.AllMeet Checked program :=
  allMeet_checked [] program (resolve_eq_ok_iff.mp accepted).1

end Scope

end Lox
