import Lox.Proofs.Evaluation.Runs
import Lox.Proofs.Scope.Table

/-!
Contract: statements that do not return.

Owns:
- `Statement.Stays`: a statement has no `return`, but for those in its functions;
- that such a statement ends normally, if it ends;
- that the outermost statements of an accepted program are of this kind.
-/

namespace Lox

mutual

/-- A statement does not return. The bodies of functions may. -/
def Statement.Stays : Statement → Prop
  | .return _ _ => False
  | .block statements => Statement.AllStay statements
  | .conditional _ thenBranch none => thenBranch.Stays
  | .conditional _ thenBranch (some elseBranch) => thenBranch.Stays ∧ elseBranch.Stays
  | .loop _ body => body.Stays
  | .expression _ | .print _ | .var _ _ | .function _ | .class _ _ => True

/-- The same for several statements. -/
def Statement.AllStay : List Statement → Prop
  | [] => True
  | statement :: rest => statement.Stays ∧ Statement.AllStay rest

end

/-! ### Accepted programs -/

namespace Scope

mutual

/-- A statement outside all functions does not return, if nothing is wrong with it. -/
theorem stays_of_quiet {inClass : Bool} (scopes : Scopes) : (statement : Statement) →
    violations (ofStatement ⟨.topLevel, inClass⟩ scopes statement).2 = [] → statement.Stays
  | .return _ _, quiet => by
      have wrong := (violations_append_eq_nil.mp quiet).1
      cases wrong
  | .block statements, quiet => allStay_of_quiet ([] :: scopes) statements quiet
  | .conditional _ thenBranch none, quiet =>
      stays_of_quiet scopes thenBranch (violations_append_eq_nil.mp quiet).2
  | .conditional _ thenBranch (some elseBranch), quiet => by
      obtain ⟨front, elseQuiet⟩ := violations_append_eq_nil.mp quiet
      exact ⟨stays_of_quiet scopes thenBranch (violations_append_eq_nil.mp front).2,
        stays_of_quiet _ elseBranch elseQuiet⟩
  | .loop _ body, quiet => stays_of_quiet scopes body (violations_append_eq_nil.mp quiet).2
  | .expression _, _ | .print _, _ | .var _ _, _ | .function _, _ | .class _ _, _ => trivial

theorem allStay_of_quiet {inClass : Bool} (scopes : Scopes) : (statements : List Statement) →
    violations (ofStatements ⟨.topLevel, inClass⟩ scopes statements) = [] →
    Statement.AllStay statements
  | [], _ => trivial
  | statement :: rest, quiet => by
      obtain ⟨first, behind⟩ := violations_append_eq_nil.mp quiet
      exact ⟨stays_of_quiet scopes statement first, allStay_of_quiet _ rest behind⟩

end

theorem allStay_of_resolve {program : List Statement} {table : Locals}
    (accepted : resolve program = .ok table) : Statement.AllStay program :=
  allStay_of_quiet [] program (resolve_eq_ok_iff.mp accepted).1

end Scope

/-! ### Running -/

namespace Evaluation

variable {invoke : Invoke} {fuel : Nat}

theorem repeatWhile_normal {condition : Eval Value} {body : Eval Completion}
    (stays : ∀ machine completion final, body machine = .ok completion final →
      completion = .normal) (rounds : Nat) {machine final : Machine} {completion : Completion}
    (done : repeatWhile condition body rounds machine = .ok completion final) :
    completion = .normal := by
  induction rounds generalizing machine with
  | zero => cases done
  | succ rounds inductionHypothesis =>
      obtain ⟨value, middle, _, rest⟩ := bind_ok done
      by_cases truthy : value.isTruthy = true
      · rw [if_pos truthy] at rest
        obtain ⟨ended, later, bodyDone, further⟩ := bind_ok rest
        obtain rfl := stays _ _ _ bodyDone
        exact inductionHypothesis further
      · rw [if_neg truthy] at rest
        cases rest
        rfl

mutual

/-- By induction on the statement. -/
theorem execute_normal : (statement : Statement) → statement.Stays →
    ∀ {machine final : Machine} {completion : Completion},
    execute invoke fuel statement machine = .ok completion final → completion = .normal
  | .expression _, _, _, _, _, done | .class _ _, _, _, _, _, done => by
      obtain ⟨_, _, _, last⟩ := bind_ok done
      cases last
      rfl
  | .print _, _, _, _, _, done | .var _ _, _, _, _, _, done => by
      obtain ⟨_, _, _, rest⟩ := bind_ok done
      obtain ⟨_, _, _, last⟩ := bind_ok rest
      cases last
      rfl
  | .function _, _, _, _, _, done => by
      obtain ⟨_, _, _, rest⟩ := bind_ok done
      obtain ⟨_, _, _, rest⟩ := bind_ok rest
      obtain ⟨_, _, _, last⟩ := bind_ok rest
      cases last
      rfl
  | .block statements, stays, _, _, _, done => by
      obtain ⟨_, _, _, rest⟩ := bind_ok done
      obtain ⟨frame, _, _, inner⟩ := bind_ok rest
      obtain ⟨_, ended⟩ := within_ok inner
      exact executeAll_normal statements stays ended
  | .conditional condition thenBranch none, stays, _, _, _, done => by
      obtain ⟨value, middle, _, rest⟩ := bind_ok done
      by_cases truthy : value.isTruthy = true
      · rw [if_pos truthy] at rest
        exact execute_normal thenBranch stays rest
      · rw [if_neg truthy] at rest
        cases rest
        rfl
  | .conditional condition thenBranch (some elseBranch), stays, _, _, _, done => by
      obtain ⟨value, middle, _, rest⟩ := bind_ok done
      by_cases truthy : value.isTruthy = true
      · rw [if_pos truthy] at rest
        exact execute_normal thenBranch stays.1 rest
      · rw [if_neg truthy] at rest
        exact execute_normal elseBranch stays.2 rest
  | .loop condition body, stays, _, _, _, done =>
      repeatWhile_normal (fun _ _ _ bodyDone => execute_normal body stays bodyDone) fuel done

theorem executeAll_normal : (statements : List Statement) → Statement.AllStay statements →
    ∀ {machine final : Machine} {completion : Completion},
    executeAll invoke fuel statements machine = .ok completion final → completion = .normal
  | [], _, _, _, _, done => by
      cases done
      rfl
  | statement :: rest, stays, _, _, _, done => by
      obtain ⟨ended, middle, first, behind⟩ := bind_ok done
      obtain rfl := execute_normal statement stays.1 first
      exact executeAll_normal rest stays.2 behind

end

end Evaluation

end Lox
