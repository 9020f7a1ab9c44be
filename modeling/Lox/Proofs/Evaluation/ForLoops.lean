import Lox.Proofs.Evaluation.Additions
import Lox.Proofs.Grammar.ForLoops
import Lox.Proofs.Scope.Declared

/-!
Contract: `for` loops on a machine, clause by clause.

Owns:
- `inNewScope`, a computation in a scope of its own;
- `executeFor`, which does what the clauses of a loop say, each in its scope;
- that executing the tree of a loop is the same on every machine, and leaves nothing behind in
  the scopes around the loop.

Nothing is assumed of the machine. Which declarations the names in a loop refer to is not
decided here.
-/

namespace Lox

/-- The tree of a loop declares no name in the scope in which it stands. -/
theorem ForLoop.declared (loop : ForLoop) (id : Nat) : (loop.statement id).declared = [] := by
  have round : loop.round.declared = [] := by
    unfold ForLoop.round Grammar.forRound
    cases loop.increment with
    | some => rfl
    | none => exact loop.body.declared_of_branch loop.branch.1 loop.branch.2
  cases opening : loop.opening.statement? with
  | some => rw [loop.statement_of_some id opening]; rfl
  | none => rw [loop.statement_of_nothing id opening]; exact round

namespace Evaluation

/-- Run a computation in a new scope inside the current one. The scope ends with it. -/
def inNewScope {α : Type} (computation : Eval α) : Eval α := do
  let frame ← pushFrame (← get).environment
  within frame computation

variable (invoke : Invoke) (fuel : Nat)

/-- Evaluate a condition. An absent one holds. -/
def evaluateCondition : Option Expression → Eval Value
  | none => return .boolean true
  | some condition => evaluate invoke condition

/-- One round: the body and, behind a body that ends normally, the increment. A loop with an
increment has a scope of its own for each round. -/
def executeRound (loop : ForLoop) : Eval Completion :=
  match loop.increment with
  | none => execute invoke fuel loop.body
  | some increment =>
      inNewScope do
        match ← execute invoke fuel loop.body with
        | .normal =>
            let _ ← evaluate invoke increment
            return .normal
        | .returned value => return .returned value

/-- The rounds of a loop, as long as its condition holds. -/
def executeRounds (loop : ForLoop) : Eval Completion :=
  repeatWhile (evaluateCondition invoke loop.condition) (executeRound invoke fuel loop) fuel

/-- A loop. What it starts with is done once, and together with the rounds it is in a scope of
its own. -/
def executeFor (loop : ForLoop) : Eval Completion :=
  match loop.opening with
  | .nothing => executeRounds invoke fuel loop
  | .variable name value =>
      inNewScope do
        define name.lexeme (← evaluateOptional invoke value)
        executeRounds invoke fuel loop
  | .expression value =>
      inNewScope do
        let _ ← evaluate invoke value
        executeRounds invoke fuel loop

theorem execute_block (statements : List Statement) :
    execute invoke fuel (.block statements) = inNewScope (executeAll invoke fuel statements) :=
  rfl

/-- A single statement ends as it does alone. -/
theorem executeAll_singleton (statement : Statement) :
    executeAll invoke fuel [statement] = execute invoke fuel statement := by
  unfold executeAll
  apply Eq.trans _ (bind_pure _)
  apply bind_congr
  intro completion
  cases completion <;> rfl

theorem execute_round (loop : ForLoop) :
    execute invoke fuel loop.round = executeRound invoke fuel loop := by
  unfold ForLoop.round Grammar.forRound executeRound
  cases loop.increment with
  | none => rfl
  | some increment =>
      dsimp only
      rw [execute_block, executeAll, executeAll_singleton]
      rfl

theorem execute_loop (loop : ForLoop) (id : Nat) :
    execute invoke fuel (.loop (Grammar.forCondition loop.condition id).1 loop.round) =
      executeRounds invoke fuel loop := by
  have condition : evaluate invoke (Grammar.forCondition loop.condition id).1 =
      evaluateCondition invoke loop.condition := by
    cases loop.condition <;> rfl
  unfold execute executeRounds
  rw [condition, execute_round]

/-- Executing the tree of a loop is executing the loop, on every machine. -/
theorem execute_for (loop : ForLoop) (id : Nat) :
    execute invoke fuel (loop.statement id) = executeFor invoke fuel loop := by
  unfold executeFor
  cases opening : loop.opening with
  | nothing => rw [loop.statement_of_nothing id (by rw [opening]; rfl), execute_loop]
  | «variable» name value =>
      rw [loop.statement_of_some id (by rw [opening]; rfl), execute_block, executeAll,
        executeAll_singleton, execute_loop]
      simp only [execute, bind_assoc, pure_bind]
  | expression value =>
      rw [loop.statement_of_some id (by rw [opening]; rfl), execute_block, executeAll,
        executeAll_singleton, execute_loop]
      simp only [execute, bind_assoc, pure_bind]

/-- However a loop ends, the current frame is the one before it, and no frame that was there
before has another name. -/
theorem execute_for_keeps (rounds : Nat) (loop : ForLoop) (id : Nat) (machine : Machine) :
    let after := final (execute (Evaluation.invoke fuel) rounds (loop.statement id) machine)
    after.environment = machine.environment ∧
      machine.frames.Grown (fun _ _ => False) after.frames := by
  apply execute_adds (invoke_adds fuel) rounds (loop.statement id) _ machine rfl
  simp [loop.declared id]

end Evaluation

end Lox
