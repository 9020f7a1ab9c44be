import Mathlib
import Lox.Proofs.Evaluation.ForLoops
import Lox.Proofs.Lexical.Bound
import Lox.Proofs.Scope.ForLoops

/-!
Contract: what a `for` loop does.

Owns:
- `executeFor`, which executes a loop clause by clause;
- that executing the tree that stands for a loop is the same, on every store and at every place,
  outermost or not;
- that a machine does the same wherever a session gets to a loop.

Does not own: which words read as a loop, which frames a loop makes on a machine, and what
expressions and other statements do.
-/

namespace Lox.Lexical

open World
open Evaluation (Point)

/-! ### Loops, clause by clause -/

/-- Do what a loop starts with. The result is the place of the rounds. -/
def executeOpening (invoke : Invoke) (place : Place) : Opening → Eval Place
  | .nothing => return place
  | .variable name value =>
      declare place name.lexeme fun place => evaluateOptional invoke place value
  | .expression value => do
      let _ ← evaluate invoke place value
      return place

/-- Evaluate a condition. An absent one holds. -/
def evaluateCondition (invoke : Invoke) (place : Place) : Option Expression → Eval Value
  | none => return .boolean true
  | some condition => evaluate invoke place condition

/-- Go round as long as a condition holds, with fuel for so many rounds. The increment comes
behind a body that ends normally, and a body that returns ends the loop. -/
def goRound (condition : Eval Value) (body : Eval Completion) (increment : Eval Unit) :
    Nat → Eval Completion
  | 0 => throw .outOfFuel
  | fuel + 1 => do
      if (← condition).isTruthy then
        match ← body with
        | .normal =>
            increment
            goRound condition body increment fuel
        | .returned value => return .returned value
      else
        return .normal

/-- The rounds of a loop. Each of them begins at the same place: what the body declares is
not visible in the condition or the increment. -/
def executeRounds (invoke : Invoke) (fuel : Nat) (place : Place) (loop : ForLoop) :
    Eval Completion :=
  goRound (evaluateCondition invoke place loop.condition)
    (do return (← execute invoke fuel place loop.body).1)
    (do let _ ← evaluateOptional invoke place loop.increment)
    fuel

/-- Execute a loop at a place. Its variable has a scope of its own, and the place behind the
loop is the one before it. -/
def executeFor (invoke : Invoke) (fuel : Nat) (place : Place) (loop : ForLoop) :
    Eval Completion := do
  let inside ← executeOpening invoke (.inside place.names) loop.opening
  executeRounds invoke fuel inside loop

/-! ### Places with the same names -/

section Inside

variable (invoke : Invoke) (fuel : Nat) (place : Place)

mutual

/-- The value of an expression depends on the visible names alone. By induction on the
expression, as the place of a part is that of the whole. -/
theorem evaluate_inside : (expression : Expression) →
    evaluate invoke (.inside place.names) expression = evaluate invoke place expression
  | .literal _ _ | .variable _ _ | .this _ _ => rfl
  | .grouping _ inner => evaluate_inside inner
  | .unary _ _ operand => by
      simp only [evaluate, evaluate_inside operand]
  | .binary _ left _ right | .logical _ left _ right => by
      simp only [evaluate, evaluate_inside left, evaluate_inside right]
  | .assign _ _ value => by
      simp only [evaluate, evaluate_inside value]
      rfl
  | .call _ callee _ arguments => by
      simp only [evaluate, evaluate_inside callee, evaluateAll_inside arguments]
  | .get _ object _ => by
      simp only [evaluate, evaluate_inside object]
  | .set _ object _ value => by
      simp only [evaluate, evaluate_inside object, evaluate_inside value]

theorem evaluateAll_inside : (expressions : List Expression) →
    evaluateAll invoke (.inside place.names) expressions = evaluateAll invoke place expressions
  | [] => rfl
  | expression :: rest => by
      simp only [evaluateAll, evaluate_inside expression, evaluateAll_inside rest]

end

theorem evaluateOptional_inside (expression : Option Expression) :
    evaluateOptional invoke (.inside place.names) expression =
      evaluateOptional invoke place expression := by
  cases expression with
  | none => rfl
  | some expression => exact evaluate_inside invoke place expression

/-- What a statement does depends on the visible names alone, unless it is a declaration. By
induction on the statement: a block goes inside anyway, and no part that stays outside is a
declaration. -/
theorem execute_inside : (statement : Statement) → Grammar.Branch statement →
    (do return (← execute invoke fuel (.inside place.names) statement).1 : Eval Completion) =
      do return (← execute invoke fuel place statement).1
  | .expression value, _ | .print value, _ => by
      simp only [execute, evaluate_inside invoke place value, bind_assoc, pure_bind]
  | .block _, _ => by
      simp only [execute, bind_assoc, pure_bind]
      rfl
  | .return _ value, _ => by
      simp only [execute, evaluateOptional_inside invoke place value, bind_assoc, pure_bind]
  | .conditional condition thenBranch none, branch => by
      have inner := execute_inside thenBranch branch.2
      simp only [execute, evaluate_inside invoke place condition, bind_assoc]
      refine bind_congr fun value => ?_
      split
      case isTrue => simpa only [bind_assoc, pure_bind] using inner
      case isFalse => rfl
  | .conditional condition thenBranch (some elseBranch), branch => by
      have inner := execute_inside thenBranch branch.2.1
      have other := execute_inside elseBranch branch.2.2
      simp only [execute, evaluate_inside invoke place condition, bind_assoc]
      refine bind_congr fun value => ?_
      split
      case isTrue => simpa only [bind_assoc, pure_bind] using inner
      case isFalse => simpa only [bind_assoc, pure_bind] using other
  | .loop condition body, branch => by
      simp only [execute, evaluate_inside invoke place condition,
        execute_inside body branch.2, bind_assoc, pure_bind]

/-- The place behind a statement that is no declaration is the one before it. -/
theorem execute_of_noDeclaration {statement : Statement}
    (noDeclaration : statement.isDeclaration = false) :
    execute invoke fuel place statement =
      do return ((← execute invoke fuel place statement).1, place) := by
  cases statement with
  | var | function | «class» => cases noDeclaration
  | conditional condition thenBranch elseBranch =>
      cases elseBranch <;>
      · simp only [execute, bind_assoc]
        refine bind_congr fun value => ?_
        split <;> simp only [bind_assoc, pure_bind]
  | _ => simp only [execute, bind_assoc, pure_bind]

theorem executeRounds_inside (loop : ForLoop) :
    executeRounds invoke fuel (.inside place.names) loop =
      executeRounds invoke fuel place loop := by
  have condition : evaluateCondition invoke (.inside place.names) loop.condition =
      evaluateCondition invoke place loop.condition := by
    cases loop.condition with
    | none => rfl
    | some condition => exact evaluate_inside invoke place condition
  unfold executeRounds
  rw [condition, execute_inside invoke fuel place loop.body loop.branch,
    evaluateOptional_inside]

end Inside

/-! ### The tree of a loop -/

section Tree

variable (invoke : Invoke) (fuel : Nat) (place : Place)

/-- By induction on the fuel: a round is the body, and the increment behind it. -/
theorem goRound_eq (condition : Eval Value) (body : Eval Completion) (increment : Eval Unit) :
    goRound condition body increment fuel =
      Evaluation.repeatWhile condition (do
        match ← body with
        | .normal =>
            increment
            return .normal
        | .returned value => return .returned value) fuel := by
  induction fuel with
  | zero => rfl
  | succ fuel inductionHypothesis =>
      unfold goRound Evaluation.repeatWhile
      refine bind_congr fun value => ?_
      split
      case isFalse => rfl
      case isTrue =>
          rw [bind_assoc]
          refine bind_congr fun completion => ?_
          cases completion with
          | normal => simp only [bind_assoc, pure_bind, inductionHypothesis]
          | returned value => simp only [pure_bind]

/-- What follows a statement that is no declaration begins at the same place. -/
theorem executeAll_of_noDeclaration {statement : Statement}
    (noDeclaration : statement.isDeclaration = false) (rest : List Statement) :
    executeAll invoke fuel place (statement :: rest) = do
      match (← execute invoke fuel place statement).1 with
      | .normal => executeAll invoke fuel place rest
      | .returned value => return .returned value := by
  conv_lhs => rw [executeAll, execute_of_noDeclaration invoke fuel place noDeclaration, bind_assoc]
  refine bind_congr fun result => ?_
  rw [pure_bind]
  cases result.1 <;> rfl

/-- The tree of a round executes the body, and the increment behind a body that ends
normally. -/
theorem execute_round (loop : ForLoop) :
    (do return (← execute invoke fuel place loop.round).1 : Eval Completion) = do
      match ← (do return (← execute invoke fuel place loop.body).1 : Eval Completion) with
      | .normal =>
          let _ ← evaluateOptional invoke place loop.increment
          return .normal
      | .returned value => return .returned value := by
  unfold ForLoop.round Grammar.forRound
  cases loop.increment with
  | none =>
      simp only [bind_assoc, pure_bind]
      refine bind_congr fun result => ?_
      cases result.1 <;> rfl
  | some increment =>
      -- The block of a round is inside the place of the loop, and shows the same names.
      rw [← execute_inside invoke fuel place loop.body loop.branch,
        ← evaluateOptional_inside]
      simp only [execute, bind_assoc, pure_bind, bind_pure]
      rw [executeAll_of_noDeclaration invoke fuel _ loop.branch.1]
      refine bind_congr fun result => ?_
      cases result.1 with
      | normal => simp only [executeAll, execute, evaluateOptional, bind_assoc, pure_bind]
      | returned value => rfl

/-- The tree of a loop without its opening goes round. -/
theorem execute_loop (loop : ForLoop) (id : Nat) :
    execute invoke fuel place
        (.loop (Grammar.forCondition loop.condition id).1 loop.round) =
      do return (← executeRounds invoke fuel place loop, place) := by
  have condition : evaluate invoke place (Grammar.forCondition loop.condition id).1 =
      evaluateCondition invoke place loop.condition := by
    cases loop.condition <;> rfl
  unfold execute executeRounds
  dsimp only
  rw [condition, execute_round, goRound_eq]
  simp only [bind_assoc, pure_bind]

theorem executeAll_loop (loop : ForLoop) (id : Nat) :
    executeAll invoke fuel place [.loop (Grammar.forCondition loop.condition id).1 loop.round] =
      executeRounds invoke fuel place loop := by
  rw [executeAll, execute_loop, bind_assoc]
  conv_rhs => rw [← bind_pure (executeRounds invoke fuel place loop)]
  refine bind_congr fun completion => ?_
  rw [pure_bind]
  cases completion <;> rfl

/-- Executing the tree that stands for a loop is executing the loop, clause by clause. -/
theorem execute_for (loop : ForLoop) (id : Nat) :
    execute invoke fuel place (loop.statement id) =
      do return (← executeFor invoke fuel place loop, place) := by
  unfold executeFor
  cases opening : loop.opening with
  | nothing =>
      rw [loop.statement_of_nothing id (by rw [opening]; rfl), execute_loop]
      simp only [executeOpening, pure_bind, executeRounds_inside]
  | «variable» name value =>
      rw [loop.statement_of_some id (by rw [opening]; rfl), execute, executeAll]
      simp only [execute, executeAll_loop, executeOpening, bind_assoc, pure_bind]
  | expression value =>
      rw [loop.statement_of_some id (by rw [opening]; rfl), execute, executeAll]
      simp only [execute, executeAll_loop, executeOpening, bind_assoc, pure_bind]

end Tree

/-! ### Loops on a machine -/

/-- The variable of a loop has a cell of its own, which comes to the names around the loop. -/
theorem opening_place {invoke : Invoke} {names : Names} {name : Token}
    {value : Option Expression} {store final : Store} {inside : Place}
    (done : executeOpening invoke (.inside names) (.variable name value) store =
      .ok inside final) :
    inside = .inside (names.insert name.lexeme store.cells.size) := by
  obtain ⟨cell, middle, made, done⟩ := Evaluation.bind_ok done
  cases made
  obtain ⟨result, later, _, done⟩ := Evaluation.bind_ok done
  obtain ⟨_, _, _, done⟩ := Evaluation.bind_ok done
  cases done
  rfl

/-- A machine executes the tree of a loop as a store executes the loop. The names that are
visible behind the loop are those before it. -/
theorem executeFor_simulates {left : Evaluation.Invoke} {right : Invoke}
    (invokes : InvokeLike left right) (fuel : Nat) {world : World} {scopes : Scope.Scopes}
    {frame : Nat} {place : Place} (stands : Stands world scopes frame place) (loop : ForLoop)
    (id : Nat) (resolved : Scope.ResolvedStatement world.recorded scopes (loop.statement id)) :
    Simulates (only frame) (fun future completion other =>
        CompletionLike future completion other ∧ Stands future scopes frame place) world frame
      (Evaluation.execute left fuel (loop.statement id)) (executeFor right fuel place loop) := by
  have same : executeFor right fuel place loop =
      do return (← execute right fuel place (loop.statement id)).1 := by
    simp only [execute_for, bind_assoc, pure_bind, bind_pure]
  rw [same]
  exact (execute_simulates invokes fuel stands _ resolved).mapRight
    fun _ _ _ _ ends => ⟨ends.like, ends.ofBranch loop.noDeclaration⟩

/-- At a point at which a loop is to be executed, the machine corresponds to a store at some
place, and the loop ends as it does clause by clause on that store. -/
def RunsClauseByClause (point : Point) (loop : ForLoop) (id : Nat) : Prop :=
  ∃ world store scopes place, Heap world point.machine store ∧
    Stands world scopes point.machine.environment place ∧
    Agree (only point.machine.environment) (fun future completion other =>
        CompletionLike future completion other ∧
          Stands future scopes point.machine.environment place) world point.machine
      (Evaluation.execute (Evaluation.invoke point.fuel) point.fuel (loop.statement id)
        point.machine)
      (executeFor (invoke point.fuel) point.fuel place loop store)

theorem Sound.runs {point : Point} (sound : Sound point) {loop : ForLoop} {id : Nat}
    (task : point.task = .statement (loop.statement id)) : RunsClauseByClause point loop id := by
  obtain ⟨fuel, _, machine⟩ := point
  obtain ⟨world, store, heap, fits⟩ := sound
  subst task
  obtain ⟨scopes, place, stands, resolved⟩ := fits
  exact ⟨world, store, scopes, place, heap, stands,
    executeFor_simulates (invoke_simulates fuel) fuel stands loop id resolved machine store heap
      rfl⟩

/-- A `for` statement is a loop, clause by clause. On every machine, executing the tree that
stands for it is executing the loop as its clauses say; the loop leaves the current frame and the
names around it as they were; and in an accepted program its condition and its increment see its
own variable. Whatever a session has done before, and wherever a loop is to be executed, the
machine does what the clauses say on a store on which every variable has a cell. The variable of
the loop has a cell of its own, which the condition and the increment see in each round, and which
is not visible behind the loop. -/
theorem for_loops_run_clause_by_clause (output : Output) (time : Nat → Float)
    (requests : List Request) (fuel : Nat) (source : String) :
    let session := ((Lox.Session.start output time).serveAll requests).2
    (∀ keyword rest first next dangling statement, keyword.isKeyword .for →
      (Grammar.Reads (keyword :: rest) first (.statement dangling statement) next ↔
        ∃ loop last, Grammar.ReadsFor first dangling loop last (keyword :: rest) ∧
          statement = loop.statement last ∧
          next = (Grammar.forCondition loop.condition last).2)) ∧
    (∀ calls rounds loop id (machine : Machine),
      let invoke := Evaluation.invoke calls
      let result := Evaluation.execute invoke rounds (loop.statement id) machine
      result = Evaluation.executeFor invoke rounds loop machine ∧
        (Evaluation.final result).environment = machine.environment ∧
        machine.frames.Grown (fun _ _ => False) (Evaluation.final result).frames) ∧
    (∀ firstId program table next, AcceptedUnit source firstId program table next →
      ∀ position setting loop id name value,
        Scope.At .outermost (.program program) position setting
            (.statement (loop.statement id)) →
          loop.opening = .variable name value → Scope.SeesOwnVariable table loop name) ∧
    (∀ invoke names name value store inside final,
      executeOpening invoke (.inside names) (.variable name value) store = .ok inside final →
        inside = .inside (names.insert name.lexeme store.cells.size)) ∧
    ∀ point loop id, Visits session fuel source point →
      point.task = .statement (loop.statement id) → RunsClauseByClause point loop id := by
  intro session
  obtain ⟨_, world, corresponds⟩ := (Corresponds.start output time).serveAll requests
  refine ⟨fun keyword rest first next dangling statement isFor => Grammar.reads_for_iff isFor,
    fun calls rounds loop id machine => ?_,
    fun firstId program table next unit position setting loop id name value place opening =>
      Scope.seesOwnVariable unit.numbered.distinct unit.checked place opening,
    fun invoke names name value store inside final done => opening_place done, ?_⟩
  · refine ⟨?_, Evaluation.execute_for_keeps calls rounds loop id machine⟩
    exact congrFun (Evaluation.execute_for (Evaluation.invoke calls) rounds loop id) machine
  · rintro point loop id ⟨program, table, next, unit, reaches⟩ task
    exact (sound_of_reaches reaches (corresponds.sound unit fuel)).runs task

/-- The increment of a loop changes the variable of the loop, not the one that the body
declares, and so the loop ends. A `for` without clauses reads as a loop without any. -/
theorem increment_past_the_body :
    let session := ((Lox.Session.start (.open #[]) fun _ => 0).serveAll []).2
    let source := "for(var a=true;a;a=nil){var a;}"
    let name : Token := ⟨.identifier, "a", 1⟩
    let store := Store.start (.open #[]) fun _ => 0
    let keyword : Token := ⟨.keyword .for, "for", 1⟩
    let symbol := fun symbol text => (⟨.symbol symbol, text, 1⟩ : Token)
    let clauses := [symbol .leftParen "(", symbol .semicolon ";", symbol .semicolon ";",
      symbol .rightParen ")"]
    let body := [symbol .leftBrace "\x7b", symbol .rightBrace "\x7d"]
    (∃ loop machine, loop.opening = .variable name (some (.literal 0 (.boolean true))) ∧
      loop.body = .block [.var name none] ∧
      Visits session 2 source ⟨2, .statement (loop.statement 5), machine⟩ ∧
      RunsClauseByClause ⟨2, .statement (loop.statement 5), machine⟩ loop 5) ∧
    (∃ loop program table next position setting,
      AcceptedUnit source session.nextId program table next ∧
      Scope.At .outermost (.program program) position setting (.statement (loop.statement 5)) ∧
      loop.opening = .variable name (some (.literal 0 (.boolean true))) ∧
      Scope.SeesOwnVariable table loop name) ∧
    (session.run 2 source).1 = .finished ∧
    (∃ inside final,
      executeOpening (invoke 0) (.inside ∅) (.variable name none) store = .ok inside final ∧
        inside = .inside ((∅ : Names).insert "a" 0)) ∧
    ∃ loop last, Grammar.ReadsFor 0 false loop last (keyword :: (clauses ++ body)) ∧
      .loop (.literal 0 (.boolean true)) (.block []) = loop.statement last := by
  intro session source name store keyword symbol clauses body
  let loop : ForLoop :=
    ⟨.variable name (some (.literal 0 (.boolean true))), some (.variable 1 name),
      some (.assign 4 name (.literal 3 .nil)), .block [.var name none], rfl, trivial, trivial⟩
  have unit : AcceptedUnit source session.nextId [loop.statement 5]
      (((∅ : Scope.Locals).insert 1 0).insert 4 1) 5 := ⟨by cbv, rfl⟩
  have visits : Visits session 2 source ⟨2, .statement (loop.statement 5), _⟩ :=
    ⟨_, _, _, unit, .single .firstStatement⟩
  obtain ⟨reads, -, sees, cells, runs⟩ :=
    for_loops_run_clause_by_clause (.open #[]) (fun _ => 0) [] 2 source
  have place : Scope.At .outermost (.program [loop.statement 5]) [0] .outermost
      (.statement (loop.statement 5)) := .part rfl .here
  refine ⟨⟨loop, _, rfl, rfl, visits, runs _ loop 5 visits rfl⟩,
    ⟨loop, _, _, _, _, _, unit, place, rfl, sees _ _ _ _ unit _ _ loop 5 name _ place rfl⟩,
    ?_, ?_, ?_⟩
  · rw [Lox.Session.run_of_accepted unit]
    cbv
  · exact ⟨_, _, rfl, cells (invoke 0) ∅ name none store _ _ rfl⟩
  · have isFor : keyword.isKeyword .for := rfl
    have isLeft : (symbol .leftParen "(").isSymbol .leftParen := rfl
    have isStop : (symbol .semicolon ";").isSymbol .semicolon := rfl
    have isRight : (symbol .rightParen ")").isSymbol .rightParen := rfl
    have bodyRead : Grammar.Reads body 0 (.statement false (.block [])) 0 :=
      .block rfl .noDeclaration rfl
    have whole := Grammar.Reads.for isFor isLeft (.noInitializer isStop) .absent isStop .absent
      isRight bodyRead
    obtain ⟨loop, last, read, same, -⟩ :=
      (reads keyword (clauses ++ body) _ _ _ _ isFor).mp whole
    exact ⟨loop, last, read, same⟩

end Lox.Lexical
