import Lox.Proofs.Evaluation.Origin
import Lox.Proofs.Evaluation.Restoration
import Lox.Proofs.Session.Units
import Lox.Proofs.Session.Requests

/-!
Contract: the depth of calls while programs run.

Owns:
- `Stacked`: a point is reached from another one, with so many calls under way in between;
- that the depth is the number of calls under way, and never exceeds `maxDepth`;
- which calls are refused, that the bodies of all others are run, and on which machine;
- that a session always goes on outside all scopes and calls.
-/

namespace Lox.Evaluation

/-! ### Calls under way -/

/-- How many calls are entered on the way from a point to its parts. The body of a function is
the only part of a call. -/
def Point.opens (point : Point) : Nat :=
  match point.task with
  | .call .. => 1
  | _ => 0

/-- `Stacked start calls point`: the point is a part of another one, at any depth, with so many
calls under way in between. -/
inductive Stacked (start : Point) : Nat → Point → Prop where
  | start : Stacked start 0 start
  | part {calls : Nat} {point next : Point} :
      Stacked start calls point → Demands point next → Stacked start (calls + point.opens) next

/-- Whatever is reached is reached with some number of calls under way. -/
theorem stacked_of_reaches {start point : Point} (reaches : Reaches start point) :
    ∃ calls, Stacked start calls point := by
  induction reaches with
  | refl => exact ⟨0, .start⟩
  | tail _ demands inductionHypothesis =>
      obtain ⟨calls, stacked⟩ := inductionHypothesis
      exact ⟨_, .part stacked demands⟩

theorem openFrame_restores (function : FunctionValue) (arguments : List Value) :
    Restores (openFrame function arguments) :=
  (pushFrame_restores _).bind fun frame => (bindParameters_restores frame _).bind fun _ =>
    Restores.pure _

/-- A part has the globals of the whole, and is as deep as it or one call deeper. -/
theorem Demands.placed {point next : Point} (demands : Demands point next) :
    next.machine.globals = point.machine.globals ∧
      next.machine.depth = point.machine.depth + point.opens := by
  cases demands with
  | rightOperand done | rightCondition done | assignment done | arguments done
  | fieldValue done | nextExpressions done | thenBranch done | elseBranch done | loopBody done =>
      have restored := (evaluate_restores (invoke_restores _) _).of_ok done
      exact ⟨restored.globals, restored.depth⟩
  | application first rest =>
      have callee := (evaluate_restores (invoke_restores _) _).of_ok first
      have values := callee.trans ((evaluateAll_restores (invoke_restores _) _).of_ok rest)
      exact ⟨values.globals, values.depth⟩
  | initializer _ _ made bound =>
      have target := (makeInstance_restores _).of_ok made
      have method := target.trans ((bindMethod_restores _ _).of_ok bound)
      exact ⟨method.globals, method.depth⟩
  | body _ opened =>
      have restored := (openFrame_restores _ _).of_ok opened
      exact ⟨restored.globals, congrArg (· + 1) restored.depth⟩
  | nextRound first _ round =>
      have condition := (evaluate_restores (invoke_restores _) _).of_ok first
      have body := condition.trans ((execute_restores (invoke_restores _) _ _).of_ok round)
      exact ⟨body.globals, body.depth⟩
  | nextStatements done =>
      have restored := (execute_restores (invoke_restores _) _ _).of_ok done
      exact ⟨restored.globals, restored.depth⟩
  | _ => exact ⟨rfl, rfl⟩

/-- No call is entered at the greatest depth. -/
theorem Demands.depth_le {point next : Point} (demands : Demands point next)
    (bounded : point.machine.depth ≤ maxDepth) : next.machine.depth ≤ maxDepth := by
  have deeper := demands.placed.2
  cases demands with
  | body shallow _ =>
      rw [deeper]
      exact shallow
  | _ =>
      rw [deeper]
      exact bounded

/-- The depth counts the calls under way. By induction on the way to the point. -/
theorem Stacked.depth {start point : Point} {calls : Nat}
    (stacked : Stacked start calls point) :
    point.machine.depth = start.machine.depth + calls := by
  induction stacked with
  | start => rfl
  | part _ demands inductionHypothesis =>
      rw [demands.placed.2, inductionHypothesis, Nat.add_assoc]

theorem Stacked.depth_le {start point : Point} {calls : Nat}
    (stacked : Stacked start calls point) (bounded : start.machine.depth ≤ maxDepth) :
    point.machine.depth ≤ maxDepth := by
  induction stacked with
  | start => exact bounded
  | part _ demands inductionHypothesis => exact demands.depth_le inductionHypothesis

theorem reached_depth {start point : Point} (bounded : start.machine.depth ≤ maxDepth)
    (reaches : Reaches start point) :
    point.machine.depth ≤ maxDepth ∧ (∃ calls, Stacked start calls point) ∧
      ∀ calls, Stacked start calls point →
        point.machine.depth = start.machine.depth + calls := by
  obtain ⟨calls, stacked⟩ := stacked_of_reaches reaches
  exact ⟨stacked.depth_le bounded, ⟨calls, stacked⟩, fun _ other => other.depth⟩

/-- Calls are too deep if and only if evaluation comes to one at the greatest depth. -/
theorem halts_tooDeep_iff_depth {start : Point} {paren : Token}
    (bounded : start.machine.depth ≤ maxDepth) :
    start.Halts (tooDeep paren) ↔ ∃ fuel function arguments machine,
      Reaches start ⟨fuel + 1, .call function paren arguments, machine⟩ ∧
        machine.depth = maxDepth := by
  rw [halts_tooDeep_iff]
  constructor
  · rintro ⟨⟨_, _, machine⟩, reaches, fuel, function, arguments, rfl, rfl, deep⟩
    have shallow := (reached_depth bounded reaches).1
    exact ⟨fuel, function, arguments, machine, reaches, Nat.le_antisymm shallow deep⟩
  · rintro ⟨fuel, function, arguments, machine, reaches, deep⟩
    exact ⟨_, reaches, fuel, function, arguments, rfl, rfl, Nat.le_of_eq deep.symm⟩

/-! ### Calls that are refused -/

/-- Steps that always end can be done one after another. -/
theorem forM_ends {α : Type} {step : α → Eval PUnit}
    (ends : ∀ value machine, ∃ later, step value machine = .ok ⟨⟩ later) (values : List α)
    (machine : Machine) : ∃ later, values.forM step machine = .ok ⟨⟩ later := by
  induction values generalizing machine with
  | nil => exact ⟨machine, rfl⟩
  | cons value rest inductionHypothesis =>
      obtain ⟨middle, first⟩ := ends value machine
      obtain ⟨later, others⟩ := inductionHypothesis middle
      exact ⟨later, (bind_of_ok _ first).trans others⟩

/-- The parameters of a call can always be bound. -/
theorem openFrame_ends (function : FunctionValue) (arguments : List Value) (machine : Machine) :
    ∃ frame opened, openFrame function arguments machine = .ok frame opened := by
  obtain ⟨bound, done⟩ := forM_ends (fun pair machine =>
      ⟨_, (rfl : defineIn _ pair.1.lexeme pair.2 machine = _)⟩)
    (function.declaration.parameters.zip arguments)
    { machine with frames := machine.frames.push (some function.closure) }
  refine ⟨machine.frames.size, bound, ?_⟩
  unfold openFrame
  rw [bind_of_ok _ (rfl : pushFrame function.closure machine = .ok machine.frames.size _),
    bind_of_ok _ done]
  rfl

/-- What is done when the body of a call has ended. The machine stands at the depth and in the
frame of the one on which the call was made. -/
def leave {α β : Type} (machine : Machine) (next : α → Eval β) :
    EStateM.Result Halt Machine α → EStateM.Result Halt Machine β
  | .ok value last =>
      next value { last with depth := machine.depth, environment := machine.environment }
  | .error halt last =>
      .error halt { last with depth := machine.depth, environment := machine.environment }

theorem Restored.leave_eq {α β : Type} {before after : Machine} (restored : Restored before after)
    (next : α → Eval β) : leave after next = leave before next := by
  funext result
  unfold leave
  rw [restored.depth, restored.environment]

/-- A computation one call deeper and in another frame, and what is done behind it. -/
theorem deeper_within_bind {α β : Type} {computation : Eval α} (restores : Restores computation)
    (frame : Nat) (next : α → Eval β) (machine : Machine) :
    (deeper (within frame computation) >>= next) machine =
      leave machine next
        (computation { machine with depth := machine.depth + 1, environment := frame }) := by
  have inside :=
    (restores { machine with depth := machine.depth + 1, environment := frame }).depth
  have back (last : Machine) (deep : last.depth = machine.depth + 1) :
      last.depth - 1 = machine.depth := Nat.sub_eq_of_eq_add deep
  cases result : computation
      { machine with depth := machine.depth + 1, environment := frame } with
  | ok value last =>
      rw [result] at inside
      rw [bind_of_ok _ (deeper_of_ok (within_of_ok result)), leave, ← back last inside]
  | error halt last =>
      rw [result] at inside
      rw [bind_of_error _ (deeper_of_error (within_of_error result)), leave, ← back last inside]

section Calls

variable {fuel : Nat} {callee : Value} {paren : Token} {arguments : List Value}
  {machine later : Machine} {function : FunctionValue}

/-- If calling a value comes to the call of a function, it stops where that stops. -/
theorem callValue_of_error {halt : Halt} {last : Machine}
    (demands : Demands ⟨fuel, .application callee paren arguments, machine⟩
      ⟨fuel, .call function paren arguments, later⟩)
    (halts : invoke fuel function paren arguments later = .error halt last) :
    callValue (invoke fuel) callee paren arguments machine = .error halt last := by
  cases demands with
  | function matching =>
      show (checkArity paren function.arity arguments.length >>= fun _ =>
        invoke fuel function paren arguments) machine = _
      rw [bind_of_ok _ (checkArity_of_eq paren matching machine)]
      exact halts
  | initializer matching present made bound =>
      unfold callValue
      dsimp only
      rw [bind_of_ok _ (checkArity_of_eq paren matching machine), bind_of_ok _ made]
      simp only [present]
      rw [bind_of_ok _ bound, bind_of_error _ halts]

variable (fuel callee paren arguments machine later function)

/-- Calling a value stops because too many calls are under way, before the body of its
function is started. -/
def Refuses : Prop :=
  callValue (invoke (fuel + 1)) callee paren arguments machine =
      .error (.fault ⟨paren, .stackOverflow⟩) later ∧
    ∀ next, ¬Demands ⟨fuel + 1, .call function paren arguments, later⟩ next

/-- The body of a function is run, on a machine that is one call deeper and in a frame of its
own, and the call ends as its body does, back at the depth and in the frame that it came from. -/
def Starts : Prop :=
  ∃ frame opened, openFrame function arguments later = .ok frame opened ∧
    Demands ⟨fuel + 1, .call function paren arguments, later⟩
      ⟨fuel, .statements function.declaration.body,
        { opened with depth := later.depth + 1, environment := frame }⟩ ∧
    invoke (fuel + 1) function paren arguments later =
      leave later (callResult function)
        (executeAll (invoke fuel) fuel function.declaration.body
          { opened with depth := later.depth + 1, environment := frame })

variable {fuel callee paren arguments machine later function}

theorem starts_of_shallow (shallow : later.depth < maxDepth) :
    Starts fuel paren arguments later function := by
  obtain ⟨frame, opened, done⟩ := openFrame_ends function arguments later
  have stays := (openFrame_restores function arguments).of_ok done
  refine ⟨frame, opened, done, ?_, ?_⟩
  · rw [← stays.depth]
    exact .body shallow done
  · have body := executeAll_restores (invoke_restores fuel) fuel function.declaration.body
    have run := deeper_within_bind body frame (callResult function) opened
    rw [stays.leave_eq, stays.depth] at run
    show callFunction _ function paren arguments later = _
    rw [callFunction_of_shallow _ _ _ _ shallow, bind_of_ok _ done]
    exact run

/-- A call is refused at the greatest depth, and at any other its body is run. -/
theorem refuses_iff (bounded : machine.depth ≤ maxDepth)
    (demands : Demands ⟨fuel + 1, .application callee paren arguments, machine⟩
      ⟨fuel + 1, .call function paren arguments, later⟩) :
    (Refuses fuel callee paren arguments machine later function ↔ machine.depth = maxDepth) ∧
      (Starts fuel paren arguments later function ↔ machine.depth < maxDepth) := by
  have depth : later.depth = machine.depth := demands.placed.2
  have noPart (deep : machine.depth = maxDepth) (next : Point) :
      ¬Demands ⟨fuel + 1, .call function paren arguments, later⟩ next := by
    intro part
    cases part with
    | body shallow _ => omega
  have starts (shallow : machine.depth < maxDepth) :
      Starts fuel paren arguments later function := starts_of_shallow (depth ▸ shallow)
  constructor
  · constructor
    · intro refused
      rcases Nat.lt_or_eq_of_le bounded with shallow | deep
      · obtain ⟨_, _, _, part, _⟩ := starts shallow
        exact absurd part (refused.2 _)
      · exact deep
    · intro deep
      have stops := callFunction_of_deep (executeAll (invoke fuel) fuel) function paren arguments
        (Nat.le_of_eq (depth.trans deep).symm)
      exact ⟨callValue_of_error demands stops, noPart deep⟩
  · constructor
    · rintro ⟨_, _, _, part, _⟩
      rcases Nat.lt_or_eq_of_le bounded with shallow | deep
      · exact shallow
      · exact absurd part (noPart deep _)
    · exact starts

end Calls

end Lox.Evaluation

namespace Lox

open Evaluation

/-! ### Sessions -/

/-- Execution of a unit puts back where the machine stood, whatever its outcome. -/
theorem Session.execute_restored (session : Session) (fuel : Nat) (program : List Statement) :
    Restored session.machine (session.execute fuel program).2.machine := by
  have restores : Restores (interpret fuel program) :=
    (executeAll_restores (invoke_restores fuel) fuel program).bind fun _ => Restores.pure _
  have restored := restores session.machine
  unfold execute
  generalize interpret fuel program session.machine = result at restored ⊢
  cases result with
  | ok _ last => exact restored
  | error halt last => cases halt <;> exact restored

/-- A machine stands outside all scopes and calls. -/
structure Machine.Outermost (machine : Machine) : Prop where
  environment : machine.environment = machine.globals
  depth : machine.depth = 0

theorem Session.serve_outermost {session : Session} (outermost : session.machine.Outermost)
    (request : Request) : (session.serve request).2.machine.Outermost := by
  cases request with
  | parse source => exact outermost
  | run fuel source =>
      show (session.run fuel source).2.machine.Outermost
      rcases session.run_cases source with ⟨_, _, _, refused⟩ | ⟨program, table, next, unit⟩
      · rw [refused]
        exact outermost
      · have restored := execute_restored ⟨session.machine.addLocals table, next⟩ fuel program
        rw [run_of_accepted unit]
        refine ⟨?_, restored.depth.trans outermost.depth⟩
        rw [restored.environment, restored.globals]
        exact outermost.environment

theorem Session.serveAll_outermost {session : Session} (outermost : session.machine.Outermost)
    (requests : List Request) : (session.serveAll requests).2.machine.Outermost := by
  induction requests generalizing session with
  | nil => exact outermost
  | cons request requests inductionHypothesis =>
      exact inductionHypothesis (serve_outermost outermost request)

namespace Evaluation

/-- Whatever is done puts back the current frame, the globals, the table of local names and the
depth of calls, however it ends. On the way the depth counts the calls under way, and it never
exceeds 4096; what stops on the way stops the whole, and calls are too deep for it if and
only if it comes to a call at that depth. A call of a function whose parameters match the
arguments is refused at that depth and only there, and else its body is run one call deeper. So a
session goes on outside all scopes and calls after each unit. -/
theorem scope_and_depth_restored (fuel : Nat) :
    (∀ expression, Restores (evaluate (invoke fuel) expression)) ∧
    (∀ rounds statement, Restores (execute (invoke fuel) rounds statement)) ∧
    (∀ frame rounds statements,
      Restores (within frame (executeAll (invoke fuel) rounds statements))) ∧
    (∀ callee paren arguments, Restores (callValue (invoke fuel) callee paren arguments)) ∧
    (∀ start point, start.machine.depth ≤ 4096 → Reaches start point →
      (point.machine.depth ≤ 4096 ∧ (∃ calls, Stacked start calls point) ∧
        ∀ calls, Stacked start calls point →
          point.machine.depth = start.machine.depth + calls) ∧
      ∀ halt, point.Halts halt → start.Halts halt) ∧
    (∀ start paren, start.machine.depth ≤ 4096 →
      (start.Halts (tooDeep paren) ↔ ∃ fuel function arguments machine,
        Reaches start ⟨fuel + 1, .call function paren arguments, machine⟩ ∧
          machine.depth = 4096)) ∧
    (∀ callee paren arguments machine function later, machine.depth ≤ 4096 →
      Demands ⟨fuel + 1, .application callee paren arguments, machine⟩
        ⟨fuel + 1, .call function paren arguments, later⟩ →
      (Refuses fuel callee paren arguments machine later function ↔ machine.depth = 4096) ∧
        (Starts fuel paren arguments later function ↔ machine.depth < 4096)) ∧
    ∀ output time requests,
      ((Session.start output time).serveAll requests).2.machine.Outermost :=
  ⟨evaluate_restores (invoke_restores fuel), execute_restores (invoke_restores fuel),
    fun frame rounds statements =>
      (executeAll_restores (invoke_restores fuel) rounds statements).within frame,
    callValue_restores (invoke_restores fuel),
    fun _ _ bounded reaches =>
      ⟨reached_depth bounded reaches, fun _ => Reaches.halts reaches⟩,
    fun _ _ bounded => halts_tooDeep_iff_depth bounded,
    fun _ _ _ _ _ _ bounded demands => refuses_iff bounded demands,
    fun _ _ requests => Session.serveAll_outermost ⟨rfl, rfl⟩ requests⟩

/-- With 4096 calls under way, a class whose initializer takes no arguments cannot be
called: the call is refused, and calling the class stops. -/
theorem initializer_refused :
    let paren : Token := ⟨.symbol .rightParen, ")", 1⟩
    let declaration : FunctionDeclaration := ⟨⟨.identifier, "init", 1⟩, [], []⟩
    let owner : ClassValue :=
      ⟨1, "A", (∅ : Bindings FunctionValue).insert "init" ⟨0, declaration, 0, true⟩⟩
    let machine : Machine := { Machine.start (.open #[]) fun _ => 0 with depth := 4096 }
    let start : Point := ⟨1, .application (.class owner) paren [], machine⟩
    ∃ function later,
      (machine.depth ≤ 4096 ∧ Demands start ⟨1, .call function paren [], later⟩) ∧
      Refuses 0 (.class owner) paren [] machine later function ∧ start.Halts (tooDeep paren) := by
  intro paren declaration owner machine start
  have initializer : owner.initializer? = some ⟨0, declaration, 0, true⟩ := by
    simp [ClassValueOf.initializer?, owner, initializerName]
  have arity : owner.arity = 0 := by
    unfold ClassValueOf.arity
    rw [initializer]
    rfl
  have demands : Demands start ⟨1, .call _ paren [], _⟩ := .initializer arity initializer rfl rfl
  have bounded : machine.depth ≤ 4096 := Nat.le_refl 4096
  obtain ⟨_, _, _, _, _, overflows, refused, _⟩ := scope_and_depth_restored 0
  exact ⟨_, _, ⟨bounded, demands⟩, (refused _ _ _ _ _ _ bounded demands).1.mpr rfl,
    (overflows start paren bounded).mpr ⟨0, _, [], _, .single demands, rfl⟩⟩

end Evaluation

end Lox
