import Lox.Proofs.Evaluation.Requirements
import Lox.Proofs.Receiver.History

/-!
Contract: all functions in a session come from its units.

Owns:
- `Point.Meets`: what is to be done at a point, and the machine on which it is to be done, have
  only functions that meet a requirement, and that the parts of it have no others;
- that this holds of every point to which a session gets, if all units that it accepts declare such
  functions only.
-/

namespace Lox

open Evaluation

namespace Evaluation

variable {required : Requirement}

/-- The functions in what is to be done meet a requirement. -/
def Task.Meets (required : Requirement) : Task → Prop
  | .expression .. | .expressions .. => True
  | .assignment _ _ _ value => ValueMeets required value
  | .application callee _ arguments => ValueMeets required callee ∧ ValuesMeet required arguments
  | .call function _ arguments => FunctionMeets required function ∧ ValuesMeet required arguments
  | .statement part => part.Meets required
  | .statements parts => Statement.AllMeet required parts
  | .rounds _ body _ => body.Meets required

/-- The functions at a point meet a requirement. -/
structure Point.Meets (required : Requirement) (point : Point) : Prop where
  machine : MachineMeets required point.machine
  task : point.task.Meets required

theorem openFrame_maintains (function : FunctionValue) {arguments : List Value}
    (meet : ValuesMeet required arguments) :
    Maintains required anyResult (openFrame function arguments) :=
  (pushFrame_maintains _).bind fun frame _ =>
    (bindParameters_maintains frame fun pair member =>
      meet pair.2 (List.of_mem_zip member).2).bind fun _ _ => .pure trivial

theorem conditional_meets {condition : Expression} {thenBranch : Statement}
    {elseBranch : Option Statement}
    (meets : (Statement.conditional condition thenBranch elseBranch).Meets required) :
    thenBranch.Meets required := by
  cases elseBranch with
  | none => exact meets
  | some => exact meets.1

/-- What evaluation comes to has no other functions. -/
theorem Demands.meets (passesOn : required.PassesOn) {point next : Point}
    (demands : Demands point next) (meets : point.Meets required) : next.Meets required := by
  obtain ⟨machine, task⟩ := meets
  have evaluated {fuel : Nat} {expression : Expression} {machine later : Machine} {value : Value}
      (meets : MachineMeets required machine)
      (done : evaluate (invoke fuel) expression machine = .ok value later) :=
    (evaluate_maintains (invoke_maintains passesOn fuel) expression).of_ok meets done
  cases demands with
  | grouping | operand | leftOperand | leftCondition | assignedValue | callee | object
  | changedObject | firstExpression | expression | printed | initialValue | condition
  | loopCondition | returned => exact ⟨machine, trivial⟩
  | rightOperand done | rightCondition done | arguments done | fieldValue done
  | nextExpressions done => exact ⟨(evaluated machine done).1, trivial⟩
  | assignment done => exact ⟨(evaluated machine done).1, (evaluated machine done).2⟩
  | application first rest =>
      obtain ⟨between, callee⟩ := evaluated machine first
      obtain ⟨behind, values⟩ :=
        (evaluateAll_maintains (invoke_maintains passesOn _) _).of_ok between rest
      exact ⟨behind, callee, values⟩
  | function => exact ⟨machine, task⟩
  | initializer _ present made bound =>
      obtain ⟨methods, values⟩ := task
      obtain ⟨between, _⟩ := (makeInstance_maintains methods).of_ok machine made
      obtain ⟨behind, function⟩ :=
        (bindMethod_maintains (methods _ _ present) _).of_ok between bound
      exact ⟨behind, function, values⟩
  | body _ opened =>
      obtain ⟨between, _⟩ := (openFrame_maintains _ task.2).of_ok machine opened
      exact ⟨between.congr rfl rfl, passesOn _ _ task.1⟩
  | block => exact ⟨(machine.push _).congr rfl rfl, task⟩
  | thenBranch done => exact ⟨(evaluated machine done).1, conditional_meets task⟩
  | elseBranch done => exact ⟨(evaluated machine done).1, task.2⟩
  | loop => exact ⟨machine, task⟩
  | loopBody done => exact ⟨(evaluated machine done).1, task⟩
  | nextRound first _ round =>
      obtain ⟨between, _⟩ := evaluated machine first
      obtain ⟨behind, _⟩ :=
        (execute_maintains (invoke_maintains passesOn _) _ _ task).of_ok between round
      exact ⟨behind, task⟩
  | firstStatement => exact ⟨machine, task.1⟩
  | nextStatements done =>
      obtain ⟨behind, _⟩ :=
        (execute_maintains (invoke_maintains passesOn _) _ _ task.1).of_ok machine done
      exact ⟨behind, task.2⟩

/-- By induction on the way to the point. -/
theorem Reaches.meets (passesOn : required.PassesOn) {start point : Point}
    (reaches : Reaches start point) (meets : start.Meets required) : point.Meets required := by
  induction reaches with
  | refl => exact meets
  | tail _ demands inductionHypothesis => exact demands.meets passesOn inductionHypothesis

theorem MachineMeets.start (output : Output) (time : Nat → Float) :
    MachineMeets required (Machine.start output time) := by
  have empty : MachineMeets required
      { Machine.start output time with frames := Frames.empty.push none } := by
    refine ⟨fun frame name value found => ?_, fun id target found => ?_⟩
    · cases (Frames.empty.lookup?_push _ _ _).symm.trans found
    · cases found
  exact empty.define 0 Native.clock.name (.native .clock) trivial

end Evaluation

/-! ### Sessions -/

/-- All units that may be accepted declare only functions that meet a requirement. -/
def Requirement.MetByUnits (required : Requirement) : Prop :=
  ∀ source firstId program table next, AcceptedUnit source firstId program table next →
    Statement.AllMeet required program

namespace Session

variable {required : Requirement}

/-- Behind a request all functions meet the requirement, if those that its unit declares do. -/
theorem serve_meets (passesOn : required.PassesOn) {session : Session} {request : Request}
    (declared : ∀ start, session.Starts [request] start → start.task.Meets required)
    (meets : MachineMeets required session.machine) :
    MachineMeets required (session.serve request).2.machine := by
  cases request with
  | parse source => exact meets
  | run fuel source =>
      show MachineMeets required (session.run fuel source).2.machine
      rcases session.run_cases source with ⟨_, _, _, refused⟩ | ⟨program, table, next, unit⟩
      · rw [refused]
        exact meets
      · rw [run_of_accepted unit, execute_machine]
        exact (executeAll_maintains (invoke_maintains passesOn fuel) fuel program
          (declared _ (.here unit)) (session.machine.addLocals table) (meets.congr rfl rfl)).1

/-- The unit of the first request is a unit of all requests. -/
theorem Starts.first {session : Session} {request : Request} {rest : List Request}
    {start : Point} (starts : session.Starts [request] start) :
    session.Starts (request :: rest) start := by
  cases starts with
  | here unit => exact .here unit
  | later starts => cases starts

/-- By induction on the requests. -/
theorem serveAll_meets (passesOn : required.PassesOn) {session : Session}
    {requests : List Request}
    (declared : ∀ start, session.Starts requests start → start.task.Meets required)
    (meets : MachineMeets required session.machine) :
    MachineMeets required (session.serveAll requests).2.machine := by
  induction requests generalizing session with
  | nil => exact meets
  | cons request rest inductionHypothesis =>
      exact inductionHypothesis (fun start starts => declared start (.later starts))
        (serve_meets passesOn (fun start starts => declared start starts.first) meets)

/-- The functions at the start of a unit meet the requirement. -/
theorem Starts.meets (passesOn : required.PassesOn) {session : Session}
    {requests : List Request} {point : Point} (starts : session.Starts requests point)
    (declared : ∀ start, session.Starts requests start → start.task.Meets required)
    (meets : MachineMeets required session.machine) : point.Meets required := by
  induction starts with
  | here unit => exact ⟨meets.congr rfl rfl, declared _ (.here unit)⟩
  | later _ inductionHypothesis =>
      exact inductionHypothesis (fun start starts => declared start (.later starts))
        (serve_meets passesOn (fun start starts => declared start starts.first) meets)

/-- Wherever a session gets to, all functions meet the requirement, if those that its units
declare do. -/
theorem visited_meets (passesOn : required.PassesOn) {output : Output} {time : Nat → Float}
    {requests : List Request}
    (declared : ∀ start, (Session.start output time).Starts requests start →
      start.task.Meets required)
    {point : Point} (visited : Visited ((Session.start output time).Starts requests) point) :
    point.Meets required := by
  obtain ⟨start, starts, reaches⟩ := visited
  exact reaches.meets passesOn (starts.meets passesOn declared (.start output time))

theorem Starts.declared (metByUnits : required.MetByUnits) {session : Session}
    {requests : List Request} {start : Point} (starts : session.Starts requests start) :
    start.task.Meets required := by
  induction starts with
  | here unit => exact metByUnits _ _ _ _ _ unit
  | later _ inductionHypothesis => exact inductionHypothesis

/-- The same for a requirement that all units meet. -/
theorem meets_of_visited (passesOn : required.PassesOn) (metByUnits : required.MetByUnits)
    {output : Output} {time : Nat → Float} {requests : List Request} {point : Point}
    (visited : Visited ((Session.start output time).Starts requests) point) :
    point.Meets required :=
  visited_meets passesOn (fun _ starts => starts.declared metByUnits) visited

end Session

end Lox
