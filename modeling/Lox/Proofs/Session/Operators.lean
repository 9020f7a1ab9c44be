import Mathlib
import Lox.Proofs.Evaluation.Operators
import Lox.Proofs.Grammar.Declarations
import Lox.Proofs.Session.Requirements

/-!
Contract: no session comes to a token that is no operator.

Owns:
- `DeclaredBy`: a function is declared in a unit of a session, and the tokens in it are in their
  places;
- that all functions on the machines of a session are such functions;
- that no unit ends at an operator without meaning, and that classes can always be defined.
-/

namespace Lox

open Evaluation Grammar

/-! ### Functions of units -/

mutual

/-- A statement meets a requirement if the functions that it declares do. -/
theorem Statement.meets_of_outermost {required : Requirement} : (statement : Statement) →
    (∀ declaration ∈ statement.outermost, ∀ isInitializer, required declaration isInitializer) →
    statement.Meets required
  | .expression _, _ | .print _, _ | .var _ _, _ | .return _ _, _ => trivial
  | .block statements, declared => Statement.allMeet_of_outermost statements declared
  | .conditional _ thenBranch none, declared => thenBranch.meets_of_outermost declared
  | .conditional _ thenBranch (some elseBranch), declared =>
      have ⟨ofThen, ofElse⟩ := List.forall_mem_append.mp declared
      ⟨thenBranch.meets_of_outermost ofThen, elseBranch.meets_of_outermost ofElse⟩
  | .loop _ body, declared => body.meets_of_outermost declared
  | .function _, declared => declared _ List.mem_cons_self false
  | .class _ _, declared => fun method member => declared method member _

theorem Statement.allMeet_of_outermost {required : Requirement} :
    (statements : List Statement) →
    (∀ declaration ∈ Statement.outermostOfAll statements, ∀ isInitializer,
      required declaration isInitializer) →
    Statement.AllMeet required statements
  | [], _ => trivial
  | statement :: rest, declared =>
      have ⟨first, others⟩ := List.forall_mem_append.mp declared
      ⟨statement.meets_of_outermost first, Statement.allMeet_of_outermost rest others⟩

end

/-- A function is declared in a unit that starts at one of some points, and the tokens in it are
in their places. -/
def DeclaredBy (units : Point → Prop) : Requirement := fun declaration _ =>
  (∃ fuel program machine, units ⟨fuel, .statements program, machine⟩ ∧
    DeclaredIn program declaration) ∧
  Statement.FunctionGenuine Token.Spelled declaration

/-- The functions in the body of a function are declared in the same unit. -/
theorem DeclaredBy.passesOn (units : Point → Prop) : (DeclaredBy units).PassesOn := by
  rintro declaration _ ⟨⟨fuel, program, machine, isUnit, declared⟩, genuine⟩
  refine Statement.allMeet_of_outermost _ fun inner member _ => ?_
  exact ⟨⟨fuel, program, machine, isUnit, declared.inside member⟩,
    Statement.outermostOfAll_genuine _ genuine.body _ member⟩

namespace Session

/-- A unit starts with statements whose tokens are in their places. -/
theorem Starts.genuine {session : Session} {requests : List Request} {start : Point}
    (starts : session.Starts requests start) :
    ∃ fuel program machine, start = ⟨fuel, .statements program, machine⟩ ∧
      Statement.AllGenuine Token.Spelled program := by
  induction starts with
  | here unit => exact ⟨_, _, _, rfl, unit.genuine⟩
  | later _ inductionHypothesis => exact inductionHypothesis

/-- The functions that the units of a session declare are declared by them. -/
theorem Starts.declaredBy {session : Session} {requests : List Request} {start : Point}
    (starts : session.Starts requests start) :
    start.task.Meets (DeclaredBy (session.Starts requests)) := by
  obtain ⟨fuel, program, machine, rfl, genuine⟩ := starts.genuine
  refine Statement.allMeet_of_outermost _ fun declaration member _ => ?_
  exact ⟨⟨fuel, program, machine, starts, .outermost member⟩,
    Statement.outermostOfAll_genuine _ genuine _ member⟩

/-! ### Outcomes -/

section Outcomes

variable {required : Requirement}

/-- A unit does not end at an operator without meaning, if its functions meet a requirement that
only functions meet whose tokens are in their places. -/
theorem serve_spares (passesOn : required.PassesOn)
    (genuine : ∀ declaration isInitializer, required declaration isInitializer →
      Statement.AllGenuine Token.Spelled declaration.body)
    {session : Session} {request : Request}
    (declared : ∀ start, session.Starts [request] start → start.task.Meets required)
    (meets : MachineMeets required session.machine) {error : RuntimeError}
    (ended : (session.serve request).1 = .ended (.failed error)) :
    error.fault.isMeaningless = false := by
  cases request with
  | parse source => cases ended
  | run fuel source =>
      have failed : (session.run fuel source).1 = .failed error := Response.ended.inj ended
      rcases session.run_cases source with ⟨_, _, _, refused⟩ | ⟨program, table, next, unit⟩
      · rw [refused] at failed
        cases failed
      · rw [run_of_accepted unit] at failed
        have maintain := invoke_maintains passesOn fuel
        have spares : Spares required (interpret fuel program) :=
          (executeAll_spares maintain (invoke_spares passesOn genuine fuel) fuel program
            (declared _ (.here unit)) unit.genuine).bind
              (executeAll_maintains maintain fuel program (declared _ (.here unit)))
              fun _ _ => .pure _
        have entered : MachineMeets required (session.machine.addLocals table) :=
          meets.congr rfl rfl
        unfold execute at failed
        cases result : interpret fuel program (session.machine.addLocals table) with
        | ok _ _ =>
            rw [result] at failed
            cases failed
        | error halt later =>
            rw [result] at failed
            cases halt with
            | outOfFuel => cases failed
            | fault =>
                cases failed
                exact spares _ entered _ later result

/-- By induction on the requests. -/
theorem serveAll_spares (passesOn : required.PassesOn)
    (genuine : ∀ declaration isInitializer, required declaration isInitializer →
      Statement.AllGenuine Token.Spelled declaration.body)
    {session : Session} {requests : List Request}
    (declared : ∀ start, session.Starts requests start → start.task.Meets required)
    (meets : MachineMeets required session.machine) {error : RuntimeError}
    (ended : .ended (.failed error) ∈ (session.serveAll requests).1) :
    error.fault.isMeaningless = false := by
  induction requests generalizing session with
  | nil => cases ended
  | cons request rest inductionHypothesis =>
      have first (start : Point) (starts : session.Starts [request] start) :=
        declared start starts.first
      rcases List.mem_cons.mp ended with here | later
      · exact serve_spares passesOn genuine first meets here.symm
      · exact inductionHypothesis (fun start starts => declared start (.later starts))
          (serve_meets passesOn first meets) later

end Outcomes

/-! ### Machines -/

/-- What is done at a point leaves no other functions behind. -/
theorem left_meets {required : Requirement} (passesOn : required.PassesOn) {point : Point}
    (meets : point.Meets required) : MachineMeets required point.left := by
  obtain ⟨fuel, task, machine⟩ := point
  obtain ⟨meets, has⟩ := meets
  have calls := invoke_maintains passesOn fuel
  cases task with
  | expression _ value => exact (evaluate_maintains calls value machine meets).1
  | expressions _ values => exact (evaluateAll_maintains calls values machine meets).1
  | assignment _ id name value => exact (assign_maintains id name has machine meets).1
  | application _ paren _ =>
      exact (callValue_maintains calls paren has.1 has.2 machine meets).1
  | call function paren arguments =>
      exact (calls function paren arguments has.1 has.2 machine meets).1
  | statement part => exact (execute_maintains calls fuel part has machine meets).1
  | statements parts => exact (executeAll_maintains calls fuel parts has machine meets).1
  | rounds condition body left =>
      exact (repeatWhile_maintains (evaluate_maintains calls condition)
        (execute_maintains calls fuel body has) left machine meets).1

theorem Starts.append {session : Session} {served left : List Request} {start : Point}
    (starts : session.Starts served start) : session.Starts (served ++ left) start := by
  induction starts with
  | here unit => exact .here unit
  | later _ inductionHypothesis => exact .later inductionHypothesis

/-- All functions on the machines that a session goes through are declared by its units. -/
theorem Passes.declaredBy {output : Output} {time : Nat → Float} {requests : List Request}
    {machine : Machine} (passes : (Session.start output time).Passes requests machine) :
    MachineMeets (DeclaredBy ((Session.start output time).Starts requests)) machine := by
  have passesOn := DeclaredBy.passesOn ((Session.start output time).Starts requests)
  have declared (start : Point) (starts : (Session.start output time).Starts requests start) :=
    starts.declaredBy
  cases passes with
  | @between served left same =>
      subst same
      exact serveAll_meets passesOn (fun start starts => declared start starts.append)
        (.start output time)
  | before visited => exact (visited_meets passesOn declared visited).machine
  | behind visited => exact left_meets passesOn (visited_meets passesOn declared visited)

end Session

namespace Evaluation

/-- A class can be defined in any frame that there is. -/
theorem defineClass_ok (name : Token) (methods : List FunctionDeclaration) {machine : Machine}
    (inside : machine.environment < machine.frames.size) :
    ∃ later, defineClass name methods machine = .ok () later := by
  obtain ⟨made, next, result⟩ :=
    makeMethods_result methods machine.environment machine.nextIdentity
  rw [defineClass_eq name methods inside]
  unfold classValue
  rw [bind_assoc, bind_of_ok _ (result machine rfl rfl)]
  exact ⟨_, rfl⟩

end Evaluation

namespace Session

/-- The fallbacks for tokens that are no operators are never reached: no unit ends with one of
their messages, and at all points to which a session gets a class can be defined. In all trees
that the parsers give the tokens are in their places, so that unary and binary operators are those
that have a meaning, and the functions on all machines of a session are declared in such trees. -/
theorem operator_fallbacks_unreached (output : Output) (time : Nat → Float)
    (requests : List Request) :
    let session := Session.start output time
    let units := session.Starts requests
    (∀ error, .ended (.failed error) ∈ (session.serveAll requests).1 →
      error.fault.message ≠ "Invalid unary operator." ∧
        error.fault.message ≠ "Invalid binary operator.") ∧
    (∀ point name methods, Visited units point →
      ∃ later, defineClass name methods point.machine = .ok () later) ∧
    (∀ tokens firstId program next, parseProgram tokens firstId = ⟨.ok program, next⟩ →
      Statement.AllGenuine (· ∈ tokens) program) ∧
    (∀ tokens firstId expression next, parseExpression tokens firstId = ⟨.ok expression, next⟩ →
      expression.Genuine (· ∈ tokens)) ∧
    (∀ operator, isUnaryOperator operator = true ↔
      ∃ symbol ∈ [.bang, .minus], operator.kind = .symbol symbol) ∧
    (∀ operator, (∃ level : BinaryLevel, level.isOperator operator ∧
      level ≠ .disjunction ∧ level ≠ .conjunction) ↔
        ∃ symbol ∈ infixSymbols, operator.kind = .symbol symbol) ∧
    ∀ machine, session.Passes requests machine → MachineMeets (DeclaredBy units) machine := by
  intro session units
  have inWord {tokens : List Token} (token : Token) (member : token ∈ programWord tokens) :
      token ∈ tokens := List.takeWhile_subset _ member
  refine ⟨fun error ended => ?_, fun point name methods visited => ?_,
    fun tokens firstId program next parsed => ?_, fun tokens firstId expression next parsed => ?_,
    isUnaryOperator_iff, isInfix_iff, fun machine passes => passes.declaredBy⟩
  · have spared := serveAll_spares (DeclaredBy.passesOn units)
      (fun _ _ declared => declared.2.body) (fun _ starts => starts.declaredBy)
      (.start output time) ended
    constructor
    all_goals
      intro same
      have meaningless : error.fault.isMeaningless = true :=
        RuntimeFault.meaningless_of_letter (by rw [same]; decide)
      cases spared.symm.trans meaningless
  · obtain ⟨⟨_, _, _, scene, _⟩, _⟩ := (passes_leads output time requests).1.visited visited
    exact defineClass_ok name methods scene.inside
  · exact ((parseProgram_eq_ok_iff ..).mp parsed).genuine inWord
  · exact ((parseExpression_eq_ok_iff ..).mp parsed).genuine inWord

/-- A class is defined, and then a unit ends because only numbers can be negated. -/
theorem negated_nil_ends_otherwise :
    let session := Session.start (.open #[]) fun _ => 0
    let requests := [Request.run 1 "class A{f(){}}-nil;"]
    let units := session.Starts requests
    let minus : Token := ⟨.symbol .minus, "-", 1⟩
    (∃ error, Response.ended (.failed error) ∈ (session.serveAll requests).1 ∧
      error = ⟨minus, .operandNotNumber⟩ ∧ error.fault.message ≠ "Invalid unary operator." ∧
        error.fault.message ≠ "Invalid binary operator.") ∧
    (∃ point name methods, Visited units point ∧ point.task = .statement (.class name methods) ∧
      ∃ later, defineClass name methods point.machine = .ok () later) ∧
    (∃ tokens program next, parseProgram tokens 0 = ⟨.ok program, next⟩ ∧
      Statement.AllGenuine (· ∈ tokens) program) ∧
    (∃ tokens, parseExpression tokens 0 = ⟨.ok (.unary 1 minus (.literal 0 .nil)), 2⟩ ∧
      (Expression.unary 1 minus (.literal 0 .nil)).Genuine (· ∈ tokens)) ∧
    ∃ machine, session.Passes requests machine ∧ MachineMeets (DeclaredBy units) machine := by
  intro session requests units minus
  obtain ⟨errors, classes, programs, expressions, -, -, machines⟩ :=
    operator_fallbacks_unreached (.open #[]) (fun _ => 0) requests
  let method : FunctionDeclaration := ⟨⟨.identifier, "f", 1⟩, [], []⟩
  let owner : Token := ⟨.identifier, "A", 1⟩
  let program : List Statement :=
    [.class owner [method], .expression (.unary 1 minus (.literal 0 .nil))]
  have unit : AcceptedUnit "class A{f(){}}-nil;" session.nextId program ∅ 2 := ⟨by cbv, rfl⟩
  have started : units ⟨1, .statements program, session.machine.addLocals ∅⟩ := .here unit
  have visited := (Visited.unit started).next .firstStatement
  have ended : .ended (.failed ⟨minus, .operandNotNumber⟩) ∈ (session.serveAll requests).1 := by
    obtain ⟨later, made⟩ := classes _ owner [method] visited
    have defined : Evaluation.execute (invoke 1) 1 (.class owner [method])
        (session.machine.addLocals ∅) = .ok .normal later := bind_of_ok _ made
    have stopped : executeAll (invoke 1) 1 program (session.machine.addLocals ∅) =
        .error (.fault ⟨minus, .operandNotNumber⟩) later := bind_of_ok _ defined
    have failed : (session.run 1 "class A{f(){}}-nil;").1 =
        .failed ⟨minus, .operandNotNumber⟩ := by
      rw [run_of_accepted unit]
      unfold Session.execute interpret
      rw [bind_of_error _ stopped]
    exact List.mem_singleton.mpr (congrArg Response.ended failed.symm)
  have parsed : parseProgram (Source.tokens (Source.scan "class A{f(){}}-nil;")) 0 =
      ⟨.ok program, 2⟩ := by cbv
  have alone : parseExpression [minus, ⟨.keyword .nil, "nil", 1⟩] 0 =
      ⟨.ok (.unary 1 minus (.literal 0 .nil)), 2⟩ := by cbv
  exact ⟨⟨_, ended, rfl, errors _ ended⟩, ⟨_, _, _, visited, rfl, classes _ _ _ visited⟩,
    ⟨_, _, _, parsed, programs _ _ _ _ parsed⟩, ⟨_, alone, expressions _ _ _ _ alone⟩,
    _, .before visited, machines _ (.before visited)⟩

end Session

end Lox
