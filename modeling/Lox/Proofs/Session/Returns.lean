import Mathlib
import Lox.Proofs.Evaluation.ReturnPaths
import Lox.Proofs.Evaluation.Returns
import Lox.Proofs.Receiver.Session
import Lox.Proofs.Scope.Initializers
import Lox.Proofs.Session.Requirements

/-!
Contract: in a session every returned value reaches its call.

Owns:
- that the outermost statements of the units of a session end normally, one after another, up to
  the first that stops;
- that a `return` is in the body of a call, wherever a session gets to;
- that the bodies of initializers return nothing but `nil`, and which functions are initializers.
-/

namespace Lox

open Evaluation

/-! ### Outermost statements -/

theorem Statement.stays_of_mem {statements : List Statement} (stays : Statement.AllStay statements)
    {statement : Statement} (member : statement ∈ statements) : statement.Stays := by
  induction statements with
  | nil => cases member
  | cons first rest inductionHypothesis =>
      rcases List.mem_cons.mp member with rfl | member
      · exact stays.1
      · exact inductionHypothesis stays.2 member

/-- A unit starts with statements that do not return. -/
theorem Session.Starts.allStay {session : Session} {requests : List Request} {point : Point}
    (starts : session.Starts requests point) :
    ∃ program, point.task = .statements program ∧ Statement.AllStay program := by
  induction starts with
  | @here _ _ _ _ program _ _ unit => exact ⟨program, rfl, Scope.allStay_of_resolve unit.checked⟩
  | later _ inductionHypothesis => exact inductionHypothesis

namespace Evaluation

section Programs

variable {fuel : Nat} {program : List Statement} {before after : Machine}

/-- A program whose statements do not return ends if all of them have been executed. -/
theorem interpret_ok_iff (stays : Statement.AllStay program) :
    interpret fuel program before = .ok () after ↔ Executed fuel program before after := by
  rw [← executeAll_normal_iff]
  constructor
  · intro done
    obtain ⟨completion, last, ended, rest⟩ := bind_ok done
    cases rest
    rwa [executeAll_normal program stays ended] at ended
  · intro ended
    exact bind_of_ok _ ended

/-- A program stops where one of its statements stops. -/
theorem interpret_error_iff {halt : Halt} :
    interpret fuel program before = .error halt after ↔
      ∃ front statement rest middle, program = front ++ statement :: rest ∧
        Executed fuel front before middle ∧
        execute (invoke fuel) fuel statement middle = .error halt after := by
  rw [← executeAll_error_iff]
  constructor
  · intro halts
    rcases bind_error halts with stops | ⟨_, _, _, rest⟩
    · exact stops
    · cases rest
  · exact bind_of_error _

end Programs

/-! ### Initializers -/

/-- What is to be done at a point returns no value but `nil`, up to the bodies of calls. -/
def Point.ReturnsBare (point : Point) : Prop :=
  match point.task with
  | .statement part => part.ReturnsBare
  | .statements parts => Statement.AllReturnBare parts
  | .rounds _ body _ => body.ReturnsBare
  | .expression .. | .expressions .. | .assignment .. | .application .. | .call .. => True

theorem Demands.returnsBare {point next : Point} (demands : Demands point next)
    (inside : point.opens = 0) (bare : point.ReturnsBare) : next.ReturnsBare := by
  cases demands with
  | body => cases inside
  | @thenBranch _ _ _ _ elseBranch =>
      cases elseBranch with
      | none => exact bare
      | some => exact bare.1
  | elseBranch => exact bare.2
  | firstStatement => exact bare.1
  | nextStatements => exact bare.2
  | block | loop | loopBody | nextRound => exact bare
  | _ => trivial

theorem Stacked.returnsBare {start point : Point} {calls : Nat}
    (stacked : Stacked start calls point) (inside : calls = 0) (bare : start.ReturnsBare) :
    point.ReturnsBare := by
  induction stacked with
  | start => exact bare
  | part _ demands inductionHypothesis =>
      obtain ⟨before, here⟩ := Nat.add_eq_zero_iff.mp inside
      exact demands.returnsBare here (inductionHypothesis before)

/-- Statements whose returns give no value return `nil`. The value has been raised in one of
them. -/
theorem Point.Returns.eq_nil {point : Point} {value : Value} (returns : point.Returns value)
    (bare : point.ReturnsBare) : value = .nil := by
  obtain ⟨⟨fuel, task, machine⟩, stacked, keyword, expression, final, rfl, computed⟩ :=
    raised returns
  obtain rfl : expression = none := stacked.returnsBare rfl bare
  cases computed
  rfl

section Units

variable {session : Session} {requests : List Request}

/-- A value is raised in the body of an innermost call, which the session gets to as well. Outside
all calls nothing returns. -/
theorem raises_in_call {point : Point} {value : Value}
    (visited : Visited (session.Starts requests) point) (raises : point.Raises value) :
    ∃ fuel function paren arguments machine body,
      Visited (session.Starts requests) ⟨fuel, .call function paren arguments, machine⟩ ∧
        Demands ⟨fuel, .call function paren arguments, machine⟩ body ∧ Stacked body 0 point := by
  obtain ⟨start, starts, reaches⟩ := visited
  obtain ⟨calls, stacked⟩ := stacked_of_reaches reaches
  rcases stacked.innermost with outside | ⟨_, _, _, _, _, body, reached, enters, inside⟩
  · obtain ⟨final, returned⟩ := stacked.returns outside raises.returns
    obtain ⟨program, isProgram, stays⟩ := starts.allStay
    rw [isProgram] at returned
    cases executeAll_normal program stays returned
  · exact ⟨_, _, _, _, _, body, ⟨start, starts, reached⟩, enters, inside⟩

end Units

section Sessions

variable {output : Output} {time : Nat → Float} {requests : List Request} {fuel : Nat}
  {function : FunctionValue} {paren : Token} {arguments : List Value} {machine : Machine}

/-- The body of an initializer ends normally or returns `nil`. -/
theorem initializer_returns_nil
    (visited : Visited ((Session.start output time).Starts requests)
      ⟨fuel, .call function paren arguments, machine⟩)
    (initializer : function.isInitializer = true) {body : Point} {value : Value}
    (enters : Demands ⟨fuel, .call function paren arguments, machine⟩ body)
    (returns : body.Returns value) : value = .nil := by
  have metByUnits : Scope.Checked.MetByUnits := fun _ _ _ _ _ unit =>
    Scope.allMeet_of_resolve unit.checked
  obtain ⟨checked, _⟩ := (Session.meets_of_visited Scope.checked_passesOn metByUnits visited).task
  rw [FunctionMeets, initializer] at checked
  cases enters with
  | body => exact returns.eq_nil checked.allReturnBare

/-- The functions that are called as initializers are the methods named so, bound to an
instance. -/
theorem isInitializer_iff
    (visited : Visited ((Session.start output time).Starts requests)
      ⟨fuel, .call function paren arguments, machine⟩) :
    function.isInitializer = true ↔
      ∃ method id, IsBound ((Session.start output time).Starts requests) method id function ∧
        function.name = initializerName := by
  obtain ⟨leads, _⟩ := passes_leads output time requests
  constructor
  · intro initializer
    obtain ⟨⟨_, _, _, _, ⟨_, known⟩, _⟩, _⟩ := leads.visited visited
    cases known.made with
    | bound isBound =>
        have named := (leads.boundTo isBound).isInitializer
        rw [initializer] at named
        exact ⟨_, _, isBound, eq_of_beq named.symm⟩
    | declared _ made =>
        cases made
        cases initializer
  · rintro ⟨method, id, isBound, named⟩
    rw [(leads.boundTo isBound).isInitializer, named]
    exact beq_self_eq_true _

end Sessions

/-- In a session returned values are handled exactly. The outermost statements of an accepted
program end normally if they end, whatever the machine and the fuel, so that running the program
executes its statements in order, all of them or all up to the one that stops. Wherever the session
gets to a `return` that gives a value, it is in the body of an innermost call. The body of a call
ends with a value exactly if a `return` in it that is in no further call has given the value; the
call then ends, and yields that value unless its function is an initializer. The initializers are
the bound methods of that name, and their bodies end normally or with `nil`. -/
theorem returns_end_their_calls (output : Output) (time : Nat → Float)
    (requests : List Request) :
    let units := (Session.start output time).Starts requests
    (∀ fuel program machine, units ⟨fuel, .statements program, machine⟩ →
      (∀ statement ∈ program, ∀ rounds before completion after,
        execute (invoke rounds) rounds statement before = .ok completion after →
          completion = .normal) ∧
      ∀ before,
        (∀ after, interpret fuel program before = .ok () after ↔
          Executed fuel program before after) ∧
        ∀ halt after, interpret fuel program before = .error halt after ↔
          ∃ front statement rest middle, program = front ++ statement :: rest ∧
            Executed fuel front before middle ∧
            execute (invoke fuel) fuel statement middle = .error halt after) ∧
    (∀ point value, Visited units point → point.Raises value →
      ∃ fuel function paren arguments machine body,
        Visited units ⟨fuel, .call function paren arguments, machine⟩ ∧
          Demands ⟨fuel, .call function paren arguments, machine⟩ body ∧
          Stacked body 0 point) ∧
    (∀ fuel function paren arguments machine body value,
      Demands ⟨fuel, .call function paren arguments, machine⟩ body →
      (body.Returns value ↔ ∃ point, Stacked body 0 point ∧ point.Raises value) ∧
      (body.Returns value → ∃ result later,
        invoke fuel function paren arguments machine = .ok result later ∧
          (function.isInitializer = false → result = value))) ∧
    ∀ fuel function paren arguments machine,
      Visited units ⟨fuel, .call function paren arguments, machine⟩ →
      (function.isInitializer = true ↔ ∃ method id,
        IsBound units method id function ∧ function.name = initializerName) ∧
      (function.isInitializer = true → ∀ rounds inside completion after,
        Demands ⟨fuel, .call function paren arguments, machine⟩
          ⟨rounds, .statements function.declaration.body, inside⟩ →
        executeAll (invoke rounds) rounds function.declaration.body inside =
          .ok completion after →
        completion = .normal ∨ completion = .returned .nil) := by
  intro units
  refine ⟨?_, ?_, ?_, ?_⟩
  · intro fuel program machine starts
    obtain ⟨_, same, stays⟩ := starts.allStay
    cases same
    refine ⟨fun statement member _ _ _ _ done =>
      execute_normal statement (Statement.stays_of_mem stays member) done, fun before => ?_⟩
    exact ⟨fun _ => interpret_ok_iff stays, fun _ _ => interpret_error_iff⟩
  · exact fun _ _ visited raises => raises_in_call visited raises
  · intro fuel function paren arguments machine body value enters
    refine ⟨⟨raised, ?_⟩, call_of_returns enters⟩
    rintro ⟨_, stacked, raises⟩
    exact stacked.returns rfl raises.returns
  · intro fuel function paren arguments machine visited
    refine ⟨isInitializer_iff visited, ?_⟩
    intro initializer rounds inside completion after enters ended
    cases completion with
    | normal => exact .inl rfl
    | returned value =>
        obtain rfl := initializer_returns_nil visited initializer enters ⟨after, ended⟩
        exact .inr rfl

/-- A class whose initializer returns early is called, and then a function that returns a value. -/
theorem early_return_and_value :
    let session := Session.start (.open #[]) fun _ => 0
    let units := session.Starts
      [.run 1 "{class A{init(){return;}}fun f(){return true;}A();f();}"]
    (∃ program start ended, units ⟨1, .statements program, start⟩ ∧
      interpret 1 program start = .ok () ended ∧ Executed 1 program start ended) ∧
    (∃ point, (Visited units point ∧ point.Raises .nil) ∧
      ∃ fuel function paren arguments machine body,
        Visited units ⟨fuel, .call function paren arguments, machine⟩ ∧
          Demands ⟨fuel, .call function paren arguments, machine⟩ body ∧
          Stacked body 0 point) ∧
    (∃ function paren machine body later,
      (Demands ⟨1, .call function paren [], machine⟩ body ∧ body.Returns (.boolean true) ∧
        function.isInitializer = false) ∧
      invoke 1 function paren [] machine = .ok (.boolean true) later) ∧
    ∃ function paren machine inside completion after,
      (Visited units ⟨1, .call function paren [], machine⟩ ∧ function.isInitializer = true ∧
        Demands ⟨1, .call function paren [], machine⟩
          ⟨0, .statements function.declaration.body, inside⟩ ∧
        executeAll (invoke 0) 0 function.declaration.body inside = .ok completion after) ∧
      (completion = .normal ∨ completion = .returned .nil) := by
  intro session units
  obtain ⟨programs, raising, calls, initializers⟩ :=
    returns_end_their_calls (.open #[]) (fun _ => 0)
      [.run 1 "{class A{init(){return;}}fun f(){return true;}A();f();}"]
  let keyword : Token := ⟨.keyword .return, "return", 1⟩
  let paren : Token := ⟨.symbol .rightParen, ")", 1⟩
  let early : FunctionDeclaration := ⟨⟨.identifier, "init", 1⟩, [], [.return keyword none]⟩
  let answer : FunctionDeclaration :=
    ⟨⟨.identifier, "f", 1⟩, [], [.return keyword (some (.literal 0 (.boolean true)))]⟩
  let table : Scope.Locals := ((∅ : Scope.Locals).insert 1 0).insert 3 0
  let makeOwner : Statement := .class ⟨.identifier, "A", 1⟩ [early]
  let callOwner : Statement :=
    .expression (.call 2 (.variable 1 ⟨.identifier, "A", 1⟩) paren [])
  let callAnswer : Statement :=
    .expression (.call 4 (.variable 3 ⟨.identifier, "f", 1⟩) paren [])
  let statements : List Statement := [makeOwner, .function answer, callOwner, callAnswer]
  have unit : AcceptedUnit "{class A{init(){return;}}fun f(){return true;}A();f();}"
      session.nextId [.block statements] table 5 := ⟨by cbv, rfl⟩
  let owner : ClassValue :=
    ⟨1, "A", (∅ : Bindings FunctionValue).insert "init" ⟨0, early, 1, true⟩⟩
  let function : FunctionValue := ⟨2, answer, 1, false⟩
  let initializer : FunctionValue := ⟨3, early, 2, true⟩
  -- The machine in the block, behind the class, and when class and function are called.
  let opened : Machine := { session.machine.addLocals table with
    frames := session.machine.frames.push (some 0)
    environment := 1 }
  let declared : Machine := { opened with
    frames := opened.frames.define 1 "A" (.class owner)
    nextIdentity := 2 }
  let made : Machine := { declared with
    frames := declared.frames.define 1 "f" (.function function)
    nextIdentity := 3 }
  let created : Machine := { made with
    frames := made.frames.pushThis 1 0
    instances := #[⟨owner, ∅⟩]
    nextIdentity := 4 }
  let called : Machine := { created with frames := created.frames.push (some 2) }
  let inside : Machine := { called with depth := 1, environment := 3 }
  let last : Machine := { called with frames := called.frames.push (some 1) }
  have classMade : execute (invoke 1) 1 makeOwner opened = .ok .normal declared :=
    (execute_class _ _ _ _ (Nat.lt_succ_self 1)).trans rfl
  have functionMade : execute (invoke 1) 1 (.function answer) declared = .ok .normal made := rfl
  have ownerCalled : execute (invoke 1) 1 callOwner made = .ok .normal called := rfl
  have answerCalled : execute (invoke 1) 1 callAnswer called = .ok .normal last := rfl
  have ran : executeAll (invoke 1) 1 statements opened = .ok .normal last :=
    executeAll_of_executed
      (.next classMade (.next functionMade (.next ownerCalled (.next answerCalled .none))))
  let start : Machine := session.machine.addLocals table
  let ended : Machine := { last with environment := 0 }
  have started : units ⟨1, .statements [.block statements], start⟩ := .here unit
  have block : execute (invoke 1) 1 (.block statements) start = .ok .normal ended :=
    @within_of_ok _ (executeAll (invoke 1) 1 statements) 1 { opened with environment := 0 } last _
      ran
  have interpreted : interpret 1 [.block statements] start = .ok () ended :=
    bind_of_ok _ (bind_of_ok _ block)
  have executed : Executed 1 [.block statements] start ended :=
    (((programs 1 _ start started).2 start).1 ended).mp interpreted
  have inBlock := ((Visited.unit started).next .firstStatement).next .block
  have before := (inBlock.next (.nextStatements classMade)).next (.nextStatements functionMade)
  have present : owner.initializer? = some ⟨0, early, 1, true⟩ := rfl
  have entered : Visited units ⟨1, .call initializer paren [], created⟩ :=
    (((before.next .firstStatement).next .expression).next (.application rfl rfl)).next
      (.initializer rfl present rfl rfl)
  have opens : openFrame initializer [] created = .ok 3 called := rfl
  have enters : Demands ⟨1, .call initializer paren [], created⟩
      ⟨0, .statements early.body, inside⟩ := .body (Nat.zero_lt_succ _) opens
  have raises : Point.Raises ⟨0, .statement (.return keyword none), inside⟩ .nil :=
    ⟨keyword, none, inside, rfl, rfl⟩
  have raised := (entered.next enters).next .firstStatement
  have returned : executeAll (invoke 0) 0 early.body inside = .ok (.returned .nil) inside := rfl
  have answers : Demands ⟨1, .call function paren [], called⟩
      ⟨0, .statements answer.body, { last with depth := 1, environment := 4 }⟩ :=
    .body (Nat.zero_lt_succ _) rfl
  have gives : Point.Returns
      ⟨0, .statements answer.body, { last with depth := 1, environment := 4 }⟩ (.boolean true) :=
    ⟨_, rfl⟩
  obtain ⟨result, later, done, yields⟩ := (calls _ _ _ _ _ _ _ answers).2 gives
  obtain rfl := yields rfl
  exact ⟨⟨_, start, ended, started, interpreted, executed⟩,
    ⟨_, ⟨raised, raises⟩, raising _ _ raised raises⟩,
    ⟨function, paren, called, _, later, ⟨answers, gives, rfl⟩, done⟩,
    initializer, paren, created, inside, _, inside, ⟨entered, rfl, enters, returned⟩,
    (initializers _ _ _ _ _ entered).2 rfl _ _ _ _ enters returned⟩

end Evaluation

end Lox
