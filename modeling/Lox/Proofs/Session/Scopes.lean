import Lox.Proofs.Evaluation.Additions
import Lox.Proofs.Evaluation.Chains
import Lox.Proofs.Receiver.History
import Lox.Proofs.Scope.Declared

/-!
Contract: evaluation leaves the scopes around it as they are.

Owns:
- that a session stays rooted, and that its globals are the same frame in all states that it goes
  through;
- `Gains`: the name that may come into old frames, and where;
- `calls_keep_other_scopes`: an expression brings no name into an old frame, and a statement of a
  program at most its own, in the current frame.
-/

namespace Lox

open Evaluation

/-! ### Sessions are rooted -/

theorem Evaluation.Rooted.start (output : Output) (time : Nat → Float) :
    Rooted (Session.start output time).machine where
  current := Nat.zero_lt_one
  outermost := rfl
  surrounded id made other := absurd (Nat.lt_one_iff.mp made) other
  root := Nat.zero_lt_one
  bound id name value found := by
    by_cases same : id = 0 ∧ name = Native.clock.name
    · obtain ⟨rfl, rfl⟩ := same
      cases (Frames.lookup?_define_self _ Nat.zero_lt_one _ _).symm.trans found
      trivial
    · have none := (Frames.empty.push none).lookup?_define_of_ne (.native .clock) same
      rw [Frames.lookup?_push] at none
      cases none.symm.trans found
  target id target found := by cases found

namespace Session

/-- A unit keeps a session rooted, whatever its outcome. -/
theorem serve_rooted {session : Session} (rooted : Rooted session.machine) (request : Request) :
    Rooted (session.serve request).2.machine := by
  cases request with
  | parse source => exact rooted
  | run fuel source =>
      show Rooted (session.run fuel source).2.machine
      rcases session.run_cases source with ⟨_, _, _, refused⟩ | ⟨program, table, next, unit⟩
      · rw [refused]
        exact rooted
      · rw [run_of_accepted unit, execute_machine]
        have roots : Roots 0 CompletionBelow (executeAll (invoke fuel) fuel program) :=
          executeAll_roots (invoke_roots fuel) fuel program
        exact (roots (session.machine.addLocals table) { rooted with } (Nat.zero_le _)).1

theorem serveAll_rooted {session : Session} (rooted : Rooted session.machine)
    (requests : List Request) : Rooted (session.serveAll requests).2.machine := by
  induction requests generalizing session with
  | nil => exact rooted
  | cons request requests inductionHypothesis =>
      exact inductionHypothesis (serve_rooted rooted request)

theorem serve_globals (session : Session) (request : Request) :
    (session.serve request).2.machine.globals = session.machine.globals := by
  cases request with
  | parse source => rfl
  | run fuel source =>
      show (session.run fuel source).2.machine.globals = session.machine.globals
      rcases session.run_cases source with ⟨_, _, _, refused⟩ | ⟨program, table, next, unit⟩
      · rw [refused]
      · rw [run_of_accepted unit]
        exact (execute_restored ⟨session.machine.addLocals table, next⟩ fuel program).globals

theorem serveAll_globals (session : Session) (requests : List Request) :
    (session.serveAll requests).2.machine.globals = session.machine.globals := by
  induction requests generalizing session with
  | nil => rfl
  | cons request requests inductionHypothesis =>
      exact (inductionHypothesis _).trans (serve_globals session request)

/-- Units start with the globals of their session. -/
theorem Starts.globals {session : Session} {requests : List Request} {point : Point}
    (starts : session.Starts requests point) : point.machine.globals = session.machine.globals := by
  induction starts with
  | here => rfl
  | later _ inductionHypothesis => exact inductionHypothesis.trans (serve_globals _ _)

end Session

namespace Evaluation

theorem Point.left_globals (point : Point) : point.left.globals = point.machine.globals := by
  obtain ⟨fuel, task, machine⟩ := point
  cases task with
  | expression _ value => exact (evaluate_restores (invoke_restores _) value machine).globals
  | expressions _ values => exact (evaluateAll_restores (invoke_restores _) values machine).globals
  | assignment _ id name value => exact (assign_restores id name value machine).globals
  | application callee paren arguments =>
      exact (callValue_restores (invoke_restores _) callee paren arguments machine).globals
  | call function paren arguments =>
      exact (invoke_restores fuel function paren arguments machine).globals
  | statement part => exact (execute_restores (invoke_restores _) _ part machine).globals
  | statements parts => exact (executeAll_restores (invoke_restores _) _ parts machine).globals
  | rounds condition body left =>
      exact (repeatWhile_restores (evaluate_restores (invoke_restores _) condition)
        (execute_restores (invoke_restores _) _ body) left machine).globals

end Evaluation

namespace Session.Passes

variable {session : Session} {requests : List Request} {machine : Machine}

/-- The globals are the same frame in all states. By induction on the way to a point. -/
theorem globals (passes : session.Passes requests machine) :
    machine.globals = session.machine.globals := by
  have visited : ∀ point, Visited (session.Starts requests) point →
      point.machine.globals = session.machine.globals := by
    rintro point ⟨start, starts, reaches⟩
    induction reaches with
    | refl => exact starts.globals
    | tail _ demands inductionHypothesis => exact demands.placed.1.trans inductionHypothesis
  cases passes with
  | between _ => exact serveAll_globals session _
  | before isVisited => exact visited _ isVisited
  | @behind point isVisited => exact point.left_globals.trans (visited point isVisited)

end Session.Passes

/-- In all states of a session, every frame but the globals has a frame around it, as it has in the
last one. -/
theorem Session.passes_surrounded (output : Output) (time : Nat → Float) (requests : List Request)
    {machine : Machine} (passes : (Session.start output time).Passes requests machine) :
    machine.frames.Surrounded machine.globals := by
  have last := serveAll_rooted (.start output time) requests
  obtain ⟨_, leads⟩ := passes_leads output time requests
  have keep := (leads machine passes).2.frames
  have same : ((Session.start output time).serveAll requests).2.machine.globals =
      machine.globals :=
    (serveAll_globals _ requests).trans passes.globals.symm
  intro id inside other
  rw [← keep.parent id inside]
  exact last.surrounded id (Nat.lt_of_lt_of_le inside keep.size) (same ▸ other)

/-! ### What comes into old frames -/

/-- Old frames keep their parents and their names, and none gains a name but the current one, which
may gain the given name. -/
abbrev Machine.Gains (name : Option String) (before after : Machine) : Prop :=
  before.frames.Grown (fun id new => id = before.environment ∧ name = some new) after.frames

/-- Whatever the machine and its table of local names, and however evaluation ends, an expression
brings no name into a frame that was there before, and a statement that the parser has made brings
in at most the name that it declares itself, into the current frame; no name goes, and no parent
changes. Assignments bring in nothing. No frame is around itself, and in all states of a session
the frames around a frame lead to the globals. -/
theorem calls_keep_other_scopes (fuel : Nat) :
    (∀ expression (machine : Machine),
      machine.Gains none (final (evaluate (invoke fuel) expression machine))) ∧
    (∀ statement : Statement, statement.Parsed → ∀ rounds (machine : Machine),
      machine.Gains statement.name? (final (execute (invoke fuel) rounds statement machine))) ∧
    (∀ id name value (machine : Machine),
      machine.Gains none (final (assign id name value machine))) ∧
    (∀ (frames : Frames) id distance, frames.ancestor? id (distance + 1) ≠ some id) ∧
    ∀ output time requests machine, (Session.start output time).Passes requests machine →
      machine.frames.parent? machine.globals = none ∧
      ∀ id < machine.frames.size,
        ∃ distance, machine.frames.ancestor? id distance = some machine.globals := by
  refine ⟨?expressions, ?statements, ?assignments, ?acyclic, ?session⟩
  case expressions =>
    intro expression machine
    exact (evaluate_adds (invoke_adds fuel) expression machine rfl).2
  case statements =>
    intro statement parsed rounds machine
    refine (execute_adds (invoke_adds fuel) rounds statement ?_ machine rfl).2
    intro name declared
    rw [Statement.declared_of_tame parsed.tame] at declared
    exact ⟨rfl, Option.mem_toList.mp declared⟩
  case assignments =>
    intro id name value machine
    exact (assign_adds id name value machine rfl).2
  case acyclic =>
    intro frames id distance around
    have older := frames.ancestor?_le around
    omega
  case session =>
    intro output time requests machine passes
    have outermost : machine.frames.parent? machine.globals = none := by
      rw [passes.globals]
      cases around : machine.frames.parent? 0 with
      | none => exact around
      | some parent => exact absurd (machine.frames.parent?_lt around) (Nat.not_lt_zero _)
    exact ⟨outermost, fun id inside => (Session.passes_surrounded output time requests passes).leads
      inside⟩

/-- `var a;` is a program, and brings `a` into the globals of a session. -/
theorem variable_comes_into_globals :
    let name : Token := ⟨.identifier, "a", 1⟩
    let machine := (Session.start (.open #[]) fun _ => 0).machine
    let after := final (execute (invoke 0) 0 (.var name none) machine)
    (Statement.var name none).Parsed ∧ machine.Gains (some "a") after ∧
    (machine.frames.lookup? 0 "a").isSome = false ∧ (after.frames.lookup? 0 "a").isSome = true ∧
    (Session.start (.open #[]) fun _ => 0).Passes [] machine ∧
    ∃ distance, machine.frames.ancestor? 0 distance = some machine.globals := by
  intro name machine after
  have parsed : (Statement.var name none).Parsed := by
    refine ⟨[⟨.keyword .var, "var", 1⟩, name, ⟨.symbol .semicolon, ";", 1⟩], 0,
      [.var name none], 0, [0], .outermost, ?_, .part rfl .here⟩
    rfl
  have passes : (Session.start (.open #[]) fun _ => 0).Passes [] machine :=
    @Session.Passes.between _ [] [] [] rfl
  obtain ⟨-, statements, -, -, session⟩ := calls_keep_other_scopes 0
  exact ⟨parsed, statements _ parsed 0 machine, by decide, by decide, passes,
    (session _ _ _ machine passes).2 0 Nat.zero_lt_one⟩

end Lox
