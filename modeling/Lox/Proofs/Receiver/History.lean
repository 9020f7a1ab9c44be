import Lox.Proofs.Receiver.Keeping
import Lox.Proofs.Session.Requests
import Lox.Proofs.Session.Units

/-!
Contract: the states that a session goes through.

Owns:
- `Starts`: the points at which the accepted units of a session start;
- `Passes`: the states between requests, and those on the way through the units;
- `Between`: what holds between requests, and that it does from the first request on;
- that whatever state a session goes through is intact, and the last one has come of it.

Does not own: what `this` is in these states.
-/

namespace Lox

open Evaluation

namespace Session

/-- The points at which the units of a session start that are accepted. -/
inductive Starts : Session → List Request → Point → Prop where
  | here {session : Session} {fuel : Nat} {source : String} {rest : List Request}
      {program : List Statement} {table : Scope.Locals} {next : Nat} :
      AcceptedUnit source session.nextId program table next →
      Starts session (.run fuel source :: rest)
        ⟨fuel, .statements program, session.machine.addLocals table⟩
  | later {session : Session} {request : Request} {rest : List Request} {point : Point} :
      Starts (session.serve request).2 rest point → Starts session (request :: rest) point

/-- The states that a session goes through while it serves requests. -/
inductive Passes (session : Session) (requests : List Request) : Machine → Prop where
  | between {served left : List Request} : requests = served ++ left →
      Passes session requests (session.serveAll served).2.machine
  | before {point : Point} : Visited (session.Starts requests) point →
      Passes session requests point.machine
  | behind {point : Point} : Visited (session.Starts requests) point →
      Passes session requests point.left

end Session

/-- The code of an accepted unit is not in a class. -/
theorem AcceptedUnit.thisAt {source : String} {firstId next : Nat} {program : List Statement}
    {table : Scope.Locals} (unit : AcceptedUnit source firstId program table next) :
    Statement.AllThisAt (fun id distance => table[id]? = some distance) none program :=
  Scope.statements_thisAt (fun _ _ known => known.2) (fun inClass => by cases inClass) program
    unit.resolved unit.genuine (Scope.resolve_eq_ok_iff.mp unit.checked).1

namespace Evaluation

variable {units : Point → Prop}

/-! ### Between requests -/

/-- Between requests a session is intact, and it stands in a frame that no other frame is around.
Nothing is local yet in the units to come. -/
structure Between (units : Point → Prop) (session : Session) : Prop where
  intact : Intact units session.machine
  inside : session.machine.environment < session.machine.frames.size
  clear : session.machine.frames.this? session.machine.environment = none
  outermost : session.machine.frames.parent? session.machine.environment = none
  fresh : ∀ id, session.nextId ≤ id → session.machine.locals[id]? = none

theorem Between.start (output : Output) (time : Nat → Float) :
    Between units (Session.start output time) := by
  have lookup? (frame : Nat) (name : String) (value : Value)
      (bound : ((Frames.empty.push none).define 0 Native.clock.name (.native .clock)).lookup?
        frame name = some value) : name = Native.clock.name ∧ value = .native .clock := by
    by_cases same : frame = 0 ∧ name = Native.clock.name
    · obtain ⟨rfl, rfl⟩ := same
      rw [Frames.lookup?_define_self _ Nat.zero_lt_one] at bound
      exact ⟨rfl, (Option.some.inj bound).symm⟩
    · rw [Frames.lookup?_define_of_ne _ _ same, Frames.lookup?_push] at bound
      cases bound
  have noThis (frame : Nat) : (Session.start output time).machine.frames.this? frame = none := by
    cases bound : (Session.start output time).machine.frames.this? frame with
    | none => rfl
    | some value => exact absurd (lookup? frame _ value bound).1 (by decide)
  exact {
    intact := {
      whole := fun frame value bound => by
        cases (noThis frame).symm.trans bound
      bound := fun frame name value bound => by
        obtain ⟨_, rfl⟩ := lookup? frame name value bound
        trivial
      owner := nofun
      field := nofun }
    inside := Nat.zero_lt_one
    clear := noThis 0
    outermost := rfl
    fresh := fun _ _ => Std.ExtTreeMap.getElem?_empty }

section Unit

variable {session : Session} {fuel : Nat} {source : String} {program : List Statement}
  {table : Scope.Locals} {next : Nat}

/-- What is local stays local when the table of a unit comes in. -/
theorem Between.enter (between : Between units session)
    (unit : AcceptedUnit source session.nextId program table next) :
    Kept session.machine (session.machine.addLocals table) := by
  refine ⟨.refl _, fun id distance known => ?_⟩
  have older : id < session.nextId := Nat.lt_of_not_le fun beyond => by
    cases (between.fresh id beyond).symm.trans known
  rw [Machine.Distances, Machine.getElem?_addLocals, unit.outside (Or.inl older)]
  exact known

/-- A unit starts staged, for no receiver. -/
theorem Between.staged (between : Between units session)
    (unit : AcceptedUnit source session.nextId program table next)
    (isUnit : units ⟨fuel, .statements program, session.machine.addLocals table⟩) :
    Point.StagedFor units ⟨fuel, .statements program, session.machine.addLocals table⟩ none := by
  refine ⟨.unit isUnit, none, ⟨?_, between.inside, between.clear,
    .absent between.clear between.outermost⟩, ?_⟩
  · exact between.intact.congr rfl rfl (between.enter unit).locals
  · refine Statement.AllThisAt.mono (fun id distance known => ?_) program unit.thisAt
    rw [Machine.Distances, Machine.getElem?_addLocals, known, Option.some_or]

/-- The machine that a unit leaves is the one that its statements leave. -/
theorem execute_machine (session : Session) (fuel : Nat) (program : List Statement) :
    (session.execute fuel program).2.machine =
      Point.left ⟨fuel, .statements program, session.machine⟩ := by
  show _ = final (executeAll (invoke fuel) fuel program session.machine)
  unfold Session.execute interpret
  cases result : executeAll (invoke fuel) fuel program session.machine with
  | ok _ _ => rw [bind_of_ok _ result]; rfl
  | error halt _ =>
      rw [bind_of_error _ result]
      cases halt <;> rfl

/-- The session goes on behind a unit. -/
theorem Between.behind (between : Between units session)
    (unit : AcceptedUnit source session.nextId program table next)
    (isUnit : units ⟨fuel, .statements program, session.machine.addLocals table⟩) :
    Between units (Session.execute fuel program ⟨session.machine.addLocals table, next⟩).2 := by
  have after : After units (session.machine.addLocals table) _ :=
    (Point.Staged.complete ⟨none, between.staged unit isUnit⟩).1.left
  have restored :=
    Session.execute_restored ⟨session.machine.addLocals table, next⟩ fuel program
  rw [← execute_machine ⟨session.machine.addLocals table, next⟩] at after
  refine ⟨after.intact, ?_, ?_, ?_, ?_⟩
  · rw [after.environment]
    exact Nat.lt_of_lt_of_le between.inside after.kept.frames.size
  · rw [after.environment]
    exact (after.kept.frames.this _ between.inside).trans between.clear
  · rw [after.environment]
    exact (after.kept.frames.parent _ between.inside).trans between.outermost
  · intro id beyond
    rw [Session.execute_nextId] at beyond
    rw [restored.locals, Machine.getElem?_addLocals, unit.outside (Or.inr beyond),
      between.fresh id (Nat.le_trans unit.numbered.ordered beyond)]
    rfl

end Unit

/-- A request leads from one state between requests to another one, which has come of it. -/
theorem Between.serve {session : Session} {request : Request} {rest : List Request}
    (between : Between units session)
    (started : ∀ point, session.Starts (request :: rest) point → units point) :
    Between units (session.serve request).2 ∧
      Kept session.machine (session.serve request).2.machine := by
  have advance (next : Nat) (ordered : session.nextId ≤ next) :
      Between units ⟨session.machine, next⟩ :=
    { between with fresh := fun id beyond => between.fresh id (Nat.le_trans ordered beyond) }
  cases request with
  | parse source => exact ⟨advance _ (readUnit_nextId source session.nextId), .refl _⟩
  | run fuel source =>
      show Between units (session.run fuel source).2 ∧
        Kept session.machine (session.run fuel source).2.machine
      rcases session.run_cases source with
        ⟨errors, next, ordered, refused⟩ | ⟨program, table, next, unit⟩
      · rw [refused]
        exact ⟨advance next ordered, .refl _⟩
      · have isUnit := started _ (.here unit)
        rw [Session.run_of_accepted unit]
        refine ⟨between.behind unit isUnit, (between.enter unit).trans ?_⟩
        rw [execute_machine]
        exact (Point.Staged.complete ⟨none, between.staged unit isUnit⟩).1.left.kept

/-! ### The last state -/

/-- All units start staged, and a last state has come of those that they leave. -/
structure Leads (units : Point → Prop) (last : Machine) : Prop where
  staged : ∀ start, units start → start.StagedFor units none
  kept : ∀ start, units start → Kept start.left last

/-- By induction on the requests. -/
theorem Between.serveAll {session : Session} {requests : List Request}
    (between : Between units session)
    (started : ∀ point, session.Starts requests point → units point) :
    (∀ served left, requests = served ++ left →
      Intact units (session.serveAll served).2.machine ∧
        Kept (session.serveAll served).2.machine (session.serveAll requests).2.machine) ∧
    ∀ start, session.Starts requests start →
      start.StagedFor units none ∧ Kept start.left (session.serveAll requests).2.machine := by
  induction requests generalizing session with
  | nil =>
      refine ⟨fun served left same => ?_, fun start isStart => ?_⟩
      · obtain ⟨rfl, _⟩ := List.append_eq_nil_iff.mp same.symm
        exact ⟨between.intact, .refl _⟩
      · cases isStart
  | cons request requests inductionHypothesis =>
      obtain ⟨behind, kept⟩ := between.serve started
      obtain ⟨passes, starts⟩ :=
        inductionHypothesis behind fun point starts => started point (.later starts)
      constructor
      · intro served left same
        cases served with
        | nil => exact ⟨between.intact, kept.trans (passes [] _ rfl).2⟩
        | cons head served =>
            cases same
            exact passes served left rfl
      · intro start isStart
        cases isStart with
        | @here _ fuel source _ program table next unit =>
            refine ⟨between.staged unit (started _ (.here unit)), ?_⟩
            rw [← execute_machine ⟨session.machine.addLocals table, next⟩,
              ← Session.run_of_accepted unit]
            exact (passes [] _ rfl).2
        | later isStart => exact starts start isStart

namespace Leads

variable {last : Machine}

/-- All points that evaluation gets to are staged, and the last state has come of what they leave.
By induction on the way to the point. -/
theorem visited (leads : Leads units last) {point : Point} (visited : Visited units point) :
    point.Staged units ∧ Kept point.left last := by
  obtain ⟨start, isUnit, reaches⟩ := visited
  induction reaches with
  | refl => exact ⟨⟨none, leads.staged start isUnit⟩, leads.kept start isUnit⟩
  | tail _ demands inductionHypothesis =>
      obtain ⟨staged, kept⟩ := inductionHypothesis
      exact ⟨staged_of_demands demands staged fun _ _ staged => staged.complete.1,
        (staged.complete.2 _ demands).trans kept⟩

/-- What is done at such a point keeps the machine intact. -/
theorem after (leads : Leads units last) {point : Point} (visited : Visited units point) :
    After units point.machine point.left :=
  (leads.visited visited).1.complete.1.left

end Leads

/-- The last state of a session has come of all states that it goes through, which are intact. -/
theorem passes_leads (output : Output) (time : Nat → Float) (requests : List Request) :
    let session := Session.start output time
    let last := (session.serveAll requests).2.machine
    Leads (session.Starts requests) last ∧
      ∀ machine, session.Passes requests machine →
        Intact (session.Starts requests) machine ∧ Kept machine last := by
  intro session last
  have first : Between (session.Starts requests) session := .start output time
  obtain ⟨between, starts⟩ := first.serveAll fun _ => id
  have leads : Leads (session.Starts requests) last :=
    ⟨fun start isStart => (starts start isStart).1, fun start isStart => (starts start isStart).2⟩
  refine ⟨leads, fun machine passes => ?_⟩
  cases passes with
  | between same => exact between _ _ same
  | before visited =>
      obtain ⟨⟨_, _, _, scene, _⟩, kept⟩ := leads.visited visited
      exact ⟨scene.intact, (leads.after visited).kept.trans kept⟩
  | behind visited => exact ⟨(leads.after visited).intact, (leads.visited visited).2⟩

end Evaluation

end Lox
