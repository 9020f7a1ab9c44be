import Lox.Proofs.Lexical.Simulation
import Lox.Proofs.Session.Units

/-!
Contract: sessions on a machine, and the same sessions of the reference interpreter.

Owns:
- `Corresponds`, which holds of sessions that have served the same requests;
- that the responses and the output are the same whatever is asked for.
-/

namespace Lox.Lexical

open World

/-- A session on a machine and one of the reference interpreter, between requests. What the
machine's table says about older units is known, and there are no records yet of the
numbers to come. -/
structure Corresponds (world : World) (session : Lox.Session) (other : Session) : Prop where
  heap : Heap world session.machine other.store
  outermost : session.machine.environment = world.globals
  nextId : session.nextId = other.nextId
  known : ∀ id record, world.recorded id record → id < session.nextId
  fresh : ∀ id, session.nextId ≤ id → session.machine.locals[id]? = none

/-- A world in which more is recorded. -/
def World.learn (world : World) (recorded : Scope.Recorded) : World :=
  { world with recorded := recorded }

theorem World.learn_grows {world : World} {recorded : Scope.Recorded}
    (more : ∀ id record, world.recorded id record → recorded id record) :
    Grows nothing world (world.learn recorded) where
  size := Nat.le_refl _
  parent _ _ same := same
  cell _ _ _ same := same
  globals := rfl
  filled _ holds := holds
  recorded := more
  kept _ _ _ := rfl

/-- A table comes in that agrees with what is recorded. -/
theorem Heap.learn {world : World} {machine : Machine} {store : Store}
    (heap : Heap world machine store) {recorded : Scope.Recorded}
    (more : ∀ id record, world.recorded id record → recorded id record) {table : Scope.Locals}
    (right : ∀ id record, recorded id record → (machine.addLocals table).locals[id]? = record) :
    Heap (world.learn recorded) (machine.addLocals table) store := by
  have grows := world.learn_grows more
  refine { heap with recorded := right, content := ?_, global := ?_, target := ?_ }
  · intro frame name cell stands
    obtain ⟨made, inside, like⟩ := heap.content _ _ _ stands
    exact ⟨made, inside, optionRel_mono (fun _ _ related => related.grow grows) like⟩
  · intro name
    exact optionRel_mono (fun _ _ related => related.grow grows) (heap.global name)
  · intro id
    exact optionRel_mono (fun _ _ related => related.grow grows) (heap.target id)

namespace Corresponds

variable {world : World} {session : Lox.Session} {other : Session}

/-- What is recorded when the table of a unit has come in: what the table says about all
numbers given out so far. -/
def recordedBy (machine : Machine) (next : Nat) : Scope.Recorded := fun id record =>
  id < next ∧ machine.locals[id]? = record

/-- The world of a session that has run nothing: one frame, and no cells. -/
def firstWorld : World where
  size := 1
  parent _ := none
  cell _ _ := none
  globals := 0
  filled _ := False
  recorded _ _ := False

theorem start_parent? (frame : Nat) : (Frames.empty.push none).parent? frame = none := by
  by_cases here : frame = Frames.empty.size
  · subst here
    rfl
  · rw [Frames.parent?_push_of_ne _ _ here]
    rfl

/-- Sessions that have run nothing correspond. -/
theorem start (output : Output) (time : Nat → Float) :
    Corresponds firstWorld (Lox.Session.start output time) (Session.start output time) where
  heap := {
    size := rfl
    parent := fun frame => by
      show ((Frames.empty.push none).define 0 _ _).parent? frame = none
      rw [Frames.parent?_define, start_parent?]
    recorded := nofun
    content := nofun
    filled := nofun
    apart := nofun
    bound := fun frame name (isLocal : frame ≠ 0) _ => by
      show ((Frames.empty.push none).define 0 _ _).lookup? frame name = none
      rw [Frames.lookup?_define_of_ne _ _ fun both => isLocal both.1, Frames.lookup?_push]
      rfl
    globals := rfl
    root := Nat.zero_lt_one
    outermost := rfl
    noCell := fun _ => rfl
    global := fun name => by
      show Option.Rel _ (((Frames.empty.push none).define 0 _ _).lookup? 0 name)
        (Std.ExtTreeMap.insert (∅ : Bindings Value) Native.clock.name _)[name]?
      rw [Std.ExtTreeMap.getElem?_insert]
      by_cases same : name = Native.clock.name
      · subst same
        rw [Frames.lookup?_define_self _ (Nat.zero_lt_one)]
        simpa using Option.Rel.some (ValueLike.native .clock)
      · have differ : compare Native.clock.name name ≠ .eq := fun equal =>
          same (Std.LawfulEqCmp.eq_of_compare equal).symm
        rw [Frames.lookup?_define_of_ne _ _ fun both => same both.2, if_neg differ,
          Frames.lookup?_push, Std.ExtTreeMap.getElem?_empty]
        exact .none
    instances := rfl
    target := fun _ => .none
    nextIdentity := rfl
    depth := rfl
    output := rfl
    clock := rfl }
  outermost := rfl
  nextId := rfl
  known := nofun
  fresh _ _ := Std.ExtTreeMap.getElem?_empty

/-- The machine when an accepted unit starts: its table has come in. -/
theorem enter (corresponds : Corresponds world session other) {source : String}
    {program : List Statement} {table : Scope.Locals} {next : Nat}
    (unit : AcceptedUnit source session.nextId program table next) :
    let machine := session.machine.addLocals table
    let recorded := recordedBy machine next
    Heap (world.learn recorded) machine other.store ∧
      Grows nothing world (world.learn recorded) ∧
      Scope.ResolvedStatements recorded [] program ∧
      ∀ id, next ≤ id → machine.locals[id]? = none := by
  intro machine recorded
  have ordered := unit.numbered.ordered
  have table? : ∀ id, session.nextId ≤ id → machine.locals[id]? = table[id]? := by
    intro id beyond
    have older := corresponds.fresh id beyond
    rw [Machine.getElem?_addLocals, older]
    cases table[id]? <;> rfl
  have more : ∀ id record, world.recorded id record → recorded id record := by
    intro id record known
    have older := corresponds.known id record known
    refine ⟨Nat.lt_of_lt_of_le older ordered, ?_⟩
    rw [Machine.getElem?_addLocals, unit.outside (Or.inl older)]
    exact corresponds.heap.recorded id record known
  refine ⟨corresponds.heap.learn more fun _ _ known => known.2, World.learn_grows more, ?_, ?_⟩
  · refine Scope.ResolvedStatements.mono (fun id record tells => ?_) [] program unit.resolved
    have inside := unit.numbered.inside id tells.1
    exact ⟨inside.2, (table? id inside.1).trans tells.2⟩
  · intro id beyond
    rw [table? id (Nat.le_trans ordered beyond)]
    exact unit.outside (Or.inr beyond)

/-- Numbers may be given out without being used. -/
theorem advance (corresponds : Corresponds world session other) {next : Nat}
    (ordered : session.nextId ≤ next) :
    Corresponds world { session with nextId := next } { other with nextId := next } where
  heap := corresponds.heap
  outermost := corresponds.outermost
  nextId := rfl
  known id record recorded := Nat.lt_of_lt_of_le (corresponds.known id record recorded) ordered
  fresh id beyond := corresponds.fresh id (Nat.le_trans ordered beyond)

theorem parse (corresponds : Corresponds world session other) (source : String) :
    (session.parse source).1 = (other.parse source).1 ∧
      Corresponds world (session.parse source).2 (other.parse source).2 := by
  unfold Lox.Session.parse Session.parse
  rw [← corresponds.nextId]
  exact ⟨rfl, corresponds.advance (readUnit_nextId source session.nextId)⟩

/-- An accepted unit ends alike. -/
theorem execute (corresponds : Corresponds world session other) {source : String}
    {program : List Statement} {table : Scope.Locals} {next : Nat}
    (unit : AcceptedUnit source session.nextId program table next) (fuel : Nat) :
    let entered : Lox.Session := ⟨session.machine.addLocals table, next⟩
    let entered' : Session := ⟨other.store, next⟩
    (entered.execute fuel program).1 = (entered'.execute fuel program).1 ∧
      ∃ future, Corresponds future (entered.execute fuel program).2
        (entered'.execute fuel program).2 := by
  obtain ⟨heap, grows, resolved, fresh⟩ := corresponds.enter unit
  have agree := interpret_simulates fuel program resolved _ _ heap corresponds.outermost
  have left : ∀ {future final store}, Leaves (only world.globals)
      (world.learn (recordedBy (session.machine.addLocals table) next))
      (session.machine.addLocals table) future final store →
      Corresponds future ⟨final, next⟩ ⟨store, next⟩ := by
    intro future final store leaves
    refine ⟨leaves.heap, ?_, rfl, ?_, ?_⟩
    · rw [leaves.environment, leaves.grows.globals]
      exact corresponds.outermost
    · rw [leaves.recorded]
      exact fun _ _ known => known.1
    · rw [leaves.locals]
      exact fresh
  unfold Lox.Session.execute Session.execute
  dsimp only
  generalize Evaluation.interpret fuel program (session.machine.addLocals table) = result,
    interpret fuel program other.store = expected at agree ⊢
  cases result with
  | ok value final =>
      cases expected with
      | ok another store =>
          obtain ⟨future, leaves, _⟩ := agree
          exact ⟨rfl, future, left leaves⟩
      | error => exact agree.elim
  | error halt final =>
      cases expected with
      | ok => exact agree.elim
      | error cause store =>
          obtain ⟨rfl, future, leaves⟩ := agree
          cases halt <;> exact ⟨rfl, future, left leaves⟩

theorem run (corresponds : Corresponds world session other) (fuel : Nat) (source : String) :
    (session.run fuel source).1 = (other.run fuel source).1 ∧
      ∃ future, Corresponds future (session.run fuel source).2 (other.run fuel source).2 := by
  have advanced := corresponds.advance (readUnit_nextId source session.nextId)
  unfold Lox.Session.run Session.run Lox.Session.parse Session.parse
  rw [← corresponds.nextId]
  cases read : readUnit source session.nextId with
  | mk result next =>
      rw [read] at advanced
      cases result with
      | error errors => exact ⟨rfl, world, advanced⟩
      | ok program =>
          cases checked : Scope.resolve program with
          | error errors =>
              dsimp only
              rw [checked]
              exact ⟨rfl, world, advanced⟩
          | ok table =>
              dsimp only
              rw [checked]
              exact corresponds.execute ⟨read, checked⟩ fuel

theorem serve (corresponds : Corresponds world session other) (request : Request) :
    (session.serve request).1 = (other.serve request).1 ∧
      ∃ future, Corresponds future (session.serve request).2 (other.serve request).2 := by
  cases request with
  | parse source =>
      obtain ⟨same, after⟩ := corresponds.parse source
      exact ⟨congrArg Response.parsed same, world, after⟩
  | run fuel source =>
      obtain ⟨same, after⟩ := corresponds.run fuel source
      exact ⟨congrArg Response.ended same, after⟩

/-- By induction on the requests. -/
theorem serveAll (corresponds : Corresponds world session other) (requests : List Request) :
    (session.serveAll requests).1 = (other.serveAll requests).1 ∧
      ∃ future, Corresponds future (session.serveAll requests).2 (other.serveAll requests).2 := by
  induction requests generalizing world session other with
  | nil => exact ⟨rfl, world, corresponds⟩
  | cons request requests inductionHypothesis =>
      obtain ⟨same, future, after⟩ := corresponds.serve request
      obtain ⟨rest, final, done⟩ := inductionHypothesis after
      exact ⟨List.cons_eq_cons.mpr ⟨same, rest⟩, final, done⟩

end Corresponds

/-- Scoping is lexical. After any requests the responses and the output are those of the
reference interpreter, and so is what happens next: every unit ends alike with any fuel, and
runs on for ever on both sides or on neither. -/
theorem scoping_is_lexical (output : Output) (time : Nat → Float) (requests : List Request) :
    let machine := (Lox.Session.start output time).serveAll requests
    let reference := (Session.start output time).serveAll requests
    machine.1 = reference.1 ∧
      machine.2.machine.output = reference.2.store.output ∧
      ∀ source,
        (∀ fuel, (machine.2.run fuel source).1 = (reference.2.run fuel source).1 ∧
          (machine.2.run fuel source).2.machine.output =
            (reference.2.run fuel source).2.store.output) ∧
        ((∀ fuel, (machine.2.run fuel source).1 = .outOfFuel) ↔
          ∀ fuel, (reference.2.run fuel source).1 = .outOfFuel) := by
  intro machine reference
  obtain ⟨responses, future, corresponds⟩ := (Corresponds.start output time).serveAll requests
  refine ⟨responses, corresponds.heap.output, fun source => ⟨fun fuel => ?_, ?_⟩⟩
  · obtain ⟨outcome, _, after⟩ := corresponds.run fuel source
    exact ⟨outcome, after.heap.output⟩
  · refine forall_congr' fun fuel => ?_
    rw [(corresponds.run fuel source).1]

end Lox.Lexical
