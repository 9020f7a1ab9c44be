import Lox.Proofs.Relabel.Parser
import Lox.Proofs.Relabel.Scope
import Lox.Proofs.Relabel.Sessions
import Lox.Proofs.Session.Numbers

/-!
Contract: a request that runs nothing, inserted among others.

Owns:
- `Session.answers`, what a session says and has printed after each request;
- `Alongside`, two sessions whose code differs in a gap between the node numbers, with its
  step over one request;
- `idle_request_changes_nothing`: all other requests are answered as without the idle one, up to
  that gap.

A request that is idle still uses up numbers. So all trees made behind it have greater numbers,
while the code of older functions keeps its own; `Relabelling.gap` is both at once.
-/

namespace Lox

open Evaluation Relabelled

namespace Session

/-- What a session says about each request, and what it has printed by then. -/
def answers (session : Session) : List Request → List (Response × Output)
  | [] => []
  | request :: rest =>
      let (response, session) := session.serve request
      (response, session.machine.output) :: session.answers rest

/-- A request is idle: nothing is to be run, or there are static errors. -/
def Idle (session : Session) : Request → Prop
  | .parse _ => True
  | .run fuel source => ∃ errors, (session.run fuel source).1 = .refused errors

theorem answers_append (session : Session) (before after : List Request) :
    session.answers (before ++ after) =
      session.answers before ++ (session.serveAll before).2.answers after := by
  induction before generalizing session with
  | nil => rfl
  | cons request before inductionHypothesis =>
      exact congrArg _ (inductionHypothesis (session.serve request).2)

theorem serveAll_append (session : Session) (before after : List Request) :
    (session.serveAll (before ++ after)).2 = ((session.serveAll before).2.serveAll after).2 := by
  induction before generalizing session with
  | nil => rfl
  | cons request before inductionHypothesis =>
      exact inductionHypothesis (session.serve request).2

theorem serveAll_nextId (session : Session) (requests : List Request) :
    session.nextId ≤ (session.serveAll requests).2.nextId := by
  induction requests generalizing session with
  | nil => exact Nat.le_refl _
  | cons request requests inductionHypothesis =>
      exact Nat.le_trans (session.serve_nextId_le request) (inductionHypothesis _)

/-- An idle request leaves the machine as it is. -/
theorem Idle.machine {session : Session} {request : Request} (idle : session.Idle request) :
    (session.serve request).2.machine = session.machine := by
  cases request with
  | parse source => rfl
  | run fuel source =>
      show (session.run fuel source).2.machine = session.machine
      rcases session.run_cases source with ⟨_, _, _, refused⟩ | ⟨program, table, next, unit⟩
      · rw [refused]
      · obtain ⟨errors, refused⟩ := idle
        rw [run_of_accepted unit] at refused
        exact absurd refused (execute_ne_refused _ _ _ _)

end Session

/-- A response with other numbers in its tree. -/
def Response.relabel (labels : Relabelling) : Response → Response
  | .parsed result => .parsed (result.map (Statement.relabelAll labels))
  | .ended outcome => .ended outcome

/-- A unit whose numbers start further up has the same errors, or the same tree with greater
numbers. -/
theorem readUnit_ahead (source : String) (offset firstId : Nat) :
    readUnit source (offset + firstId) =
      ((readUnit source firstId).1.map (Statement.relabelAll (.renumbered offset)),
        offset + (readUnit source firstId).2) := by
  unfold readUnit
  dsimp only
  rw [Grammar.parseProgram_ahead]
  generalize Grammar.parseProgram (Source.tokens (Source.scan source)) firstId = parsed
  obtain ⟨result, next⟩ := parsed
  cases result with
  | ok program =>
      cases (Source.lexicalErrors (Source.scan source)).map StaticError.lexical <;> rfl
  | error errors => rfl

namespace Relabelled

/-- Machines whose code has a gap between its numbers, with tables that agree about it. -/
def gapped (bound width : Nat) (table other : Scope.Locals)
    (agree : ∀ id : Nat, other[(Relabelling.gap bound width).number id]? = table[id]?) :
    Likeness where
  origins labels := labels = .gap bound width
  table := table
  other := other
  outputs := Eq
  agree := by
    rintro _ rfl id _
    exact agree id
  print := print_of_eq

/-- Two machines that are the same up to a gap between the node numbers. -/
structure Alongside (bound width : Nat) (machine other : Machine) : Prop where
  agree : ∀ id : Nat,
    other.locals[(Relabelling.gap bound width).number id]? = machine.locals[id]?
  alike : MachineAlike (gapped bound width machine.locals other.locals agree) machine other

variable {bound width : Nat}

theorem gap_injective (id other : Nat)
    (same : (Relabelling.gap bound width).number id = (Relabelling.gap bound width).number other) :
    id = other := by
  rcases Nat.lt_trichotomy id other with less | equal | more
  · exact absurd same (Nat.ne_of_lt (Relabelling.gap_number_lt bound width less))
  · exact equal
  · exact absurd same.symm (Nat.ne_of_lt (Relabelling.gap_number_lt bound width more))

/-- Tokens stay, so outcomes that are alike are the same. -/
theorem OutcomeAlike.eq_of_gapped {table another : Scope.Locals}
    {agree : ∀ id : Nat, another[(Relabelling.gap bound width).number id]? = table[id]?}
    {outcome same : Outcome}
    (alike : OutcomeAlike (gapped bound width table another agree) outcome same) :
    same = outcome := by
  cases alike with
  | finished | outOfFuel => rfl
  | failed fault tokens =>
      obtain ⟨_, rfl, _, rfl⟩ := tokens
      rfl

/-- It does not matter which tables machines with a gap have, as long as these agree. -/
theorem MachineAlike.alongside {table another : Scope.Locals}
    {agree : ∀ id : Nat, another[(Relabelling.gap bound width).number id]? = table[id]?}
    {machine other : Machine}
    (alike : MachineAlike (gapped bound width table another agree) machine other)
    {records others : Scope.Locals}
    (same : ∀ id : Nat, others[(Relabelling.gap bound width).number id]? = records[id]?) :
    Alongside bound width { machine with locals := records } { other with locals := others } := by
  have wider : ∀ labels, (gapped bound width table another agree).origins labels →
      (gapped bound width records others same).origins labels := fun _ origin => origin
  exact ⟨same, MachineAlike.widen wider alike fun _ _ same => same⟩

namespace Alongside

/-- Only the provided functions are there at first. -/
theorem start (output : Output) (time : Nat → Float) :
    Alongside bound width (Machine.start output time) (Machine.start output time) := by
  have empty (id : Nat) :
      (∅ : Scope.Locals)[(Relabelling.gap bound width).number id]? = (∅ : Scope.Locals)[id]? := by
    rw [Std.ExtTreeMap.getElem?_empty, Std.ExtTreeMap.getElem?_empty]
  exact ⟨empty, MachineAlike.start rfl rfl (fun _ => rfl) output time⟩

/-- The tables of a unit come in on both sides. -/
theorem addLocals {machine other : Machine} (alongside : Alongside bound width machine other)
    {table another : Scope.Locals}
    (same : ∀ id : Nat, another[(Relabelling.gap bound width).number id]? = table[id]?) :
    Alongside bound width (machine.addLocals table) (other.addLocals another) := by
  refine alongside.alike.alongside fun id => ?_
  show (other.addLocals another).locals[_]? = (machine.addLocals table).locals[id]?
  rw [Machine.getElem?_addLocals, Machine.getElem?_addLocals, same, alongside.agree]

variable {session other : Session}
  (alongside : Alongside bound width session.machine other.machine)

include alongside

/-- Programs with a gap between their numbers end in the same way. -/
theorem execute {program : List Statement}
    (within : Statement.AllWithin (.gap bound width) program) (fuel : Nat) :
    (other.execute fuel (Statement.relabelAll (.gap bound width) program)).1 =
        (session.execute fuel program).1 ∧
      Alongside bound width (session.execute fuel program).2.machine
        (other.execute fuel (Statement.relabelAll (.gap bound width) program)).2.machine := by
  have ended := execute_endsAlike session other alongside.alike rfl fuel within
  refine ⟨ended.outcome.eq_of_gapped, ended.machine.alongside fun id => ?_⟩
  rw [ended.machine.locals, ended.machine.others]
  exact alongside.agree id

/-- A request is answered in the same way on both sides, if its trees differ in the gap. -/
theorem serve (request : Request)
    (read : (readUnit request.source other.nextId).1 =
      (readUnit request.source session.nextId).1.map
        (Statement.relabelAll (.gap bound width))) :
    (other.serve request).1 = (session.serve request).1.relabel (.gap bound width) ∧
      Alongside bound width (session.serve request).2.machine
        (other.serve request).2.machine := by
  cases request with
  | parse source => exact ⟨congrArg Response.parsed read, alongside⟩
  | run fuel source =>
      change (readUnit source other.nextId).1 = (readUnit source session.nextId).1.map _ at read
      show Response.ended (other.run fuel source).1 = .ended (session.run fuel source).1 ∧
        Alongside bound width (session.run fuel source).2.machine
          (other.run fuel source).2.machine
      unfold Session.run Session.parse
      cases here : readUnit source session.nextId with
      | mk result next =>
          cases there : readUnit source other.nextId with
          | mk another further =>
              rw [here, there] at read
              cases result with
              | error errors =>
                  obtain rfl : another = .error errors := read
                  exact ⟨rfl, alongside⟩
              | ok program =>
                  obtain rfl : another = .ok (Statement.relabelAll (.gap bound width) program) :=
                    read
                  have within : Statement.AllWithin (.gap bound width) program :=
                    Statement.AllGenuine.within
                      ((readUnit_reads here).genuine fun _ _ => trivial) fun _ _ => trivial
                  dsimp only
                  rcases Scope.resolve_renumbered (.gap bound width) (fun _ => rfl) gap_injective
                    program with ⟨errors, one, two⟩ | ⟨table, records, one, two, agree⟩
                  · rw [one, two]
                    exact ⟨rfl, alongside⟩
                  · rw [one, two]
                    have entered := alongside.addLocals agree
                    have ended := @Alongside.execute bound width ⟨_, next⟩ ⟨_, further⟩
                      entered _ within fuel
                    exact ⟨congrArg _ ended.1, ended.2⟩

end Alongside

/-! ### Before and behind the gap -/

/-- All numbers of a unit are below the gap. -/
theorem readUnit_below {source : String} {firstId : Nat}
    (below : (readUnit source firstId).2 ≤ bound) :
    (readUnit source firstId).1 =
      (readUnit source firstId).1.map (Statement.relabelAll (.gap bound width)) := by
  cases read : readUnit source firstId with
  | mk result next =>
      cases result with
      | error errors => rfl
      | ok program =>
          rw [read] at below
          have numbered := (readUnit_reads read).numbered
          have same : Statement.relabelAll (.gap bound width) program =
              Statement.relabelAll (.moved 0 (fun _ => True) fun _ => True) program := by
            refine Statement.relabelAll_congr (by rfl) program fun id member => ?_
            exact if_pos (Nat.lt_of_lt_of_le (numbered.inside id member).2 below)
          show Except.ok program = .ok (Statement.relabelAll (.gap bound width) program)
          rw [same, Statement.relabelAll_moved_zero]

/-- All numbers of a unit are behind the gap. -/
theorem readUnit_behind (source : String) {firstId : Nat} (behind : bound ≤ firstId) :
    readUnit source (width + firstId) =
      ((readUnit source firstId).1.map (Statement.relabelAll (.gap bound width)),
        width + (readUnit source firstId).2) := by
  rw [readUnit_ahead]
  congr 1
  cases read : readUnit source firstId with
  | mk result next =>
      cases result with
      | error errors => rfl
      | ok program =>
          have numbered := (readUnit_reads read).numbered
          refine congrArg Except.ok
            (Statement.relabelAll_congr (by rfl) program fun id member => ?_)
          have above := (numbered.inside id member).1
          exact (if_neg (Nat.not_lt.mpr (Nat.le_trans behind above))).symm

/-- A session is alongside itself as long as all its numbers are below the gap. -/
theorem Alongside.before {session : Session}
    (alongside : Alongside bound width session.machine session.machine) (requests : List Request)
    (below : (session.serveAll requests).2.nextId ≤ bound) :
    Alongside bound width (session.serveAll requests).2.machine
      (session.serveAll requests).2.machine := by
  induction requests generalizing session with
  | nil => exact alongside
  | cons request requests inductionHypothesis =>
      have later : (session.serve request).2.nextId ≤ bound :=
        Nat.le_trans (Session.serveAll_nextId _ requests) below
      rw [Session.serve_nextId] at later
      exact inductionHypothesis (alongside.serve request (readUnit_below later)).2 below

/-- Behind the gap all requests are answered in the same way. -/
theorem Alongside.behind {session other : Session}
    (alongside : Alongside bound width session.machine other.machine)
    (behind : bound ≤ session.nextId) (ahead : other.nextId = width + session.nextId)
    (requests : List Request) :
    other.answers requests = (session.answers requests).map
        (Prod.map (Response.relabel (.gap bound width)) id) ∧
      Alongside bound width (session.serveAll requests).2.machine
        (other.serveAll requests).2.machine := by
  induction requests generalizing session other with
  | nil => exact ⟨rfl, alongside⟩
  | cons request requests inductionHypothesis =>
      have read := @readUnit_behind bound width request.source _ behind
      rw [← ahead] at read
      obtain ⟨response, served⟩ := alongside.serve request (congrArg Prod.fst read)
      have further : (other.serve request).2.nextId =
          width + (session.serve request).2.nextId := by
        rw [Session.serve_nextId, Session.serve_nextId, read]
      obtain ⟨answers, final⟩ := inductionHypothesis served
        (Nat.le_trans behind (session.serve_nextId_le request)) further
      refine ⟨List.cons_eq_cons.mpr ⟨Prod.ext response ?_, answers⟩, final⟩
      exact served.alike.output.symm

end Relabelled

/-- An idle request can be put in anywhere: it leaves the machine as it is, and all others are
answered as without it, with the same output at each point, up to a gap between the numbers of
the nodes made before and behind it. In the end the machines, and with them the globals, are
the same up to that gap. -/
theorem idle_request_changes_nothing (output : Output) (time : Nat → Float)
    (before after : List Request) (request : Request)
    (idle : ((Session.start output time).serveAll before).2.Idle request) :
    let start := Session.start output time
    let session := (start.serveAll before).2
    let shorter := start.serveAll (before ++ after)
    let longer := start.serveAll (before ++ request :: after)
    let width := (session.serve request).2.nextId - session.nextId
    (session.serve request).2.machine = session.machine ∧
    start.answers (before ++ after) = start.answers before ++ session.answers after ∧
    start.answers (before ++ request :: after) =
      start.answers before ++ ((session.serve request).1, session.machine.output) ::
        (session.answers after).map
          (Prod.map (Response.relabel (.gap session.nextId width)) id) ∧
    Alongside session.nextId width shorter.2.machine longer.2.machine := by
  intro start session shorter longer width
  have same : (session.serve request).2.machine = session.machine := idle.machine
  have itself : Alongside session.nextId width session.machine session.machine :=
    Alongside.before (Alongside.start output time) before (Nat.le_refl _)
  have ahead : (session.serve request).2.nextId = width + session.nextId :=
    (Nat.sub_add_cancel (session.serve_nextId_le request)).symm
  have entered : Alongside session.nextId width session.machine
      (session.serve request).2.machine := by
    rw [same]
    exact itself
  obtain ⟨answers, final⟩ := entered.behind (Nat.le_refl _) ahead after
  refine ⟨same, Session.answers_append _ _ _, ?_, ?_⟩
  · rw [Session.answers_append]
    show _ ++ ((session.serve request).1, (session.serve request).2.machine.output) ::
      (session.serve request).2.answers after = _
    rw [same, answers]
  · show Alongside _ _ (start.serveAll (before ++ after)).2.machine
      (start.serveAll (before ++ request :: after)).2.machine
    rw [Session.serveAll_append, Session.serveAll_append]
    exact final

/-- A unit with a name in the wrong place, between one that runs and one that fails. -/
theorem misplaced_this_changes_nothing :
    let start := Session.start (.open #[]) fun _ => 0
    let session := (start.serveAll [.run 1 "nil;"]).2
    let width := (session.serve (.run 1 "this;")).2.nextId - session.nextId
    session.Idle (.run 1 "this;") ∧
      start.answers [.run 1 "nil;", .run 1 "this;", .run 1 "nil();"] =
        start.answers [.run 1 "nil;"] ++
          ((session.serve (.run 1 "this;")).1, session.machine.output) ::
            (session.answers [.run 1 "nil();"]).map
              (Prod.map (Response.relabel (.gap session.nextId width)) id) := by
  intro start session width
  have unit : AcceptedUnit "nil;" 0 [.expression (.literal 0 .nil)] ∅ 1 := ⟨by cbv, rfl⟩
  have run : session = (Session.execute 1 _ ⟨_, 1⟩).2 :=
    congrArg Prod.snd (Session.run_of_accepted unit 1)
  have numbers : session.nextId = 1 := by
    rw [run]
    exact Session.execute_nextId _ _ _
  have read : readUnit "this;" 1 =
      (.ok [.expression (.this 1 ⟨.keyword .this, "this", 1⟩)], 2) := by cbv
  have idle : session.Idle (.run 1 "this;") := by
    refine ⟨[.scope ⟨⟨.keyword .this, "this", 1⟩, .thisOutsideClass⟩], ?_⟩
    unfold Session.run Session.parse
    rw [numbers, read]
    rfl
  exact ⟨idle, (idle_request_changes_nothing (.open #[]) (fun _ => 0) [.run 1 "nil;"]
    [.run 1 "nil();"] (.run 1 "this;") idle).2.2.1⟩

end Lox
