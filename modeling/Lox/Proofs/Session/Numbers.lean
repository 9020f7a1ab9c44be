import Mathlib
import Lox.Proofs.Evaluation.Stack
import Lox.Proofs.Scope.Occurrences
import Lox.Proofs.Session.Requests
import Lox.Proofs.Session.Units

/-!
Contract: the numbers that a session gives out, over all the units it is asked to read.

Owns:
- the trees that a session makes and the programs among them that it executes;
- `Ledger`, what is known of their numbers and of the table of local names, with its step
  over one request and its run over all of them;
- that the table of a new unit overwrites nothing.

Does not own: what the records in the table say.
-/

namespace Lox

open Grammar (Ascending Numbered)

namespace Session

/-- The trees made for a request: there is one, unless the source cannot be read. -/
def made (session : Session) (request : Request) : List (List Statement) :=
  (readUnit request.source session.nextId).1.toOption.toList

/-- The programs executed for a request: the tree of a unit that is to be run, if its scoping
is right. -/
def executed (session : Session) : Request → List (List Statement)
  | .parse _ => []
  | .run fuel source =>
      (session.made (.run fuel source)).filter fun program => (Scope.resolve program).isOk

/-- The trees made for requests that follow one another. -/
def madeForAll (session : Session) : List Request → List (List Statement)
  | [] => []
  | request :: rest => session.made request ++ (session.serve request).2.madeForAll rest

/-- The programs executed for requests that follow one another. -/
def executedForAll (session : Session) : List Request → List (List Statement)
  | [] => []
  | request :: rest => session.executed request ++ (session.serve request).2.executedForAll rest

end Session

/-! ### One request -/

section Request

variable (session : Session) (request : Request)

theorem Session.serve_nextId :
    (session.serve request).2.nextId = (readUnit request.source session.nextId).2 := by
  cases request with
  | parse source => rfl
  | run fuel source =>
      show (session.run fuel source).2.nextId = (readUnit source session.nextId).2
      unfold Session.run Session.parse
      generalize readUnit source session.nextId = result
      obtain ⟨found, next⟩ := result
      cases found with
      | error errors => rfl
      | ok program =>
          dsimp only
          cases Scope.resolve program with
          | error errors => rfl
          | ok table => exact Session.execute_nextId _ fuel program

/-- No number is taken back. -/
theorem Session.serve_nextId_le : session.nextId ≤ (session.serve request).2.nextId := by
  rw [Session.serve_nextId]
  exact readUnit_nextId _ _

/-- What is made for a request has the numbers given out for it, and they rise. -/
theorem Session.made_numbered :
    Numbered ((session.made request).flatMap Statement.numbersOfAll) session.nextId
        (session.serve request).2.nextId ∧
      ∀ program ∈ session.made request, Ascending (Statement.expressionsOfAll program) := by
  rw [Session.serve_nextId]
  unfold Session.made
  cases read : readUnit request.source session.nextId with
  | mk result next =>
      cases result with
      | error errors =>
          have ordered := readUnit_nextId request.source session.nextId
          rw [read] at ordered
          exact ⟨⟨ordered, nofun, List.nodup_nil⟩, nofun⟩
      | ok program =>
          have reads := readUnit_reads read
          refine ⟨?_, List.forall_mem_singleton.mpr reads.rising⟩
          show Numbered (Statement.numbersOfAll program ++ []) _ _
          rw [List.append_nil]
          exact reads.numbered

/-- What is executed for a request is the program of an accepted unit. -/
theorem Session.mem_executed_iff {fuel : Nat} {source : String} {program : List Statement} :
    program ∈ session.executed (.run fuel source) ↔
      ∃ table next, AcceptedUnit source session.nextId program table next := by
  unfold Session.executed Session.made Request.source
  rw [List.mem_filter]
  cases read : readUnit source session.nextId with
  | mk result next =>
      constructor
      · rintro ⟨member, accepted⟩
        cases result with
        | error errors => cases member
        | ok found =>
            obtain rfl : program = found := List.mem_singleton.mp member
            cases checked : Scope.resolve program with
            | error errors =>
                rw [checked] at accepted
                cases accepted
            | ok table => exact ⟨table, next, read, checked⟩
      · rintro ⟨table, _, unit⟩
        cases read.symm.trans unit.read
        refine ⟨List.mem_singleton_self program, ?_⟩
        rw [unit.checked]
        rfl

/-- The records of a session are those that it had and those of what is executed. -/
theorem Session.recorded_of_serve {id distance : Nat}
    (recorded : (session.serve request).2.machine.locals[id]? = some distance) :
    session.machine.locals[id]? = some distance ∨
      id ∈ (session.executed request).flatMap Statement.occurrencesOfAll := by
  cases request with
  | parse source => exact Or.inl recorded
  | run fuel source =>
      rcases session.run_cases source with ⟨_, _, _, refused⟩ | ⟨program, table, next, unit⟩
      · change (session.run fuel source).2.machine.locals[id]? = _ at recorded
        rw [refused] at recorded
        exact Or.inl recorded
      · change (session.run fuel source).2.machine.locals[id]? = _ at recorded
        rw [Session.run_of_accepted unit, (Session.execute_restored _ fuel program).locals,
          Machine.getElem?_addLocals] at recorded
        cases new : table[id]? with
        | none =>
            rw [new] at recorded
            exact Or.inl recorded
        | some _ =>
            have run : program ∈ session.executed (.run fuel source) :=
              session.mem_executed_iff.mpr ⟨table, next, unit⟩
            exact Or.inr (List.mem_flatMap.mpr
              ⟨program, run, Scope.mem_occurrences_of_resolve unit.checked new⟩)

end Request

/-! ### All requests -/

/-- What is known of a session that made some trees and executed some programs. -/
structure Ledger (session : Session) (made executed : List (List Statement)) : Prop where
  /-- No two nodes in all the trees have the same number. -/
  distinct : (made.flatMap Statement.numbersOfAll).Nodup
  /-- All numbers have been given out. -/
  below : ∀ number ∈ made.flatMap Statement.numbersOfAll, number < session.nextId
  /-- Each node has a greater number than all nodes below it. -/
  rising : ∀ program ∈ made, Ascending (Statement.expressionsOfAll program)
  /-- What is executed was made. -/
  among : executed ⊆ made
  /-- Each record is for an occurrence of a name in an executed program. -/
  recorded : ∀ id distance, session.machine.locals[id]? = some distance →
    id ∈ executed.flatMap Statement.occurrencesOfAll

namespace Ledger

variable {session : Session} {made executed : List (List Statement)}

theorem start (output : Output) (time : Nat → Float) :
    Ledger (Session.start output time) [] [] where
  distinct := List.nodup_nil
  below := nofun
  rising := nofun
  among := List.nil_subset _
  recorded := by
    intro id distance recorded
    have absent : (Session.start output time).machine.locals[id]? = none :=
      Std.ExtTreeMap.getElem?_empty
    rw [absent] at recorded
    cases recorded

/-- The numbers in all the trees were given out from the first number on. -/
theorem numbered (ledger : Ledger session made executed) :
    Numbered (made.flatMap Statement.numbersOfAll) 0 session.nextId where
  ordered := Nat.zero_le _
  inside number member := ⟨Nat.zero_le _, ledger.below number member⟩
  distinct := ledger.distinct

/-- A request adds to what was made and executed, with numbers of its own. -/
theorem serve (ledger : Ledger session made executed) (request : Request) :
    Ledger (session.serve request).2 (made ++ session.made request)
      (executed ++ session.executed request) := by
  obtain ⟨fresh, rising⟩ := session.made_numbered request
  have whole := ledger.numbered.append fresh
  rw [← List.flatMap_append] at whole
  refine ⟨whole.distinct, whole.below, List.forall_mem_append.mpr ⟨ledger.rising, rising⟩, ?_, ?_⟩
  · refine List.append_subset.mpr ⟨List.Subset.trans ledger.among (List.subset_append_left _ _), ?_⟩
    refine List.Subset.trans ?_ (List.subset_append_right _ _)
    cases request with
    | parse => exact List.nil_subset _
    | run => exact fun _ member => (List.mem_filter.mp member).1
  · intro id distance recorded
    rw [List.flatMap_append]
    rcases session.recorded_of_serve request recorded with old | new
    · exact List.mem_append_left _ (ledger.recorded id distance old)
    · exact List.mem_append_right _ new

theorem serveAll (ledger : Ledger session made executed) (requests : List Request) :
    Ledger (session.serveAll requests).2 (made ++ session.madeForAll requests)
      (executed ++ session.executedForAll requests) := by
  induction requests generalizing session made executed with
  | nil =>
      show Ledger session (made ++ []) (executed ++ [])
      rw [List.append_nil, List.append_nil]
      exact ledger
  | cons request requests inductionHypothesis =>
      have whole := inductionHypothesis (ledger.serve request)
      rw [List.append_assoc, List.append_assoc] at whole
      exact whole

/-- The table of a unit has no record for a number that has one. -/
theorem apart (ledger : Ledger session made executed) {source : String} {next : Nat}
    {program : List Statement} {table : Scope.Locals}
    (unit : AcceptedUnit source session.nextId program table next) {id distance : Nat}
    (recorded : session.machine.locals[id]? = some distance) : table[id]? = none := by
  obtain ⟨run, inside, occurs⟩ := List.mem_flatMap.mp (ledger.recorded id distance recorded)
  have member := List.mem_flatMap.mpr
    ⟨run, ledger.among inside, Statement.occurrencesOfAll_subset run occurs⟩
  exact unit.outside (Or.inl (ledger.below id member))

end Ledger

/-- The trees that a session answers with are among those it made. -/
theorem Session.mem_madeForAll {session : Session} {requests : List Request}
    {program : List Statement}
    (answered : .parsed (.ok program) ∈ (session.serveAll requests).1) :
    program ∈ session.madeForAll requests := by
  induction requests generalizing session with
  | nil => cases answered
  | cons request requests inductionHypothesis =>
      refine List.mem_append.mpr ?_
      rcases List.mem_cons.mp answered with here | later
      · left
        cases request with
        | run => cases here
        | parse source =>
            have read : (readUnit source session.nextId).1 = .ok program :=
              (Response.parsed.inj here).symm
            show program ∈ (readUnit source session.nextId).1.toOption.toList
            rw [read]
            exact List.mem_singleton_self program
      · exact Or.inr (inductionHypothesis later)

/-- In a session no number is ever used twice. However units end, the nodes of all the trees
made for them have different numbers, which rise from below in each tree, and none is taken
back; the table of local names has records for occurrences of names in executed programs
only, and the table of a further unit overwrites none of them. For it, a parser gives the nodes
of its tree different numbers from the given one up to the next free one. -/
theorem numbers_never_collide (output : Output) (time : Nat → Float) (requests : List Request) :
    let first := Session.start output time
    let session := (first.serveAll requests).2
    Ledger session (first.madeForAll requests) (first.executedForAll requests) ∧
    (∀ program, .parsed (.ok program) ∈ (first.serveAll requests).1 →
      program ∈ first.madeForAll requests) ∧
    (∀ request, session.nextId ≤ (session.serve request).2.nextId) ∧
    (∀ source program table next, AcceptedUnit source session.nextId program table next →
      ∀ (id distance : Nat), session.machine.locals[id]? = some distance →
        table[id]? = none ∧ (session.machine.addLocals table).locals[id]? = some distance) ∧
    ∀ tokens firstId,
      (∀ program next, Grammar.parseProgram tokens firstId = ⟨.ok program, next⟩ →
        Numbered (Statement.numbersOfAll program) firstId next ∧
          Ascending (Statement.expressionsOfAll program)) ∧
      ∀ expression next, Grammar.parseExpression tokens firstId = ⟨.ok expression, next⟩ →
        Numbered expression.numbers firstId next ∧ expression.Rising := by
  intro first session
  have ledger : Ledger session (first.madeForAll requests) (first.executedForAll requests) :=
    (Ledger.start output time).serveAll requests
  refine ⟨ledger, fun program => Session.mem_madeForAll, session.serve_nextId_le, ?_, ?_⟩
  · intro source program table next unit id distance recorded
    have absent := ledger.apart unit recorded
    refine ⟨absent, ?_⟩
    rw [Machine.getElem?_addLocals, absent]
    exact recorded
  · intro tokens firstId
    constructor
    · intro program next parsed
      have read := (Grammar.parseProgram_eq_ok_iff ..).mp parsed
      exact ⟨read.numbered, read.rising⟩
    · intro expression next parsed
      have read := (Grammar.parseExpression_eq_ok_iff ..).mp parsed
      exact ⟨read.numbered, read.rising⟩

/-- A block that has run keeps its record when the same block comes again. -/
theorem record_of_block_kept :
    let session := ((Session.start (.open #[]) fun _ => 0).serveAll [.run 1 "{ var a; a; }"]).2
    ∃ program table, AcceptedUnit "{ var a; a; }" session.nextId program table 2 ∧
      (session.machine.locals[0]? = some 0 ∧ table[1]? = some 0) ∧
      table[0]? = none ∧ (session.machine.addLocals table).locals[0]? = some 0 := by
  intro session
  have unit (number firstId : Nat) (placed : number = 0 ∨ number = 1) (same : firstId = number) :
      AcceptedUnit "{ var a; a; }" firstId
        [.block [.var ⟨.identifier, "a", 1⟩ none,
          .expression (.variable number ⟨.identifier, "a", 1⟩)]]
        (Std.ExtTreeMap.insert ∅ number 0) (number + 1) := by
    rw [same]
    rcases placed with rfl | rfl <;> exact ⟨by cbv, rfl⟩
  have run : session = (Session.execute 1 _ ⟨_, 1⟩).2 :=
    congrArg Prod.snd (Session.run_of_accepted (unit 0 0 (Or.inl rfl) rfl) 1)
  have recorded : session.machine.locals[0]? = some 0 := by
    rw [run, (Session.execute_restored _ _ _).locals, Machine.getElem?_addLocals]
    simp
  have numbers : session.nextId = 1 := by
    rw [run]
    exact Session.execute_nextId _ _ _
  have again := unit 1 session.nextId (Or.inr rfl) numbers
  have kept := (numbers_never_collide (.open #[]) (fun _ => 0) [.run 1 "{ var a; a; }"]).2.2.2.1
    _ _ _ _ again 0 0 recorded
  exact ⟨_, _, again, ⟨recorded, by simp⟩, kept⟩

end Lox
