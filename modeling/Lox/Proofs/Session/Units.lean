import Lox.Proofs.Grammar.Genuine
import Lox.Proofs.Grammar.Numbering
import Lox.Proofs.Grammar.Onward
import Lox.Proofs.Grammar.Program
import Lox.Proofs.Scope.Resolved
import Lox.Session

/-!
Contract: what a source unit brings into a session.

Owns:
- that the nodes of a unit have numbers that were not given out before;
- `AcceptedUnit`, a unit that is accepted, and what its table says;
- that a session runs these units and no others.
-/

namespace Lox

/-- A unit can be read if the scanner finds nothing wrong with it, and its tokens are a word of
the grammar. -/
theorem readUnit_eq_ok_iff {source : String} {firstId next : Nat} {program : List Statement} :
    readUnit source firstId = (.ok program, next) ↔
      Source.lexicalErrors (Source.scan source) = [] ∧
        Grammar.Reads (Grammar.programWord (Source.tokens (Source.scan source))) firstId
          (.declarations program) next := by
  rw [← Grammar.parseProgram_eq_ok_iff]
  unfold readUnit
  simp only [Prod.mk.injEq]
  generalize Grammar.parseProgram (Source.tokens (Source.scan source)) firstId = parsed
  generalize Source.lexicalErrors (Source.scan source) = errors
  obtain ⟨result, nextId⟩ := parsed
  cases result with
  | ok found =>
      cases errors with
      | nil => simp
      | cons => simp
  | error => simp

theorem readUnit_reads {source : String} {firstId next : Nat} {program : List Statement}
    (read : readUnit source firstId = (.ok program, next)) :
    Grammar.Reads (Grammar.programWord (Source.tokens (Source.scan source))) firstId
      (.declarations program) next :=
  (readUnit_eq_ok_iff.mp read).2

theorem readUnit_nextId (source : String) (firstId : Nat) :
    firstId ≤ (readUnit source firstId).2 :=
  Grammar.parseProgram_nextId _ firstId

/-- A unit that is accepted: its program, its table, and the next number behind it. -/
structure AcceptedUnit (source : String) (firstId : Nat) (program : List Statement)
    (table : Scope.Locals) (next : Nat) : Prop where
  read : readUnit source firstId = (.ok program, next)
  checked : Scope.resolve program = .ok table

namespace AcceptedUnit

variable {source : String} {firstId next : Nat} {program : List Statement} {table : Scope.Locals}

theorem numbered (unit : AcceptedUnit source firstId program table next) :
    Grammar.Numbered (Statement.numbersOfAll program) firstId next :=
  (readUnit_reads unit.read).numbered

/-- The words in a unit are spelled as the scanner reads them. -/
theorem genuine (unit : AcceptedUnit source firstId program table next) :
    Statement.AllGenuine Token.Spelled program :=
  (readUnit_reads unit.read).genuine fun token member =>
    Source.scan_spelled source token (List.takeWhile_subset _ member)

/-- The table tells the record of every occurrence in the unit. -/
theorem resolved (unit : AcceptedUnit source firstId program table next) :
    Scope.ResolvedStatements (fun id record => id ∈ Statement.numbersOfAll program ∧
      table[id]? = record) [] program :=
  Scope.resolve_resolved unit.checked (readUnit_reads unit.read).tame unit.genuine
    unit.numbered.distinct

theorem outside (unit : AcceptedUnit source firstId program table next) {id : Nat}
    (other : id < firstId ∨ next ≤ id) : table[id]? = none := by
  refine Scope.resolve_outside unit.checked fun member => ?_
  have inside := unit.numbered.inside id member
  omega

end AcceptedUnit

/-- A unit that is accepted runs, on a machine on which its table has come in. -/
theorem Session.run_of_accepted {session : Session} {source : String}
    {program : List Statement} {table : Scope.Locals} {next : Nat}
    (unit : AcceptedUnit source session.nextId program table next) (fuel : Nat) :
    session.run fuel source =
      Session.execute fuel program ⟨session.machine.addLocals table, next⟩ := by
  unfold Session.run Session.parse
  rw [unit.read]
  dsimp only
  rw [unit.checked]

/-- No numbers are given out while a program runs. -/
theorem Session.execute_nextId (session : Session) (fuel : Nat) (program : List Statement) :
    (session.execute fuel program).2.nextId = session.nextId := by
  unfold Session.execute
  split <;> rfl

/-- A program that runs is not refused. -/
theorem Session.execute_ne_refused (session : Session) (fuel : Nat) (program : List Statement)
    (errors : List StaticError) : (session.execute fuel program).1 ≠ .refused errors := by
  unfold Session.execute
  split <;> nofun

/-- A unit is refused, which leaves the machine as it is, or it is accepted. -/
theorem Session.run_cases (session : Session) (source : String) :
    (∃ errors next, session.nextId ≤ next ∧
      ∀ fuel, session.run fuel source = (.refused errors, ⟨session.machine, next⟩)) ∨
    ∃ program table next, AcceptedUnit source session.nextId program table next := by
  have ordered := readUnit_nextId source session.nextId
  unfold Session.run Session.parse
  cases read : readUnit source session.nextId with
  | mk result next =>
      rw [read] at ordered
      cases result with
      | error errors => exact Or.inl ⟨errors, next, ordered, fun _ => rfl⟩
      | ok program =>
          cases checked : Scope.resolve program with
          | error errors =>
              refine Or.inl ⟨errors.map .scope, next, ordered, fun fuel => ?_⟩
              dsimp only
              rw [checked]
          | ok table => exact Or.inr ⟨program, table, next, read, checked⟩

end Lox
