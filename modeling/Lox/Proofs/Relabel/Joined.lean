import Mathlib
import Lox.Proofs.Relabel.Grammar
import Lox.Proofs.Relabel.Numbers
import Lox.Proofs.Relabel.Scope
import Lox.Proofs.Relabel.Sessions
import Lox.Proofs.Session.Concatenation

/-!
Contract: two units, one after the other or as one.

Owns:
- `Accepted`, a text that is accepted in any session;
- that two texts with a newline between them are accepted if both are, and what their tree
  and their table are;
- `run_joined`: the two units do what the one unit does.
-/

namespace Lox

open Source (scan tokens lexicalErrors linesOf)

/-- A text that can be read and checked. Where its numbers start makes no difference. -/
def Accepted (source : String) : Prop :=
  ∃ program table next, AcceptedUnit source 0 program table next

theorem Accepted.unit {source : String} (accepted : Accepted source) (firstId : Nat) :
    ∃ program table next, AcceptedUnit source firstId program table next := by
  obtain ⟨program, table, next, read, checked⟩ := accepted
  obtain ⟨quiet, reads⟩ := readUnit_eq_ok_iff.mp read
  have step : ∀ id, (Relabelling.renumbered firstId).number (id + 1) =
      (Relabelling.renumbered firstId).number id + 1 := fun _ => rfl
  have renumbered := reads.relabel step
  obtain ⟨other, again, _⟩ := Scope.resolve_relabel (.renumbered firstId) checked
  refine ⟨_, other, firstId + next, readUnit_eq_ok_iff.mpr ⟨quiet, ?_⟩, again⟩
  simpa [Relabelling.renumbered] using renumbered

namespace Grammar

section Seam

variable {before : List Token} (others : ∀ token ∈ before, token.isEof = false)

include others

theorem programWord_behind (back : List Token) :
    programWord (before ++ back) = before ++ programWord back := by
  have inside : ∀ token ∈ before, (!token.isEof) = true := by
    intro token member
    rw [others token member]
    rfl
  exact List.takeWhile_append_of_pos inside

/-- The word of a program that ends at its end token. -/
theorem programWord_before (last : Nat) : programWord (before ++ [⟨.eof, "", last⟩]) = before := by
  rw [programWord_behind others]
  exact List.append_nil before

/-- The word of two programs. -/
theorem programWord_append (labels : Relabelling) (back : List Token) :
    programWord (before ++ back.map labels.token) =
      before ++ (programWord back).map labels.token := by
  rw [programWord_behind others]
  unfold programWord
  rw [List.takeWhile_map]
  congr 3
  funext token
  simp

end Seam

end Grammar

/-! ### One text -/

section Texts

variable {first second : String} {firstId middle next : Nat} {program later : List Statement}
  {table behind : Scope.Locals}

/-- How the code of a second unit is changed when it becomes a part of the first one. -/
def Relabelling.joined (first second : String) (middle next : Nat) : Relabelling :=
  .moved (linesOf first) (Token.From second) fun id => middle ≤ id ∧ id < next

/-- Two units that follow one another are accepted as one. -/
theorem AcceptedUnit.joined (one : AcceptedUnit first firstId program table middle)
    (two : AcceptedUnit second middle later behind next) :
    ∃ both, AcceptedUnit (first ++ "\n" ++ second) firstId
        (program ++ Statement.relabelAll (.joined first second middle next) later) both next ∧
      ∀ id : Nat, both[id]? = behind[id]?.or table[id]? := by
  obtain ⟨quiet, front⟩ := readUnit_eq_ok_iff.mp one.read
  obtain ⟨stillQuiet, back⟩ := readUnit_eq_ok_iff.mp two.read
  obtain ⟨before, last, ends, others, split, silent⟩ := Source.tokens_seam quiet second
  obtain ⟨_, again, same⟩ :=
    Scope.resolve_relabel (.joined first second middle next) two.checked
  rw [same fun _ => rfl] at again
  obtain ⟨both, checked, records⟩ := Scope.resolve_append one.checked again
  refine ⟨both, ⟨readUnit_eq_ok_iff.mpr ⟨silent stillQuiet, ?_⟩, checked⟩, records⟩
  have step : ∀ id, (Relabelling.joined first second middle next).number (id + 1) =
      (Relabelling.joined first second middle next).number id + 1 := fun _ => rfl
  have moved := back.relabel step
  rw [ends, Grammar.programWord_before others] at front
  have whole : Grammar.programWord (tokens (scan (first ++ "\n" ++ second))) =
      before ++ (Grammar.programWord (tokens (scan second))).map
        (Relabelling.joined first second middle next).token := by
    rw [split]
    exact Grammar.programWord_append others (.joined first second middle next) _
  rw [whole]
  exact front.append moved

end Texts

/-! ### One run -/

namespace Relabelled

/-- Where code may be from: it has been read before and stands as it was, or it is from the
second text, and stands as many lines further down as the first text takes. -/
def Joined (older : Token → Prop) (first second : String) (labels : Relabelling) : Prop :=
  (∃ among numbered, labels = .moved 0 among numbered ∧ ∀ token, among token → older token) ∨
    ∃ numbered, labels = .moved (linesOf first) (Token.From second) numbered

/-- Machines with the same table and the same output, where code of the second text may stand
further down. -/
def joined (older : Token → Prop) (first second : String) (table : Scope.Locals) : Likeness where
  origins := Joined older first second
  table := table
  other := table
  outputs := Eq
  agree := by
    rintro _ (⟨_, _, rfl, _⟩ | ⟨_, rfl⟩) id _
    · rfl
    · rfl
  print := print_of_eq

variable {older : Token → Prop} {session : Session} {first second : String} {middle next : Nat}
  {program later : List Statement} {table behind both : Scope.Locals}

/-- The tables come in one after the other or together. -/
theorem addLocals_joined (records : ∀ id : Nat, both[id]? = behind[id]?.or table[id]?)
    (machine : Machine) {final : Machine}
    (kept : final.locals = (machine.addLocals table).locals) :
    (machine.addLocals both).locals = (final.addLocals behind).locals := by
  refine Std.ExtTreeMap.ext_getElem? fun id => ?_
  rw [Machine.getElem?_addLocals, Machine.getElem?_addLocals, kept, Machine.getElem?_addLocals,
    records, Option.or_assoc]

/-- What two texts do behind the first one, if that one ends: apart, the program of the second
text is run, and as one text that program on lines further down, both from the same state on. -/
def GoesOn (fuel : Nat) (first second : String) (front : Session)
    (last whole : Outcome × Session) : Prop :=
  ∃ program table next, AcceptedUnit second front.nextId program table next ∧
    last = Session.execute fuel program ⟨front.machine.addLocals table, next⟩ ∧
    whole = Session.execute fuel
      (Statement.relabelAll (.joined first second front.nextId next) program)
      ⟨front.machine.addLocals table, next⟩

/-- The second text ends alike on lines further down. -/
theorem Known.continue_endsAlike (known : Known older session) (first : String)
    (unit : AcceptedUnit second session.nextId later behind next) (fuel : Nat) :
    EndsAlike (joined older first second (session.machine.addLocals behind).locals)
      (Session.execute fuel later ⟨session.machine.addLocals behind, next⟩)
      (Session.execute fuel
        (Statement.relabelAll (.joined first second session.nextId next) later)
        ⟨session.machine.addLocals behind, next⟩) := by
  have wider : ∀ labels, AsRead older session.nextId labels → Joined older first second labels := by
    rintro _ ⟨among, numbered, rfl, old, _⟩
    exact Or.inl ⟨among, numbered, rfl, old⟩
  have entered : MachineAlike (joined older first second (session.machine.addLocals behind).locals)
      (session.machine.addLocals behind) (session.machine.addLocals behind) :=
    MachineAlike.widen wider known fun _ _ same => same
  exact execute_endsAlike ⟨_, next⟩ ⟨_, next⟩ entered (Or.inr ⟨_, rfl⟩) fuel (unit.within _)

theorem Known.run_joined (known : Known older session)
    (one : AcceptedUnit first session.nextId program table middle)
    (two : AcceptedUnit second middle later behind next) (fuel : Nat) :
    let front := session.run fuel first
    let whole := session.run fuel (first ++ "\n" ++ second)
    let last := front.2.run fuel second
    (front.1 = .finished ∧ GoesOn fuel first second front.2 last whole ∧
        last.2.nextId = whole.2.nextId ∧
        EndsAlike (joined (fun token => older token ∨ token.From first) first second
          whole.2.machine.locals) last whole) ∨
      ((front.1 = .outOfFuel ∨ ∃ error, front.1 = .failed error) ∧ whole.1 = front.1 ∧
        whole.2.machine.output = front.2.machine.output) := by
  obtain ⟨both, unit, records⟩ := one.joined two
  have agree : ∀ id < middle, (session.machine.addLocals both).locals[id]? =
      (session.machine.addLocals table).locals[id]? := by
    intro id old
    rw [Machine.getElem?_addLocals, Machine.getElem?_addLocals, records, two.outside (Or.inl old),
      Option.none_or]
  have same := known.execute_eq one agree fuel next
  have read := known.execute one fuel
  have numbers := Session.execute_nextId ⟨session.machine.addLocals table, middle⟩ fuel program
  have runs := Session.execute_ne_refused ⟨session.machine.addLocals table, middle⟩ fuel program
  have joins := addLocals_joined records session.machine
    (known.endsAlike one agree fuel next).machine.locals
  dsimp only
  rw [Session.run_of_accepted one, Session.run_of_accepted unit,
    Session.execute_append (Scope.allStay_of_resolve one.checked),
    show Session.execute fuel program ⟨session.machine.addLocals both, next⟩ = _ from same]
  generalize Session.execute fuel program ⟨session.machine.addLocals table, middle⟩ = front at *
  obtain ⟨outcome, front⟩ := front
  dsimp only at numbers runs joins read ⊢
  cases outcome with
  | refused errors => exact absurd rfl (runs errors)
  | failed error => exact Or.inr ⟨Or.inr ⟨error, rfl⟩, rfl, rfl⟩
  | outOfFuel => exact Or.inr ⟨Or.inl rfl, rfl, rfl⟩
  | finished =>
      subst numbers
      have ended := read.continue_endsAlike first two fuel
      -- When the first program ends, the one text stands where the second unit starts.
      have entered : { front.machine with locals := (session.machine.addLocals both).locals } =
          front.machine.addLocals behind := by
        rw [joins]
        rfl
      refine Or.inl ⟨rfl, ?_⟩
      dsimp only
      rw [entered, Session.run_of_accepted two]
      refine ⟨⟨later, behind, next, two, rfl, rfl⟩, ?_, ?_⟩
      · rw [Session.execute_nextId, Session.execute_nextId]
      · rw [show _ = (front.machine.addLocals behind).locals from ended.machine.others]
        exact ended

/-- Two units that are accepted do in one text what they do one after the other. If the first
one ends, the one text goes on from where it ended, as the second unit does, and both ways end
alike: with the same output, the same outcome, the same table, the same next number and the same
frames and instances, but for the tokens of the second text, which stand as many lines further
down as the first text takes. If the first one stops, so does the one text, with the same error
and the same output. -/
theorem units_run_as_one (output : Output) (time : Nat → Float) (requests : List Request)
    {first second : String} (one : Accepted first) (two : Accepted second) (fuel : Nat) :
    let session := ((Session.start output time).serveAll requests).2
    let front := session.run fuel first
    let last := front.2.run fuel second
    let whole := session.run fuel (first ++ "\n" ++ second)
    (front.1 = .finished ∧ GoesOn fuel first second front.2 last whole ∧
        last.2.nextId = whole.2.nextId ∧
        EndsAlike (joined (fun token => token.FromAny requests ∨ token.From first) first second
          whole.2.machine.locals) last whole) ∨
      ((front.1 = .outOfFuel ∨ ∃ error, front.1 = .failed error) ∧ whole.1 = front.1 ∧
        whole.2.machine.output = front.2.machine.output) := by
  have known : Known (fun token => token.FromAny requests)
      ((Session.start output time).serveAll requests).2 := by
    refine ((Known.start output time).serveAll requests).mono fun token read => ?_
    exact read.resolve_left id
  obtain ⟨program, table, middle, front⟩ :=
    one.unit ((Session.start output time).serveAll requests).2.nextId
  obtain ⟨later, behind, next, back⟩ := two.unit middle
  exact known.run_joined front back fuel

/-- A call that fails in the second text fails behind the first one as well. -/
theorem failing_unit_runs_as_one :
    let session := ((Session.start (.open #[]) fun _ => 0).serveAll []).2
    let front := session.run 1 "var a;"
    let last := front.2.run 1 "nil();"
    let whole := session.run 1 ("var a;" ++ "\n" ++ "nil();")
    (Accepted "var a;" ∧ Accepted "nil();") ∧
      last.1 = .failed ⟨⟨.symbol .rightParen, ")", 1⟩, .notCallable⟩ ∧
      front.1 = .finished ∧ GoesOn 1 "var a;" "nil();" front.2 last whole ∧
        last.2.nextId = whole.2.nextId ∧
        EndsAlike (joined (fun token => token.FromAny [] ∨ token.From "var a;") "var a;" "nil();"
          whole.2.machine.locals) last whole := by
  intro session front last whole
  have first : AcceptedUnit "var a;" 0 [.var ⟨.identifier, "a", 1⟩ none] ∅ 0 :=
    ⟨by cbv, rfl⟩
  have run : front = Session.execute 1 _ ⟨session.machine.addLocals ∅, 0⟩ :=
    Session.run_of_accepted first 1
  have numbers : front.2.nextId = 0 := by
    rw [run]
    rfl
  have second (firstId : Nat) (fresh : firstId = 0) : AcceptedUnit "nil();" firstId
      [.expression (.call 1 (.literal 0 .nil) ⟨.symbol .rightParen, ")", 1⟩ [])] ∅ 2 := by
    rw [fresh]
    exact ⟨by cbv, rfl⟩
  have accepted : Accepted "var a;" ∧ Accepted "nil();" :=
    ⟨⟨_, _, _, first⟩, ⟨_, _, _, second 0 rfl⟩⟩
  have failed : last.1 = .failed ⟨⟨.symbol .rightParen, ")", 1⟩, .notCallable⟩ := by
    show (front.2.run 1 "nil();").1 = _
    rw [Session.run_of_accepted (second _ numbers)]
    rfl
  refine ⟨accepted, failed, ?_⟩
  rcases units_run_as_one (.open #[]) (fun _ => 0) [] accepted.1 accepted.2 1 with
    alike | ⟨stopped, _⟩
  · exact alike
  · change front.1 = .outOfFuel ∨ ∃ error, front.1 = .failed error at stopped
    rw [run] at stopped
    rcases stopped with early | ⟨_, early⟩ <;> cases early

end Relabelled

end Lox
