import Lox.Proofs.Evaluation.Returns
import Lox.Proofs.Session.Units

/-!
Contract: programs one behind the other.

Owns:
- that two words of declarations read as their declarations in sequence;
- that nothing local is left open between them, so both are checked on their own;
- that both run as one program, if the first does not stop.

Does not own: source texts.
-/

namespace Lox

/-! ### Reading -/

namespace Grammar

theorem Reads.append {front back : List Token} {first middle next : Nat}
    {earlier later : List Statement} (read : Reads front first (.declarations earlier) middle)
    (behind : Reads back middle (.declarations later) next) :
    Reads (front ++ back) first (.declarations (earlier ++ later)) next := by
  induction earlier generalizing front first with
  | nil =>
      cases read
      exact behind
  | cons statement earlier inductionHypothesis =>
      cases read with
      | nextDeclaration declaration declarations =>
          rw [List.append_assoc, List.cons_append]
          exact .nextDeclaration declaration (inductionHypothesis declarations)

end Grammar

/-! ### Checking -/

namespace Scope

/-- Outside all scopes no statement leaves anything behind. -/
theorem ofStatement_nil (context : Context) : (statement : Statement) →
    (ofStatement context [] statement).1 = []
  | .expression _ | .print _ | .block _ | .return _ _ => rfl
  | .var _ _ | .function _ | .class _ _ => rfl
  | .conditional _ thenBranch none => ofStatement_nil context thenBranch
  | .conditional _ thenBranch (some elseBranch) => by
      show (ofStatement context (ofStatement context [] thenBranch).1 elseBranch).1 = []
      rw [ofStatement_nil context thenBranch]
      exact ofStatement_nil context elseBranch
  | .loop _ body => ofStatement_nil context body

theorem findings_append (first second : List Statement) :
    findings (first ++ second) = findings first ++ findings second := by
  unfold findings
  induction first with
  | nil => rfl
  | cons statement first inductionHypothesis =>
      simp only [List.cons_append, ofStatements, ofStatement_nil, inductionHypothesis,
        List.append_assoc]

/-- Two programs are accepted together, and the table of the second wins. -/
theorem resolve_append {first second : List Statement} {table later : Locals}
    (one : resolve first = .ok table) (two : resolve second = .ok later) :
    ∃ both, resolve (first ++ second) = .ok both ∧
      ∀ id : Nat, both[id]? = later[id]?.or table[id]? := by
  obtain ⟨quiet, rfl⟩ := resolve_eq_ok_iff.mp one
  obtain ⟨stillQuiet, rfl⟩ := resolve_eq_ok_iff.mp two
  refine ⟨_, resolve_eq_ok_iff.mpr ⟨?_, rfl⟩, fun id => ?_⟩
  · rw [findings_append]
    exact violations_append_eq_nil.mpr ⟨quiet, stillQuiet⟩
  · rw [findings_append]
    exact getElem?_locals_append _ _ id

end Scope

/-! ### Running -/

namespace Evaluation

variable {invoke : Invoke} {fuel : Nat}

/-- What follows statements that do not return runs behind them. -/
theorem executeAll_append {first : List Statement} (stays : Statement.AllStay first)
    (second : List Statement) :
    executeAll invoke fuel (first ++ second) =
      executeAll invoke fuel first >>= fun _ => executeAll invoke fuel second := by
  induction first with
  | nil => rfl
  | cons statement rest inductionHypothesis =>
      funext machine
      have later := inductionHypothesis stays.2
      show EStateM.bind _ _ machine = EStateM.bind (EStateM.bind _ _) _ machine
      unfold EStateM.bind
      cases result : execute invoke fuel statement machine with
      | ok completion middle =>
          obtain rfl := execute_normal statement stays.1 result
          exact congrFun later middle
      | error => rfl

end Evaluation

/-- A program runs on into another one, unless it stops. -/
theorem Session.execute_append {first : List Statement} (stays : Statement.AllStay first)
    (session : Session) (fuel : Nat) (second : List Statement) :
    session.execute fuel (first ++ second) =
      match session.execute fuel first with
      | (.finished, middle) => middle.execute fuel second
      | stopped => stopped := by
  have joined : Evaluation.interpret fuel (first ++ second) =
      Evaluation.interpret fuel first >>= fun _ => Evaluation.interpret fuel second := by
    unfold Evaluation.interpret
    simp only [Evaluation.executeAll_append stays, bind_assoc, pure_bind]
  unfold execute
  rw [joined]
  cases result : Evaluation.interpret fuel first session.machine with
  | ok _ middle => rw [Evaluation.bind_of_ok _ result]
  | error halt middle =>
      rw [Evaluation.bind_of_error _ result]
      cases halt <;> rfl

end Lox
