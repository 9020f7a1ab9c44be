import Lox.Evaluation.Evaluate
import Lox.Grammar.Program
import Lox.Source.Scan

/-!
Contract: sessions, in which one source unit after another runs on one machine.

A unit is scanned, parsed, checked and executed. What is wrong with it before it
runs keeps it from running at all; a runtime error ends it where it occurs. The
session goes on in either case, and node numbers are never used twice.

Owns:
- `StaticError`, any error found before a unit runs, and the order of these;
- `readUnit`, which scans and parses a unit;
- `Session.parse` and `Session.run`;
- the exit code and the diagnostics that an outcome stands for.
-/

namespace Lox

/-- An error found before a program runs. -/
inductive StaticError where
  | lexical (error : Source.LexicalError)
  | grammar (error : Grammar.SyntaxError)
  | scope (error : Scope.ScopeError)

namespace StaticError

/-- The line that an error points at. -/
def line : StaticError → Nat
  | lexical error => error.line
  | grammar error => error.token.line
  | scope error => error.token.line

/-- What is wrong, in words. -/
def message : StaticError → String
  | lexical error => error.fault.message
  | grammar error => error.fault.message
  | scope error => error.fault.message

/-- The diagnostic of an error. -/
def text : StaticError → String
  | lexical error => error.text
  | grammar error => error.text
  | scope error => error.text

/-- Errors by line; on one line they keep their order. -/
def sortByLine (errors : List StaticError) : List StaticError :=
  errors.mergeSort fun left right => left.line ≤ right.line

end StaticError

/-- How a source unit ended. -/
inductive Outcome where
  | finished
  /-- The unit did not run. -/
  | refused (errors : List StaticError)
  | failed (error : Evaluation.RuntimeError)
  | outOfFuel

namespace Outcome

/-- The exit code of success. -/
def finishedCode : Nat := 0

/-- The exit code for a unit that did not run. -/
def refusedCode : Nat := 65

/-- The exit code for a unit that stopped at a runtime error. -/
def failedCode : Nat := 70

/-- The exit code that an outcome stands for. -/
def exitCode : Outcome → Nat
  | finished => finishedCode
  | refused _ => refusedCode
  | failed _ | outOfFuel => failedCode

/-- The diagnostics of an outcome, one for each error. -/
def diagnostics : Outcome → List String
  | finished => []
  | refused errors => errors.map StaticError.text
  | failed error => [error.text]
  | outOfFuel => ["Out of fuel."]

/-- All diagnostics of an outcome, one below the other. -/
def text (outcome : Outcome) : String :=
  "\n".intercalate outcome.diagnostics

end Outcome

/-- Scan and parse a unit, numbering its nodes from `firstId`. Lexical and syntax errors
come together, in the order of their lines. The second part is the first number not
given out. -/
def readUnit (source : String) (firstId : Nat) :
    Except (List StaticError) (List Statement) × Nat :=
  let items := Source.scan source
  let parsed := Grammar.parseProgram (Source.tokens items) firstId
  let lexical := (Source.lexicalErrors items).map StaticError.lexical
  let result :=
    match parsed.result, lexical with
    | .ok program, [] => .ok program
    | .ok _, errors => .error errors
    | .error errors, _ => .error (StaticError.sortByLine (lexical ++ errors.map .grammar))
  (result, parsed.nextId)

/-- A session: a machine, and the first node number not in use. -/
structure Session where
  machine : Machine
  nextId : Nat

namespace Session

/-- A session that has run nothing. -/
def start (output : Output) (time : Nat → Float) : Session :=
  ⟨Machine.start output time, 0⟩

/-- Give a session a clock of which no reading has been taken. -/
def setClock (time : Nat → Float) (session : Session) : Session :=
  { session with machine := { session.machine with clock := ⟨time, 0⟩ } }

/-- Scan and parse a unit without running it. -/
def parse (source : String) (session : Session) :
    Except (List StaticError) (List Statement) × Session :=
  let (result, nextId) := readUnit source session.nextId
  (result, { session with nextId := nextId })

/-- Execute a program on the machine of a session. -/
def execute (fuel : Nat) (program : List Statement) (session : Session) : Outcome × Session :=
  match Evaluation.interpret fuel program session.machine with
  | .ok _ machine => (.finished, { session with machine := machine })
  | .error (.fault error) machine => (.failed error, { session with machine := machine })
  | .error .outOfFuel machine => (.outOfFuel, { session with machine := machine })

/-- Run a unit. The table of its local names joins those of earlier units. -/
def run (fuel : Nat) (source : String) (session : Session) : Outcome × Session :=
  match session.parse source with
  | (.error errors, session) => (.refused errors, session)
  | (.ok program, session) =>
      match Scope.resolve program with
      | .error errors => (.refused (errors.map .scope), session)
      | .ok locals =>
          { session with machine := session.machine.addLocals locals }.execute fuel program

end Session

end Lox
