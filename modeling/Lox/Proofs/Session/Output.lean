import Lox.Proofs.Evaluation.Order
import Lox.Proofs.Receiver.History

/-!
Contract: what sessions print.

Owns:
- `Session.entries`: the points at which the accepted units of a session start, in order, and
  `Session.course`, all that is done from there on;
- that a session does the same whatever its output is, apart from the output;
- that the output grows by the lines of the print statements that are executed, in their order.
-/

namespace Lox

open Evaluation

namespace Session

/-- Let a session print to another output. -/
def setOutput (output : Output) (session : Session) : Session :=
  { session with machine := session.machine.setOutput output }

/-! ### Where units start -/

/-- The point at which the unit of a request starts, if it is to be run and is accepted. -/
def entry? (session : Session) : Request → Option Point
  | .parse _ => none
  | .run fuel source =>
      match session.parse source with
      | (.error _, _) => none
      | (.ok program, _) =>
          match Scope.resolve program with
          | .error _ => none
          | .ok table => some ⟨fuel, .statements program, session.machine.addLocals table⟩

theorem entry?_of_accepted {session : Session} {source : String} {program : List Statement}
    {table : Scope.Locals} {next : Nat}
    (unit : AcceptedUnit source session.nextId program table next) (fuel : Nat) :
    session.entry? (.run fuel source) =
      some ⟨fuel, .statements program, session.machine.addLocals table⟩ := by
  unfold entry? parse
  dsimp only
  rw [unit.read]
  dsimp only
  rw [unit.checked]

/-- A unit starts that is accepted, or else a request leaves the machine as it is. What is said
about the request does not depend on the output then. -/
theorem serve_cases (session : Session) (request : Request) :
    (session.entry? request = none ∧ ∃ response next, ∀ output,
      (session.setOutput output).serve request =
        (response, ⟨session.machine.setOutput output, next⟩)) ∨
    ∃ fuel source program table next, request = .run fuel source ∧
      AcceptedUnit source session.nextId program table next := by
  cases request with
  | parse source =>
      let read := readUnit source session.nextId
      exact .inl ⟨rfl, .parsed read.1, read.2, fun _ => rfl⟩
  | run fuel source =>
      unfold entry? serve run parse setOutput
      dsimp only
      cases read : readUnit source session.nextId with
      | mk result next =>
          cases result with
          | error errors => exact .inl ⟨rfl, .ended (.refused errors), next, fun _ => rfl⟩
          | ok program =>
              dsimp only
              cases checked : Scope.resolve program with
              | error errors =>
                  exact .inl ⟨rfl, .ended (.refused (errors.map .scope)), next, fun _ => rfl⟩
              | ok table => exact .inr ⟨fuel, source, program, table, next, rfl, read, checked⟩

theorem entry?_eq_some_iff {session : Session} {request : Request} {start : Point} :
    session.entry? request = some start ↔ session.Starts [request] start := by
  constructor
  · intro entered
    obtain ⟨none, _⟩ | ⟨fuel, source, program, table, next, rfl, unit⟩ :=
      session.serve_cases request
    · cases none.symm.trans entered
    · obtain rfl := Option.some.inj ((entry?_of_accepted unit fuel).symm.trans entered)
      exact .here unit
  · intro starts
    cases starts with
    | here unit => exact entry?_of_accepted unit _
    | later starts => cases starts

/-- The points at which units start, in order. -/
def entries (session : Session) : List Request → List Point
  | [] => []
  | request :: rest => (session.entry? request).toList ++ (session.serve request).2.entries rest

theorem mem_entries_iff {session : Session} {requests : List Request} {start : Point} :
    start ∈ session.entries requests ↔ session.Starts requests start := by
  induction requests generalizing session with
  | nil => exact ⟨nofun, nofun⟩
  | cons request rest inductionHypothesis =>
      rw [entries, List.mem_append, Option.mem_toList, inductionHypothesis]
      constructor
      · rintro (entered | starts)
        · cases entry?_eq_some_iff.mp entered with
          | here unit => exact .here unit
          | later starts => cases starts
        · exact .later starts
      · intro starts
        cases starts with
        | here unit => exact .inl (entry?_of_accepted unit _)
        | later starts => exact .inr starts

/-- All that is done while a session serves requests, in order. -/
def course (session : Session) (requests : List Request) : List Point :=
  (session.entries requests).flatMap Point.course

/-- The course of a session has the points that evaluation gets to. -/
theorem mem_course_iff {session : Session} {requests : List Request} {point : Point} :
    point ∈ session.course requests ↔ Visited (session.Starts requests) point := by
  rw [course, List.mem_flatMap]
  exact exists_congr fun start => and_congr mem_entries_iff Point.mem_course_iff

/-- The lines that a session prints. -/
def printed (session : Session) (requests : List Request) : List String :=
  (session.course requests).filterMap Point.line?

theorem printed_cons (session : Session) (request : Request) (rest : List Request) :
    session.printed (request :: rest) =
      session.printed [request] ++ (session.serve request).2.printed rest := by
  simp [printed, course, entries]

/-! ### Another output -/

/-- A program does the same whatever the output is. -/
theorem execute_setOutput (session : Session) (fuel : Nat) (program : List Statement)
    (output : Output) :
    (session.setOutput output).execute fuel program =
      ((session.execute fuel program).1, (session.execute fuel program).2.setOutput
        (output.printAll (Point.printed ⟨fuel, .statements program, session.machine⟩))) := by
  have prints := statements_print fuel program session.machine output
  unfold execute
  rw [show (session.setOutput output).machine = session.machine.setOutput output from rfl, prints]
  generalize interpret fuel program session.machine = result
  cases result with
  | ok _ _ => rfl
  | error halt _ => cases halt <;> rfl

/-- A request is served in the same way whatever the output is. -/
theorem serve_setOutput (session : Session) (request : Request) (output : Output) :
    (session.setOutput output).serve request =
      ((session.serve request).1, (session.serve request).2.setOutput
        (output.printAll (session.printed [request]))) := by
  obtain ⟨none, response, next, same⟩ | ⟨fuel, source, program, table, next, rfl, unit⟩ :=
    session.serve_cases request
  · have unprinted : session.printed [request] = [] := by simp [printed, course, entries, none]
    rw [unprinted, same output, show session.serve request = _ from same session.machine.output]
    rfl
  · have lines : session.printed [.run fuel source] =
        Point.printed ⟨fuel, .statements program, session.machine.addLocals table⟩ := by
      simp [printed, course, entries, entry?_of_accepted unit, Point.printed]
    have ran (output : Output) : (session.setOutput output).run fuel source =
        (Session.setOutput output ⟨session.machine.addLocals table, next⟩).execute fuel program :=
      run_of_accepted
        (show AcceptedUnit source (session.setOutput output).nextId program table next from unit)
        fuel
    have served (output : Output) : (session.setOutput output).serve (.run fuel source) =
        (.ended ((session.setOutput output).run fuel source).1,
          ((session.setOutput output).run fuel source).2) := rfl
    rw [served output, show session.serve _ = _ from served session.machine.output, ran, ran,
      execute_setOutput, lines]
    rfl

theorem serve_output (session : Session) (request : Request) :
    (session.serve request).2.machine.output =
      session.machine.output.printAll (session.printed [request]) :=
  congrArg (fun served => served.2.machine.output)
    (session.serve_setOutput request session.machine.output)

theorem serveAll_setOutput (session : Session) (requests : List Request) (output : Output) :
    (session.setOutput output).serveAll requests =
      ((session.serveAll requests).1, (session.serveAll requests).2.setOutput
        (output.printAll (session.printed requests))) := by
  induction requests generalizing session output with
  | nil => rfl
  | cons request rest inductionHypothesis =>
      rw [printed_cons, Output.printAll_append]
      unfold serveAll
      rw [serve_setOutput]
      dsimp only
      rw [inductionHypothesis]

/-! ### Order -/

/-- Units start one after another, each on the output that the one before it leaves. -/
theorem entries_follow (session : Session) (requests : List Request) :
    Follow session.machine.output (session.entries requests) := by
  induction requests generalizing session with
  | nil => trivial
  | cons request rest inductionHypothesis =>
      have behind := inductionHypothesis (session.serve request).2
      rw [entries]
      obtain ⟨none, response, next, same⟩ | ⟨fuel, source, program, table, next, rfl, unit⟩ :=
        session.serve_cases request
      · have served : session.serve request = (response, ⟨session.machine, next⟩) :=
          same session.machine.output
        rw [none]
        rw [served] at behind ⊢
        exact behind
      · rw [entry?_of_accepted unit]
        refine ⟨rfl, ?_⟩
        have left : (session.serve (.run fuel source)).2.machine =
            Point.left ⟨fuel, .statements program, session.machine.addLocals table⟩ := by
          rw [← execute_machine ⟨session.machine.addLocals table, next⟩, ← run_of_accepted unit]
          rfl
        rw [← left]
        exact behind

/-- When something in the course of a session has been done, the lines of the course up to it have
been printed, and no others. -/
theorem left_output (session : Session) (requests : List Request)
    (index : Fin (session.course requests).length) :
    ((session.course requests).get index).left.output = session.machine.output.printAll
      (((session.course requests).take (index + 1)).filterMap Point.line?) := by
  have split : session.course requests = (session.course requests).take index ++
      (session.course requests).get index :: (session.course requests).drop (index + 1) := by
    simp
  have behind := (session.entries_follow requests).orderly (fun point _ => point.orderly)
    _ _ _ split
  rw [behind]
  simp

theorem serveAll_output (session : Session) (requests : List Request) :
    (session.serveAll requests).2.machine.output =
      session.machine.output.printAll (session.printed requests) :=
  congrArg (fun served => served.2.machine.output)
    (session.serveAll_setOutput requests session.machine.output)

end Session

/-- The text of lines is that of the first ones and then that of the others. -/
theorem Output.textOf_append (lines more : Array String) :
    textOf (lines ++ more) = textOf lines ++ textOf more := by
  have behind (lines : List String) (text : String) :
      lines.foldl (fun text line => text ++ line ++ "\n") text =
        text ++ lines.foldl (fun text line => text ++ line ++ "\n") "" := by
    induction lines generalizing text with
    | nil => simp
    | cons line rest inductionHypothesis =>
        rw [List.foldl_cons, List.foldl_cons, inductionHypothesis (text ++ line ++ "\n"),
          inductionHypothesis ("" ++ line ++ "\n")]
        simp [String.append_assoc]
  unfold textOf
  rw [Array.foldl_append, ← more.foldl_toList, behind, more.foldl_toList]

namespace Session

/-- Output never influences execution: on a sink that takes no lines a session says the same about
each request, also that it does not end, and leaves the same behind. On any other sink, all that is
done has been done with exactly the lines printed of the print statements before it whose operands
had values; and each request, however it ends, prints one line with a newline for each of its own. -/
theorem output_never_influences (session : Session) (requests : List Request) :
    (session.setOutput .broken).serveAll requests =
      ((session.serveAll requests).1, (session.serveAll requests).2.setOutput .broken) ∧
    ∀ lines, let working := session.setOutput (.open lines)
      (∀ point, point ∈ working.course requests ↔ Visited (working.Starts requests) point) ∧
      (∀ index : Fin (working.course requests).length,
        ((working.course requests).get index).left.output = .open (lines ++
          (((working.course requests).take (index + 1)).filterMap Point.line?).toArray)) ∧
      ∀ request, let before := (working.serveAll requests).2
        let after := (before.serve request).2
        ∃ earlier, before.machine.output = .open earlier ∧
          after.machine.output = .open (earlier ++ (before.printed [request]).toArray) ∧
          Output.textOf after.machine.output.lines = Output.textOf before.machine.output.lines ++
            Output.textOf (before.printed [request]).toArray := by
  constructor
  · rw [serveAll_setOutput, Output.printAll_broken]
  intro lines working
  refine ⟨fun point => mem_course_iff, fun index => ?_, fun request => ?_⟩
  · rw [left_output]
    exact Output.printAll_open _ _
  · intro before after
    have earlier : before.machine.output =
        .open (lines ++ (working.printed requests).toArray) :=
      (serveAll_output working requests).trans (Output.printAll_open _ _)
    have later : after.machine.output = .open (lines ++ (working.printed requests).toArray ++
        (before.printed [request]).toArray) := by
      rw [serve_output, earlier, Output.printAll_open]
    refine ⟨_, earlier, later, ?_⟩
    rw [earlier, later]
    exact Output.textOf_append _ _

end Session

end Lox
