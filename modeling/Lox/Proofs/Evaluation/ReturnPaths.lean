import Lox.Proofs.Evaluation.Stack

/-!
Contract: the way of a returned value from its `return` to a call.

Owns:
- `Point.Raises` and `Point.Returns`: a `return` gives a value, and what is to be done at a point
  ends with one;
- that what a part returns is returned by the whole, up to the call whose body it is in, and that
  whatever is returned has been raised in a part;
- that the innermost call around a `return` ends, and what it yields;
- `Executed`: statements one after another, and that running a program is executing them in order.

Does not own: which statements return.
-/

namespace Lox.Evaluation

/-- At a point a `return` is executed, and its value has been computed. -/
def Point.Raises (point : Point) (value : Value) : Prop :=
  ∃ keyword expression final, point.task = .statement (.return keyword expression) ∧
    evaluateOptional (invoke point.fuel) expression point.machine = .ok value final

/-- The statements at a point end with a returned value. -/
def Point.Returns (point : Point) (value : Value) : Prop :=
  ∃ final, match point.task with
    | .statement part =>
        execute (invoke point.fuel) point.fuel part point.machine = .ok (.returned value) final
    | .statements parts =>
        executeAll (invoke point.fuel) point.fuel parts point.machine = .ok (.returned value) final
    | .rounds condition body left =>
        repeatWhile (evaluate (invoke point.fuel) condition)
          (execute (invoke point.fuel) point.fuel body) left point.machine =
            .ok (.returned value) final
    | .expression .. | .expressions .. | .assignment .. | .application .. | .call .. => False

theorem Point.Raises.returns {point : Point} {value : Value} (raises : point.Raises value) :
    point.Returns value := by
  obtain ⟨fuel, task, machine⟩ := point
  obtain ⟨keyword, expression, final, rfl, computed⟩ := raises
  exact ⟨final, bind_of_ok _ computed⟩

/-! ### From a part to the whole -/

/-- What a part returns is returned by the whole, which is no call. -/
theorem Demands.returns {point next : Point} {value : Value} (demands : Demands point next)
    (inside : point.opens = 0) (returns : next.Returns value) : point.Returns value := by
  cases demands with
  | body => cases inside
  | block =>
      obtain ⟨final, returned⟩ := returns
      exact ⟨_, within_of_ok returned⟩
  | @thenBranch _ _ _ _ elseBranch _ _ done truthy =>
      obtain ⟨final, returned⟩ := returns
      refine ⟨final, ?_⟩
      cases elseBranch <;>
      · refine (bind_of_ok _ done).trans ?_
        rw [if_pos truthy]
        exact returned
  | elseBranch done falsy =>
      obtain ⟨final, returned⟩ := returns
      refine ⟨final, (bind_of_ok _ done).trans ?_⟩
      rw [if_neg (Bool.not_eq_true _ ▸ falsy)]
      exact returned
  | loop => exact returns
  | loopBody done truthy =>
      obtain ⟨final, returned⟩ := returns
      refine ⟨final, (bind_of_ok _ done).trans ?_⟩
      rw [if_pos truthy]
      exact bind_of_ok _ returned
  | nextRound done truthy round =>
      obtain ⟨final, returned⟩ := returns
      refine ⟨final, (bind_of_ok _ done).trans ?_⟩
      rw [if_pos truthy]
      exact (bind_of_ok _ round).trans returned
  | firstStatement =>
      obtain ⟨final, returned⟩ := returns
      exact ⟨final, bind_of_ok _ returned⟩
  | nextStatements done =>
      obtain ⟨final, returned⟩ := returns
      exact ⟨final, (bind_of_ok _ done).trans returned⟩
  | _ =>
      obtain ⟨_, impossible⟩ := returns
      exact impossible.elim

/-- Nothing between a returned value and the body that it is in stops it. By induction on the way
from the body, with no call in between. -/
theorem Stacked.returns {start point : Point} {calls : Nat} {value : Value}
    (stacked : Stacked start calls point) (inside : calls = 0) (returns : point.Returns value) :
    start.Returns value := by
  induction stacked with
  | start => exact returns
  | part _ demands inductionHypothesis =>
      obtain ⟨before, here⟩ := Nat.add_eq_zero_iff.mp inside
      exact inductionHypothesis before (demands.returns here returns)

/-! ### From the whole to a part -/

/-- A value is raised at a point, or returned at one that it comes to. -/
def Handed (point : Point) (value : Value) : Prop :=
  point.Raises value ∨ ∃ next, Demands point next ∧ next.Returns value

section Back

variable {fuel : Nat} {machine : Machine} {value : Value}

theorem Handed.to {point next : Point} (demands : Demands point next)
    (returns : next.Returns value) : Handed point value :=
  Or.inr ⟨next, demands, returns⟩

theorem statement_handed (part : Statement)
    (returns : Point.Returns ⟨fuel, .statement part, machine⟩ value) :
    Handed ⟨fuel, .statement part, machine⟩ value := by
  obtain ⟨final, returned⟩ := returns
  dsimp only at returned
  cases part with
  | block statements =>
      have inner : within machine.frames.size (executeAll (invoke fuel) fuel statements)
          { machine with frames := machine.frames.push (some machine.environment) } =
            .ok (.returned value) final := returned
      obtain ⟨last, ended⟩ := within_ok inner
      exact .to .block ⟨last, ended⟩
  | conditional condition thenBranch elseBranch =>
      cases elseBranch with
      | none =>
          obtain ⟨tested, middle, done, rest⟩ := bind_ok returned
          by_cases truthy : tested.isTruthy = true
          · rw [if_pos truthy] at rest
            exact .to (.thenBranch done truthy) ⟨final, rest⟩
          · rw [if_neg truthy] at rest
            cases rest
      | some elseBranch =>
          obtain ⟨tested, middle, done, rest⟩ := bind_ok returned
          by_cases truthy : tested.isTruthy = true
          · rw [if_pos truthy] at rest
            exact .to (.thenBranch done truthy) ⟨final, rest⟩
          · rw [if_neg truthy] at rest
            exact .to (.elseBranch done (Bool.eq_false_iff.mpr truthy)) ⟨final, rest⟩
  | loop condition body => exact .to .loop ⟨final, returned⟩
  | «return» keyword expression =>
      obtain ⟨raised, last, computed, ended⟩ := bind_ok returned
      cases ended
      exact Or.inl ⟨keyword, expression, final, rfl, computed⟩
  | expression | «class» =>
      obtain ⟨_, _, _, ended⟩ := bind_ok returned
      cases ended
  | print | var =>
      obtain ⟨_, _, _, rest⟩ := bind_ok returned
      obtain ⟨_, _, _, ended⟩ := bind_ok rest
      cases ended
  | function declaration =>
      rw [execute_function] at returned
      obtain ⟨_, _, _, ended⟩ := bind_ok returned
      cases ended

theorem statements_handed (parts : List Statement)
    (returns : Point.Returns ⟨fuel, .statements parts, machine⟩ value) :
    Handed ⟨fuel, .statements parts, machine⟩ value := by
  obtain ⟨final, returned⟩ := returns
  dsimp only at returned
  cases parts with
  | nil => cases returned
  | cons part parts =>
      obtain ⟨completion, middle, done, rest⟩ := bind_ok returned
      cases completion with
      | normal => exact .to (.nextStatements done) ⟨final, rest⟩
      | returned found =>
          cases rest
          exact .to .firstStatement ⟨final, done⟩

theorem rounds_handed (condition : Expression) (body : Statement) (left : Nat)
    (returns : Point.Returns ⟨fuel, .rounds condition body left, machine⟩ value) :
    Handed ⟨fuel, .rounds condition body left, machine⟩ value := by
  obtain ⟨final, returned⟩ := returns
  dsimp only at returned
  cases left with
  | zero => cases returned
  | succ left =>
      obtain ⟨tested, middle, done, rest⟩ := bind_ok returned
      by_cases truthy : tested.isTruthy = true
      · rw [if_pos truthy] at rest
        obtain ⟨completion, later, ran, behind⟩ := bind_ok rest
        cases completion with
        | normal => exact .to (.nextRound done truthy ran) ⟨final, behind⟩
        | returned found =>
            cases behind
            exact .to (.loopBody done truthy) ⟨final, ran⟩
      · rw [if_neg truthy] at rest
        cases rest

end Back

theorem handed {point : Point} {value : Value} (returns : point.Returns value) :
    Handed point value := by
  obtain ⟨fuel, task, machine⟩ := point
  cases task with
  | statement part => exact statement_handed part returns
  | statements parts => exact statements_handed parts returns
  | rounds condition body left => exact rounds_handed condition body left returns
  | _ =>
      obtain ⟨_, impossible⟩ := returns
      exact impossible.elim

/-- Only statements return, and these are not calls. -/
theorem Point.Returns.opens {point : Point} {value : Value} (returns : point.Returns value) :
    point.opens = 0 := by
  obtain ⟨fuel, task, machine⟩ := point
  cases task with
  | call =>
      obtain ⟨_, impossible⟩ := returns
      exact impossible.elim
  | _ => rfl

/-- A way to a part, and a way on from there. -/
theorem Stacked.trans {start middle point : Point} {calls more : Nat}
    (stacked : Stacked start calls middle) (further : Stacked middle more point) :
    Stacked start (calls + more) point := by
  induction further with
  | start => exact stacked
  | part _ demands inductionHypothesis =>
      rw [← Nat.add_assoc]
      exact .part inductionHypothesis demands

/-- Whatever is returned has been raised in a part, with no call in between. By induction on the
rank of the point. -/
theorem raised {point : Point} {value : Value} (returns : point.Returns value) :
    ∃ last, Stacked point 0 last ∧ last.Raises value := by
  rcases handed returns with here | ⟨next, demands, later⟩
  · exact ⟨point, .start, here⟩
  · obtain ⟨last, stacked, raises⟩ := raised later
    have first : Stacked point point.opens next := Nat.zero_add point.opens ▸ .part .start demands
    rw [returns.opens] at first
    exact ⟨last, first.trans stacked, raises⟩
termination_by point.rank
decreasing_by exact demands.rank_lt

/-! ### The call around a return -/

theorem Stacked.reaches {start point : Point} {calls : Nat}
    (stacked : Stacked start calls point) : Reaches start point := by
  induction stacked with
  | start => exact .refl
  | part _ demands inductionHypothesis => exact inductionHypothesis.tail demands

/-- A part is in the body of an innermost call, unless no call is under way. By induction on the
way to the part: the last call on it is the innermost. -/
theorem Stacked.innermost {start point : Point} {calls : Nat}
    (stacked : Stacked start calls point) :
    calls = 0 ∨ ∃ fuel function paren arguments machine body,
      Reaches start ⟨fuel, .call function paren arguments, machine⟩ ∧
        Demands ⟨fuel, .call function paren arguments, machine⟩ body ∧ Stacked body 0 point := by
  induction stacked with
  | start => exact .inl rfl
  | @part calls point next before demands inductionHypothesis =>
      obtain ⟨fuel, task, machine⟩ := point
      cases task with
      | call function paren arguments =>
          exact .inr ⟨_, _, _, _, _, _, before.reaches, demands, .start⟩
      | _ =>
          rcases inductionHypothesis with none | ⟨_, _, _, _, _, body, reaches, enters, inside⟩
          · exact .inl none
          · exact .inr ⟨_, _, _, _, _, body, reaches, enters, inside.part demands⟩

/-- A call ends when its body has returned a value, and yields that value if its function is no
initializer. -/
theorem call_of_returns {fuel : Nat} {function : FunctionValue} {paren : Token}
    {arguments : List Value} {machine : Machine} {body : Point} {value : Value}
    (enters : Demands ⟨fuel, .call function paren arguments, machine⟩ body)
    (returns : body.Returns value) :
    ∃ result later, invoke fuel function paren arguments machine = .ok result later ∧
      (function.isInitializer = false → result = value) := by
  cases enters with
  | @body fuel _ _ _ _ frame opened shallow opens =>
      obtain ⟨final, returned⟩ := returns
      let run : Eval Completion := executeAll (invoke fuel) fuel function.declaration.body
      let entered : Machine := { opened with depth := opened.depth + 1 }
      have framed := @within_of_ok _ run frame entered _ _ returned
      obtain ⟨later, ran⟩ : ∃ later,
          deeper (within frame run) opened = .ok (.returned value) later :=
        ⟨_, @deeper_of_ok _ (within frame run) opened _ _ framed⟩
      have called : invoke (fuel + 1) function paren arguments machine =
          callResult function (.returned value) later := by
        show callFunction _ function paren arguments machine = _
        rw [callFunction_of_shallow _ _ _ _ shallow, bind_of_ok _ opens]
        exact bind_of_ok _ ran
      rw [called]
      unfold callResult
      cases function.isInitializer with
      | true => exact ⟨_, _, rfl, Bool.noConfusion⟩
      | false => exact ⟨_, _, rfl, fun _ => rfl⟩

/-! ### The statements of a program -/

/-- Statements are executed one after another, from one machine to another. -/
inductive Executed (fuel : Nat) : List Statement → Machine → Machine → Prop where
  | none {machine : Machine} : Executed fuel [] machine machine
  | next {statement : Statement} {rest : List Statement} {machine middle last : Machine} :
      execute (invoke fuel) fuel statement machine = .ok .normal middle →
      Executed fuel rest middle last → Executed fuel (statement :: rest) machine last

theorem executeAll_of_executed {fuel : Nat} {statements : List Statement} {machine last : Machine}
    (executed : Executed fuel statements machine last) :
    executeAll (invoke fuel) fuel statements machine = .ok .normal last := by
  induction executed with
  | none => rfl
  | next done _ inductionHypothesis => exact (bind_of_ok _ done).trans inductionHypothesis

/-- Statements end normally if all of them have been executed. By induction on the statements. -/
theorem executeAll_normal_iff {fuel : Nat} {statements : List Statement}
    {machine last : Machine} :
    executeAll (invoke fuel) fuel statements machine = .ok .normal last ↔
      Executed fuel statements machine last := by
  refine ⟨fun done => ?_, executeAll_of_executed⟩
  induction statements generalizing machine with
  | nil =>
      cases done
      exact .none
  | cons statement rest inductionHypothesis =>
      obtain ⟨completion, middle, first, behind⟩ := bind_ok done
      cases completion with
      | normal => exact .next first (inductionHypothesis behind)
      | returned value => cases behind

/-- Statements stop where one of them stops, behind those that have been executed. -/
theorem executeAll_error_iff {fuel : Nat} {statements : List Statement} {machine last : Machine}
    {halt : Halt} :
    executeAll (invoke fuel) fuel statements machine = .error halt last ↔
      ∃ front statement rest middle, statements = front ++ statement :: rest ∧
        Executed fuel front machine middle ∧
        execute (invoke fuel) fuel statement middle = .error halt last := by
  constructor
  · intro halts
    induction statements generalizing machine with
    | nil => cases halts
    | cons statement rest inductionHypothesis =>
        rcases bind_error halts with here | ⟨completion, middle, first, behind⟩
        · exact ⟨[], statement, rest, machine, rfl, .none, here⟩
        · cases completion with
          | normal =>
              obtain ⟨front, stopped, others, between, rfl, executed, stops⟩ :=
                inductionHypothesis behind
              exact ⟨statement :: front, stopped, others, between, rfl, .next first executed,
                stops⟩
          | returned value => cases behind
  · rintro ⟨front, statement, rest, middle, rfl, executed, stops⟩
    induction executed with
    | none => exact bind_of_error _ stops
    | next done _ inductionHypothesis =>
        exact (bind_of_ok _ done).trans (inductionHypothesis stops)

end Lox.Evaluation
