import Lox.Proofs.Receiver.Objects

/-!
Contract: evaluation keeps machines intact, and every point has its receiver.

Owns:
- `Point.Staged`: at a point, code is run for a receiver to which the current frame leads;
- `Point.Keeps`: what is done at a point leaves the machine intact;
- that staged points come to staged points, and that what is done at a staged point keeps the
  machine intact, by induction on the rank of the point;
- that the machine which a part leaves goes on to the one which the whole leaves.
-/

namespace Lox.Evaluation

section Staged

variable (units : Point → Prop)

/-- What is to be done looks for `this` at a distance, and its values are known. -/
def Task.Fits (machine : Machine) (distance : Option Nat) : Task → Prop
  | .expression _ value => value.ThisAt machine.Distances distance
  | .expressions _ values => Expression.AllThisAt machine.Distances distance values
  | .assignment _ _ name value => name.Plain ∧ ValueKnown units machine value
  | .application callee _ arguments =>
      ValueKnown units machine callee ∧ ∀ argument ∈ arguments, ValueKnown units machine argument
  | .call function _ arguments =>
      (∃ receiver, FunctionKnown units machine function receiver) ∧
        ∀ argument ∈ arguments, ValueKnown units machine argument
  | .statement part => part.ThisAt machine.Distances distance
  | .statements parts => Statement.AllThisAt machine.Distances distance parts
  | .rounds condition body _ =>
      condition.ThisAt machine.Distances distance ∧ body.ThisAt machine.Distances distance

/-- The code at a point is run for a receiver, and looks for it where it is. -/
def Point.StagedFor (point : Point) (receiver : Option Nat) : Prop :=
  RunsFor units point receiver ∧ ∃ distance,
    Scene units point.machine distance receiver ∧ point.task.Fits units point.machine distance

/-- The same for some receiver. -/
abbrev Point.Staged (point : Point) : Prop :=
  ∃ receiver, point.StagedFor units receiver

/-- What is done at a point leaves the machine intact. -/
def Point.Keeps (point : Point) : Prop :=
  match point.task with
  | .expression _ value =>
      Ends units point.machine (ValueKnown units)
        (evaluate (invoke point.fuel) value point.machine)
  | .expressions _ values =>
      Ends units point.machine (fun later values => ∀ value ∈ values, ValueKnown units later value)
        (evaluateAll (invoke point.fuel) values point.machine)
  | .assignment _ id name value =>
      Ends units point.machine anything (assign id name value point.machine)
  | .application callee paren arguments =>
      Ends units point.machine (ValueKnown units)
        (callValue (invoke point.fuel) callee paren arguments point.machine)
  | .call function paren arguments =>
      Ends units point.machine (ValueKnown units)
        (invoke point.fuel function paren arguments point.machine)
  | .statement part =>
      Ends units point.machine (CompletionKnown units)
        (execute (invoke point.fuel) point.fuel part point.machine)
  | .statements parts =>
      Ends units point.machine (CompletionKnown units)
        (executeAll (invoke point.fuel) point.fuel parts point.machine)
  | .rounds condition body left =>
      Ends units point.machine (CompletionKnown units)
        (repeatWhile (evaluate (invoke point.fuel) condition)
          (execute (invoke point.fuel) point.fuel body) left point.machine)

end Staged

variable {units : Point → Prop}

theorem Point.Keeps.left {point : Point} (keeps : point.Keeps units) :
    After units point.machine point.left := by
  obtain ⟨fuel, task, machine⟩ := point
  cases task <;> exact Ends.left keeps

/-! ### Parts of what is done -/

/-- The condition and the first branch of a conditional, with another branch or without. -/
theorem conditional_thisAt {known : Scope.Distances} {distance : Option Nat}
    {condition : Expression} {thenBranch : Statement} {elseBranch : Option Statement}
    (fits : (Statement.conditional condition thenBranch elseBranch).ThisAt known distance) :
    condition.ThisAt known distance ∧ thenBranch.ThisAt known distance := by
  cases elseBranch with
  | none => exact fits
  | some => exact ⟨fits.1, fits.2.1⟩

/-- The body of a function is run for the receiver for which the function was made. -/
theorem body_staged {fuel : Nat} {function : FunctionValue} {paren : Token}
    {arguments : List Value} {machine later : Machine} {frame : Nat} {caller receiver : Option Nat}
    (runs : RunsFor units ⟨fuel + 1, .call function paren arguments, machine⟩ caller)
    (intact : Intact units machine) (known : FunctionKnown units machine function receiver)
    (others : ∀ argument ∈ arguments, ValueKnown units machine argument)
    (shallow : machine.depth < maxDepth)
    (opened : openFrame function arguments machine = .ok frame later) :
    Point.StagedFor units ⟨fuel, .statements function.declaration.body,
      { later with depth := later.depth + 1, environment := frame }⟩ receiver := by
  obtain ⟨distance, seen, code⟩ := known.code
  obtain ⟨plain, body⟩ := functionThisAt_iff.mp code
  obtain ⟨after, inside, clear, around⟩ :=
    (openFrame_leads intact known.closed plain others).ok opened
  have leads := Frames.Receiver.outer clear around (seen.keep after.kept.frames known.closed)
  refine ⟨.body runs (.body shallow opened) known.made, distance.map (· + 1),
    ⟨after.intact.congr rfl rfl fun _ _ same => same, inside, clear, leads⟩, ?_⟩
  exact Statement.AllThisAt.mono after.kept.locals _ body

/-- A part is staged for the same receiver, if what is done before it keeps the machine intact. -/
theorem staged_part {point next : Point} {receiver : Option Nat} (demands : Demands point next)
    (same : point.opens = 0) (staged : point.StagedFor units receiver)
    (earlier : ∀ other, Demands point other → other.Staged units → other.Keeps units) :
    next.StagedFor units receiver := by
  obtain ⟨runs, distance, scene, fits⟩ := staged
  have part : RunsFor units next receiver := .part runs demands same
  have before {task : Task} {machine : Machine}
      (demands : Demands point ⟨point.fuel, task, machine⟩)
      (scene : Scene units machine distance receiver) (fits : task.Fits units machine distance) :
      Point.Keeps units ⟨point.fuel, task, machine⟩ :=
    earlier _ demands ⟨receiver, .part runs demands same, distance, scene, fits⟩
  cases demands with
  | grouping | operand | object | expression | printed | returned | loop =>
      exact ⟨part, distance, scene, fits⟩
  | leftOperand | leftCondition | callee | changedObject | firstExpression | loopCondition
  | firstStatement =>
      exact ⟨part, distance, scene, fits.1⟩
  | assignedValue | initialValue => exact ⟨part, distance, scene, fits.2⟩
  | condition => exact ⟨part, distance, scene, (conditional_thisAt fits).1⟩
  | rightOperand done =>
      obtain ⟨after, _⟩ := Ends.ok (before .leftOperand scene fits.1) done
      exact ⟨part, distance, scene.behind after,
        Expression.ThisAt.mono after.kept.locals _ fits.2⟩
  | rightCondition done =>
      obtain ⟨after, _⟩ := Ends.ok (before .leftCondition scene fits.1) done
      exact ⟨part, distance, scene.behind after,
        Expression.ThisAt.mono after.kept.locals _ fits.2⟩
  | assignment done =>
      obtain ⟨after, known⟩ := Ends.ok (before .assignedValue scene fits.2) done
      exact ⟨part, distance, scene.behind after, fits.1, known⟩
  | arguments done =>
      obtain ⟨after, _⟩ := Ends.ok (before .callee scene fits.1) done
      exact ⟨part, distance, scene.behind after,
        Expression.AllThisAt.mono after.kept.locals _ fits.2⟩
  | application called argued =>
      obtain ⟨after, known⟩ := Ends.ok (before .callee scene fits.1) called
      have arguments := before (.arguments called) (scene.behind after)
        (Expression.AllThisAt.mono after.kept.locals _ fits.2)
      obtain ⟨further, others⟩ := Ends.ok arguments argued
      exact ⟨part, distance, (scene.behind after).behind further,
        known.later further.kept, others⟩
  | fieldValue done =>
      obtain ⟨after, _⟩ := Ends.ok (before .changedObject scene fits.1) done
      exact ⟨part, distance, scene.behind after,
        Expression.ThisAt.mono after.kept.locals _ fits.2⟩
  | nextExpressions done =>
      obtain ⟨after, _⟩ := Ends.ok (before .firstExpression scene fits.1) done
      exact ⟨part, distance, scene.behind after,
        Expression.AllThisAt.mono after.kept.locals _ fits.2⟩
  | function => exact ⟨part, distance, scene, fits⟩
  | initializer matching present made binds =>
      obtain ⟨_, after, known⟩ := initializer_known runs.visited scene.intact fits.1 matching
        present made binds
      exact ⟨part, distance, scene.behind after, ⟨_, known⟩,
        fun argument member => (fits.2 argument member).later after.kept⟩
  | body => cases same
  | block => exact ⟨part, distance.map (· + 1), scene.opened, fits⟩
  | thenBranch done truthy =>
      obtain ⟨after, _⟩ := Ends.ok (before .condition scene (conditional_thisAt fits).1) done
      exact ⟨part, distance, scene.behind after,
        Statement.ThisAt.mono after.kept.locals _ (conditional_thisAt fits).2⟩
  | elseBranch done truthy =>
      obtain ⟨after, _⟩ := Ends.ok (before .condition scene fits.1) done
      exact ⟨part, distance, scene.behind after,
        Statement.ThisAt.mono after.kept.locals _ fits.2.2⟩
  | loopBody done truthy =>
      obtain ⟨after, _⟩ := Ends.ok (before .loopCondition scene fits.1) done
      exact ⟨part, distance, scene.behind after,
        Statement.ThisAt.mono after.kept.locals _ fits.2⟩
  | nextRound evaluated truthy done =>
      obtain ⟨after, _⟩ := Ends.ok (before .loopCondition scene fits.1) evaluated
      have body := before (.loopBody evaluated truthy) (scene.behind after)
        (Statement.ThisAt.mono after.kept.locals _ fits.2)
      obtain ⟨further, _⟩ := Ends.ok body done
      have grow := (after.kept.trans further.kept).locals
      exact ⟨part, distance, (scene.behind after).behind further,
        Expression.ThisAt.mono grow _ fits.1, Statement.ThisAt.mono grow _ fits.2⟩
  | nextStatements done =>
      obtain ⟨after, _⟩ := Ends.ok (before .firstStatement scene fits.1) done
      exact ⟨part, distance, scene.behind after,
        Statement.AllThisAt.mono after.kept.locals _ fits.2⟩

/-- Staged points come to staged points. -/
theorem staged_of_demands {point next : Point} (demands : Demands point next)
    (staged : point.Staged units)
    (earlier : ∀ other, Demands point other → other.Staged units → other.Keeps units) :
    next.Staged units := by
  obtain ⟨receiver, staged⟩ := staged
  by_cases same : point.opens = 0
  · exact ⟨receiver, staged_part demands same staged earlier⟩
  · obtain ⟨runs, _, scene, fits⟩ := staged
    cases demands with
    | body shallow opened =>
        obtain ⟨⟨made, known⟩, others⟩ := fits
        exact ⟨made, body_staged runs scene.intact known others shallow opened⟩
    | _ => exact absurd rfl same

/-! ### The whole of what is done -/

section Whole

variable {fuel : Nat} {machine : Machine} {distance receiver : Option Nat}
  {initialized : Option Token}

/-- What is done at a point keeps the machine intact, and what its parts leave goes on to what it
leaves. -/
def Point.Complete (units : Point → Prop) (point : Point) : Prop :=
  point.Keeps units ∧ ∀ next, Demands point next → Kept next.left point.left

/-- What is done at the parts of a point keeps the machine intact. -/
abbrev Point.PartsKeep (units : Point → Prop) (point : Point) : Prop :=
  ∀ next, Demands point next → next.Keeps units

theorem literal_known (literal : Literal) : ValueKnown units machine literal.toValue := by
  cases literal <;> trivial

theorem expression_complete (scene : Scene units machine distance receiver) (value : Expression)
    (visited : Visited units ⟨fuel, .expression initialized value, machine⟩)
    (parts : Point.PartsKeep units ⟨fuel, .expression initialized value, machine⟩) :
    Point.Complete units ⟨fuel, .expression initialized value, machine⟩ := by
  cases value with
  | literal _ value =>
      refine ⟨⟨.refl scene.intact, literal_known value⟩, fun next demands => ?_⟩
      cases demands
  | grouping _ inner =>
      have whole := parts _ .grouping
      refine ⟨whole, fun next demands => ?_⟩
      cases demands
      exact .refl _
  | unary _ operator operand =>
      have whole := Ends.goes (parts _ .operand) fun value later _ after _ =>
        (applyUnary_yields operator value).known after.intact
      refine ⟨whole.1, fun next demands => ?_⟩
      cases demands
      exact whole.2
  | binary _ left operator right =>
      have second {value later} (done : evaluate (invoke fuel) left machine = .ok value later) :=
        Ends.goes (parts _ (.rightOperand done)) fun other last _ after _ =>
          (applyBinary_yields operator value other).known after.intact
      have whole := Ends.goes (parts _ .leftOperand) fun _ _ done _ _ => (second done).1
      refine ⟨whole.1, fun next demands => ?_⟩
      cases demands with
      | leftOperand => exact whole.2
      | rightOperand done => exact kept_of_ok done (second done).2
  | logical _ left operator right =>
      have second {value later} (done : evaluate (invoke fuel) left machine = .ok value later) :
          Ends units later (ValueKnown units)
            ((if value.isTruthy = operator.isKeyword .or then pure value
              else evaluate (invoke fuel) right : Eval Value) later) := by
        obtain ⟨after, known⟩ := Ends.ok (parts _ .leftCondition) done
        by_cases decided : value.isTruthy = operator.isKeyword .or
        · rw [if_pos decided]
          exact ⟨.refl after.intact, known⟩
        · rw [if_neg decided]
          exact parts _ (.rightCondition done decided)
      have whole := Ends.goes (parts _ .leftCondition) fun _ _ done _ _ => second done
      refine ⟨whole.1, fun next demands => ?_⟩
      cases demands with
      | leftCondition => exact whole.2
      | rightCondition done undecided =>
          refine kept_of_ok done ?_
          rw [if_neg undecided]
          exact .refl _
  | «variable» id name =>
      refine ⟨lookUp_ends scene.intact id name, fun next demands => ?_⟩
      cases demands
  | this id keyword =>
      refine ⟨lookUp_ends scene.intact id keyword, fun next demands => ?_⟩
      cases demands
  | assign id name value =>
      have second {found later} (done : evaluate (invoke fuel) value machine = .ok found later) :
          Goes units later (ValueKnown units) (assign id name found later)
            ((assign id name found >>= fun _ => pure found) later) :=
        Ends.goes (parts _ (.assignment done)) fun _ last _ after _ =>
          ⟨.refl after.intact, (Ends.ok (parts _ .assignedValue) done).2.later after.kept⟩
      have whole := Ends.goes (parts _ .assignedValue) fun _ _ done _ _ => (second done).1
      refine ⟨whole.1, fun next demands => ?_⟩
      cases demands with
      | assignedValue => exact whole.2
      | assignment done => exact kept_of_ok done (second done).2
  | call _ callee paren arguments =>
      have third {value middle values later}
          (called : evaluate (invoke fuel) callee machine = .ok value middle)
          (argued : evaluateAll (invoke fuel) arguments middle = .ok values later) :=
        parts _ (.application called argued)
      have second {value middle}
          (called : evaluate (invoke fuel) callee machine = .ok value middle) :=
        Ends.goes (parts _ (.arguments called)) fun _ _ argued _ _ => third called argued
      have whole := Ends.goes (parts _ .callee) fun _ _ called _ _ => (second called).1
      refine ⟨whole.1, fun next demands => ?_⟩
      cases demands with
      | callee => exact whole.2
      | arguments called => exact kept_of_ok called (second called).2
      | application called argued => exact kept_of_ok called (kept_of_ok argued (.refl _))
  | get node object name =>
      have whole : Goes units machine (ValueKnown units) (evaluate (invoke fuel) object machine)
          (evaluate (invoke fuel) (.get node object name) machine) :=
        Ends.goes (parts _ .object) fun value later done after _ => by
          cases value with
          | «instance» id =>
              exact property_ends after.intact fun _ _ _ last present absent has bound =>
                ⟨_, later, last, visited, .property done present absent has, bound⟩
          | _ => exact After.refl after.intact
      refine ⟨whole.1, fun next demands => ?_⟩
      cases demands
      exact whole.2
  | set node object name value =>
      have second {target later}
          (done : evaluate (invoke fuel) object machine = .ok (.instance target) later) :=
        Ends.goes (parts _ (.fieldValue done)) fun found last _ after known =>
          (setField_ends after.intact target name known).bind fun _ _ _ further _ =>
            (show Ends units _ (ValueKnown units) ((pure found : Eval Value) _) from
              ⟨.refl further.intact, known.later further.kept⟩)
      have whole : Goes units machine (ValueKnown units) (evaluate (invoke fuel) object machine)
          (evaluate (invoke fuel) (.set node object name value) machine) :=
        Ends.goes (parts _ .changedObject) fun target later done after _ => by
          cases target with
          | «instance» target => exact (second done).1
          | _ => exact After.refl after.intact
      refine ⟨whole.1, fun next demands => ?_⟩
      cases demands with
      | changedObject => exact whole.2
      | fieldValue done => exact kept_of_ok done (second done).2

theorem expressions_complete (intact : Intact units machine) (values : List Expression)
    (parts : Point.PartsKeep units ⟨fuel, .expressions initialized values, machine⟩) :
    Point.Complete units ⟨fuel, .expressions initialized values, machine⟩ := by
  cases values with
  | nil =>
      refine ⟨⟨.refl intact, nofun⟩, fun next demands => ?_⟩
      cases demands
  | cons value rest =>
      have second {found later} (done : evaluate (invoke fuel) value machine = .ok found later) :=
        Ends.goes (parts _ (.nextExpressions done)) fun others last _ after known =>
          (show Ends units last (fun last values => ∀ value ∈ values, ValueKnown units last value)
            ((pure (found :: others) : Eval (List Value)) last) from
            ⟨.refl after.intact, List.forall_mem_cons.mpr
              ⟨(Ends.ok (parts _ .firstExpression) done).2.later after.kept, known⟩⟩)
      have whole := Ends.goes (parts _ .firstExpression) fun _ _ done _ _ => (second done).1
      refine ⟨whole.1, fun next demands => ?_⟩
      cases demands with
      | firstExpression => exact whole.2
      | nextExpressions done => exact kept_of_ok done (second done).2

theorem application_complete {callee : Value} {paren : Token} {arguments : List Value}
    (visited : Visited units ⟨fuel, .application callee paren arguments, machine⟩)
    (intact : Intact units machine) (known : ValueKnown units machine callee)
    (parts : Point.PartsKeep units ⟨fuel, .application callee paren arguments, machine⟩) :
    Point.Complete units ⟨fuel, .application callee paren arguments, machine⟩ := by
  cases callee with
  | native function =>
      cases function with
      | clock =>
          have counted := (checkArity_yields paren Native.clock.arity arguments.length).ends intact
          refine ⟨counted.bind ?_, fun next demands => ?_⟩
          · rintro _ _ _ after ⟨rfl, _⟩
            exact (readClock_ends after.intact).bind fun _ _ _ after _ =>
              ⟨.refl after.intact, trivial⟩
          · cases demands
  | function function =>
      have counted := (checkArity_yields paren function.arity arguments.length).ends intact
      refine ⟨counted.bind ?_, fun next demands => ?_⟩
      · rintro _ later done after ⟨rfl, _⟩
        exact parts _ (.function (checkArity_ok done).1)
      · cases demands with
        | function matching => exact kept_of_ok (checkArity_of_eq paren matching _) (.refl _)
  | «class» owner =>
      have initial {method bound id middle later} (matching : owner.arity = arguments.length)
          (present : owner.initializer? = some method)
          (made : makeInstance owner machine = .ok id middle)
          (binds : bindMethod method id middle = .ok bound later) :=
        Ends.goes (parts _ (.initializer matching present made binds)) fun _ last _ after _ =>
          (show Ends units last (ValueKnown units) ((pure (.instance id) : Eval Value) last) from
            ⟨.refl after.intact, trivial⟩)
      have counted := (checkArity_yields paren owner.arity arguments.length).ends intact
      constructor
      · refine counted.bind ?_
        rintro _ later checked after ⟨rfl, _⟩
        refine (makeInstance_ends intact known).bind fun id middle made after _ => ?_
        cases present : owner.initializer? with
        | none => exact ⟨.refl after.intact, trivial⟩
        | some method =>
            have bound : Ends units middle anything (bindMethod method id middle) :=
              (bindMethod_ends after.intact ((known _ method present).later after.kept)
                fun _ last binds => ⟨_, middle, last, visited,
                  .initializer (checkArity_ok checked).1 present made, binds⟩).weaken
                fun _ _ _ _ => trivial
            exact bound.bind fun bound later binds _ _ =>
              (initial (checkArity_ok checked).1 present made binds).1
      · intro next demands
        cases demands with
        | initializer matching present made binds =>
            refine kept_of_ok (checkArity_of_eq paren matching _) (kept_of_ok made ?_)
            rw [present]
            exact kept_of_ok binds (initial matching present made binds).2
  | _ =>
      refine ⟨After.refl intact, fun next demands => ?_⟩
      cases demands

/-- The body of a function is run one call deeper, in a frame of its own. -/
theorem call_complete {function : FunctionValue} {paren : Token} {arguments : List Value}
    (intact : Intact units machine)
    (fits : Task.Fits units machine none (.call function paren arguments))
    (parts : Point.PartsKeep units ⟨fuel, .call function paren arguments, machine⟩) :
    Point.Complete units ⟨fuel, .call function paren arguments, machine⟩ := by
  cases fuel with
  | zero =>
      refine ⟨After.refl intact, fun next demands => ?_⟩
      cases demands
  | succ fuel =>
      by_cases shallow : machine.depth < maxDepth
      · obtain ⟨⟨receiver, known⟩, others⟩ := fits
        obtain ⟨distance, _, code⟩ := known.code
        have opening := openFrame_leads intact known.closed (functionThisAt_iff.mp code).1 others
        have body {frame later} (opened : openFrame function arguments machine = .ok frame later) :
            Goes units later (CompletionKnown units)
              (executeAll (invoke fuel) fuel function.declaration.body
                { later with depth := later.depth + 1, environment := frame })
              (deeper (within frame (executeAll (invoke fuel) fuel function.declaration.body))
                later) :=
          deeper_within_goes (parts _ (.body shallow opened))
        have result {frame later}
            (opened : openFrame function arguments machine = .ok frame later) :=
          (body opened).1.goes fun _ last _ after known =>
            (callResult_ends after.intact known :
              Ends units last (ValueKnown units) (callResult function _ last))
        constructor
        · show Ends units machine _ (callFunction _ function paren arguments machine)
          rw [callFunction_of_shallow _ _ _ _ shallow]
          exact opening.bind fun frame later opened _ _ => (result opened).1
        · intro next demands
          cases demands with
          | body _ opened =>
              show Kept _ (final (callFunction _ function paren arguments machine))
              rw [callFunction_of_shallow _ _ _ _ shallow]
              exact kept_of_ok opened ((body opened).2.trans (result opened).2)
      · have refused := callFunction_of_deep (executeAll (invoke fuel) fuel) function paren
          arguments (Nat.le_of_not_lt shallow)
        constructor
        · show Ends units machine _ (callFunction _ function paren arguments machine)
          rw [refused]
          exact After.refl intact
        · intro next demands
          cases demands with
          | body less => exact absurd less shallow

theorem statement_complete (scene : Scene units machine distance receiver) (part : Statement)
    (runs : RunsFor units ⟨fuel, .statement part, machine⟩ receiver)
    (fits : part.ThisAt machine.Distances distance)
    (parts : Point.PartsKeep units ⟨fuel, .statement part, machine⟩) :
    Point.Complete units ⟨fuel, .statement part, machine⟩ := by
  have declares {name : Token} {made : Eval Value}
      (ends : Ends units machine (ValueKnown units) (made machine)) (plain : name.Plain) :
      Ends units machine (CompletionKnown units)
        (((made >>= define name.lexeme) >>= fun _ => pure .normal : Eval Completion) machine) :=
    (ends.bind fun _ _ _ after known => define_ends (scene.behind after) plain known).bind
      fun _ _ _ after _ => ⟨.refl after.intact, trivial⟩
  cases part with
  | expression value =>
      have whole : Goes units machine (CompletionKnown units) (evaluate (invoke fuel) value machine)
          (execute (invoke fuel) fuel (.expression value) machine) :=
        Ends.goes (parts _ .expression) fun _ _ _ after _ => ⟨.refl after.intact, trivial⟩
      refine ⟨whole.1, fun next demands => ?_⟩
      cases demands
      exact whole.2
  | print value =>
      have whole : Goes units machine (CompletionKnown units) (evaluate (invoke fuel) value machine)
          (execute (invoke fuel) fuel (.print value) machine) :=
        Ends.goes (parts _ .printed) fun value _ _ after _ =>
          (printValue_ends after.intact value).bind fun _ _ _ after _ =>
            ⟨.refl after.intact, trivial⟩
      refine ⟨whole.1, fun next demands => ?_⟩
      cases demands
      exact whole.2
  | var name initializer =>
      have binds {value later} (after : After units machine later)
          (known : ValueKnown units later value) :
          Ends units later (CompletionKnown units)
            ((define name.lexeme value >>= fun _ => pure .normal) later) :=
        (define_ends (scene.behind after) fits.1 known).bind fun _ _ _ after _ =>
          ⟨.refl after.intact, trivial⟩
      cases initializer with
      | none =>
          refine ⟨binds (.refl scene.intact) trivial, fun next demands => ?_⟩
          cases demands
      | some value =>
          have whole : Goes units machine (CompletionKnown units)
              (evaluate (invoke fuel) value machine)
              (execute (invoke fuel) fuel (.var name (some value)) machine) :=
            Ends.goes (parts _ .initialValue) fun _ _ _ after known => binds after known
          refine ⟨whole.1, fun next demands => ?_⟩
          cases demands
          exact whole.2
  | block statements =>
      have pushed : After units machine
          { machine with frames := machine.frames.push (some machine.environment) } :=
        ⟨scene.intact.push _, .ofFrames (.push _ _), rfl⟩
      have whole : Goes units
          { machine with frames := machine.frames.push (some machine.environment) }
          (CompletionKnown units)
          (executeAll (invoke fuel) fuel statements
            { machine with
              frames := machine.frames.push (some machine.environment)
              environment := machine.frames.size })
          (within machine.frames.size (executeAll (invoke fuel) fuel statements)
            { machine with frames := machine.frames.push (some machine.environment) }) :=
        within_goes (parts _ .block)
      refine ⟨Ends.since pushed whole.1, fun next demands => ?_⟩
      cases demands
      exact whole.2
  | conditional condition thenBranch elseBranch =>
      cases elseBranch with
      | none =>
          have rest {value later}
              (done : evaluate (invoke fuel) condition machine = .ok value later) :
              Ends units later (CompletionKnown units)
                ((if value.isTruthy then execute (invoke fuel) fuel thenBranch
                  else pure .normal : Eval Completion) later) := by
            by_cases truthy : value.isTruthy = true
            · rw [if_pos truthy]
              exact parts _ (.thenBranch done truthy)
            · rw [if_neg truthy]
              exact ⟨.refl (Ends.ok (parts _ .condition) done).1.intact, trivial⟩
          have whole := Ends.goes (parts _ .condition) fun _ _ done _ _ => rest done
          refine ⟨whole.1, fun next demands => ?_⟩
          cases demands with
          | condition => exact whole.2
          | thenBranch done truthy =>
              refine kept_of_ok done ?_
              rw [if_pos truthy]
              exact .refl _
      | some elseBranch =>
          have rest {value later}
              (done : evaluate (invoke fuel) condition machine = .ok value later) :
              Ends units later (CompletionKnown units)
                ((if value.isTruthy then execute (invoke fuel) fuel thenBranch
                  else execute (invoke fuel) fuel elseBranch : Eval Completion) later) := by
            by_cases truthy : value.isTruthy = true
            · rw [if_pos truthy]
              exact parts _ (.thenBranch done truthy)
            · rw [if_neg truthy]
              exact parts _ (.elseBranch done (Bool.eq_false_iff.mpr truthy))
          have whole := Ends.goes (parts _ .condition) fun _ _ done _ _ => rest done
          refine ⟨whole.1, fun next demands => ?_⟩
          cases demands with
          | condition => exact whole.2
          | thenBranch done truthy =>
              refine kept_of_ok done ?_
              rw [if_pos truthy]
              exact .refl _
          | elseBranch done falsy =>
              refine kept_of_ok done ?_
              rw [if_neg (Bool.eq_false_iff.mp falsy)]
              exact .refl _
  | loop condition body =>
      have whole := parts _ .loop
      refine ⟨whole, fun next demands => ?_⟩
      cases demands
      exact .refl _
  | function declaration =>
      refine ⟨?_, fun next demands => ?_⟩
      · show Ends units machine _ (execute (invoke fuel) fuel (.function declaration) machine)
        rw [execute_function]
        exact declares (functionValue_ends runs scene fits.2) fits.1
      · cases demands
  | «return» keyword value =>
      cases value with
      | none =>
          refine ⟨⟨.refl scene.intact, trivial⟩, fun next demands => ?_⟩
          cases demands
      | some value =>
          have whole : Goes units machine (CompletionKnown units)
              (evaluate (invoke fuel) value machine)
              (execute (invoke fuel) fuel (.return keyword (some value)) machine) :=
            Ends.goes (parts _ .returned) fun _ _ _ after known => ⟨.refl after.intact, known⟩
          refine ⟨whole.1, fun next demands => ?_⟩
          cases demands
          exact whole.2
  | «class» name methods =>
      refine ⟨?_, fun next demands => ?_⟩
      · show Ends units machine _ (execute (invoke fuel) fuel (.class name methods) machine)
        rw [execute_class _ _ name methods scene.inside]
        exact declares (classValue_ends scene.intact scene.inside fits.2) fits.1
      · cases demands

theorem statements_complete (intact : Intact units machine) (statements : List Statement)
    (parts : Point.PartsKeep units ⟨fuel, .statements statements, machine⟩) :
    Point.Complete units ⟨fuel, .statements statements, machine⟩ := by
  cases statements with
  | nil =>
      refine ⟨⟨.refl intact, trivial⟩, fun next demands => ?_⟩
      cases demands
  | cons statement rest =>
      have whole : Goes units machine (CompletionKnown units)
          (execute (invoke fuel) fuel statement machine)
          (executeAll (invoke fuel) fuel (statement :: rest) machine) :=
        Ends.goes (parts _ .firstStatement) fun completion _ done after known => by
          cases completion with
          | normal => exact parts _ (.nextStatements done)
          | returned value => exact ⟨.refl after.intact, known⟩
      refine ⟨whole.1, fun next demands => ?_⟩
      cases demands with
      | firstStatement => exact whole.2
      | nextStatements done => exact kept_of_ok done (.refl _)

theorem rounds_complete (intact : Intact units machine) {condition : Expression}
    {body : Statement} {left : Nat}
    (parts : Point.PartsKeep units ⟨fuel, .rounds condition body left, machine⟩) :
    Point.Complete units ⟨fuel, .rounds condition body left, machine⟩ := by
  cases left with
  | zero =>
      refine ⟨After.refl intact, fun next demands => ?_⟩
      cases demands
  | succ left =>
      have second {next : Completion → Eval Completion}
          (normal : next .normal = repeatWhile (evaluate (invoke fuel) condition)
            (execute (invoke fuel) fuel body) left)
          (returned : ∀ value, next (.returned value) = pure (.returned value)) {value later}
          (done : evaluate (invoke fuel) condition machine = .ok value later)
          (truthy : value.isTruthy = true) :
          Goes units later (CompletionKnown units) (execute (invoke fuel) fuel body later)
            ((execute (invoke fuel) fuel body >>= next) later) :=
        Ends.goes (parts _ (.loopBody done truthy)) fun completion _ round after known => by
          cases completion with
          | normal =>
              rw [normal]
              exact parts _ (.nextRound done truthy round)
          | returned value =>
              rw [returned]
              exact ⟨.refl after.intact, known⟩
      have whole : Goes units machine (CompletionKnown units)
          (evaluate (invoke fuel) condition machine)
          (repeatWhile (evaluate (invoke fuel) condition) (execute (invoke fuel) fuel body)
            (left + 1) machine) :=
        Ends.goes (parts _ .loopCondition) fun value later done after _ => by
          by_cases truthy : value.isTruthy = true
          · rw [if_pos truthy]
            exact (second (by rfl) (fun _ => by rfl) done truthy).1
          · rw [if_neg truthy]
            exact ⟨.refl after.intact, trivial⟩
      refine ⟨whole.1, fun next demands => ?_⟩
      cases demands with
      | loopCondition => exact whole.2
      | loopBody done truthy =>
          refine kept_of_ok done ?_
          rw [if_pos truthy]
          exact (second (by rfl) (fun _ => by rfl) done truthy).2
      | nextRound evaluated truthy done =>
          refine kept_of_ok evaluated ?_
          rw [if_pos truthy]
          exact kept_of_ok done (.refl _)

end Whole

/-- If the parts of what is done keep the machine intact, so does the whole. -/
theorem complete_of_parts {point : Point} (staged : point.Staged units)
    (parts : Point.PartsKeep units point) : point.Complete units := by
  obtain ⟨receiver, runs, distance, scene, fits⟩ := staged
  obtain ⟨fuel, task, machine⟩ := point
  cases task with
  | expression _ value => exact expression_complete scene value runs.visited parts
  | expressions _ values => exact expressions_complete scene.intact values parts
  | assignment _ id name value =>
      refine ⟨assign_ends scene.intact id fits.1 fits.2, fun next demands => ?_⟩
      cases demands
  | application callee paren arguments =>
      exact application_complete runs.visited scene.intact fits.1 parts
  | call function paren arguments => exact call_complete scene.intact fits parts
  | statement part => exact statement_complete scene part runs fits parts
  | statements parts => exact statements_complete scene.intact _ ‹_›
  | rounds condition body left => exact rounds_complete scene.intact parts

/-- What is done at a staged point keeps the machine intact, and so do its parts. By induction on
the rank of the point. -/
theorem Point.Staged.complete {point : Point} (staged : point.Staged units) :
    point.Complete units :=
  have part (next : Point) (_ : Demands point next) (staged : next.Staged units) :
      next.Keeps units := (Point.Staged.complete staged).1
  complete_of_parts staged fun next demands =>
    part next demands (staged_of_demands demands staged part)
termination_by point.rank
decreasing_by exact Demands.rank_lt ‹_›


end Lox.Evaluation
