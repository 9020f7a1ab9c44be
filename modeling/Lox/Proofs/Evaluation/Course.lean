import Lox.Proofs.Evaluation.Origin

/-!
Contract: what is done, in the order in which it is done.

Owns:
- `Point.parts`: the points that a point comes to, in the order in which evaluation comes to them;
- `Point.course`: all that is done at a point, each part before the whole of which it is a part;
- that these are the points that `Demands` and `Reaches` tell of, and no others.
-/

namespace Lox.Evaluation

/-! ### Parts in order -/

/-- What follows a value. Nothing follows a halt. -/
def following {α β : Type} (result : EStateM.Result Halt Machine α)
    (next : α → Machine → List β) : List β :=
  match result with
  | .ok value later => next value later
  | .error _ _ => []

/-- Nothing more follows. -/
@[simp] theorem following_nil {α β : Type} (result : EStateM.Result Halt Machine α) :
    (following result fun _ _ => ([] : List β)) = [] := by
  cases result <;> rfl

theorem flatMap_following {α β γ : Type} (result : EStateM.Result Halt Machine α)
    (next : α → Machine → List β) (further : β → List γ) :
    (following result next).flatMap further =
      following result fun value later => (next value later).flatMap further := by
  cases result <;> rfl

theorem flatMap_ite {α β : Type} {condition : Prop} [Decidable condition] (items : List α)
    (further : α → List β) :
    (if condition then items else []).flatMap further =
      if condition then items.flatMap further else [] := by
  split <;> rfl

section Parts

variable (fuel : Nat) (machine : Machine)

/-- The parts of an expression, from left to right. -/
def expressionParts (initialized : Option Token) : Expression → List Point
  | .literal _ _ | .variable _ _ | .this _ _ => []
  | .grouping _ inner | .unary _ _ inner | .get _ inner _ =>
      [⟨fuel, .expression initialized inner, machine⟩]
  | .binary _ left _ right =>
      ⟨fuel, .expression initialized left, machine⟩ ::
        following (evaluate (invoke fuel) left machine) fun _ later =>
          [⟨fuel, .expression initialized right, later⟩]
  | .logical _ left operator right =>
      ⟨fuel, .expression initialized left, machine⟩ ::
        following (evaluate (invoke fuel) left machine) fun value later =>
          if value.isTruthy = operator.isKeyword .or then []
          else [⟨fuel, .expression initialized right, later⟩]
  | .assign id name value =>
      ⟨fuel, .expression initialized value, machine⟩ ::
        following (evaluate (invoke fuel) value machine) fun value later =>
          [⟨fuel, .assignment initialized id name value, later⟩]
  | .call _ callee paren arguments =>
      ⟨fuel, .expression initialized callee, machine⟩ ::
        following (evaluate (invoke fuel) callee machine) fun callee middle =>
          ⟨fuel, .expressions initialized arguments, middle⟩ ::
            following (evaluateAll (invoke fuel) arguments middle) fun values later =>
              [⟨fuel, .application callee paren values, later⟩]
  | .set _ object _ value =>
      ⟨fuel, .expression initialized object, machine⟩ ::
        following (evaluate (invoke fuel) object machine) fun target later =>
          match target with
          | .instance _ => [⟨fuel, .expression initialized value, later⟩]
          | _ => []

/-- The parts of several expressions. -/
def expressionsParts (initialized : Option Token) : List Expression → List Point
  | [] => []
  | expression :: rest =>
      ⟨fuel, .expression initialized expression, machine⟩ ::
        following (evaluate (invoke fuel) expression machine) fun _ later =>
          [⟨fuel, .expressions initialized rest, later⟩]

/-- The call that calling a value comes to. -/
def applicationParts (paren : Token) (arguments : List Value) : Value → List Point
  | .function function =>
      if function.arity = arguments.length then [⟨fuel, .call function paren arguments, machine⟩]
      else []
  | .class owner =>
      if owner.arity = arguments.length then
        match owner.initializer? with
        | none => []
        | some method =>
            following (makeInstance owner machine) fun id middle =>
              following (bindMethod method id middle) fun bound later =>
                [⟨fuel, .call bound paren arguments, later⟩]
      else []
  | _ => []

/-- The body that the call of a function comes to. -/
def callParts (function : FunctionValue) (arguments : List Value) : Nat → List Point
  | 0 => []
  | fuel + 1 =>
      if machine.depth < maxDepth then
        following (openFrame function arguments machine) fun frame later =>
          [⟨fuel, .statements function.declaration.body,
            { later with depth := later.depth + 1, environment := frame }⟩]
      else []

/-- The parts of a statement. -/
def statementParts : Statement → List Point
  | .expression value | .print value | .return _ (some value) =>
      [⟨fuel, .expression none value, machine⟩]
  | .var name (some value) => [⟨fuel, .expression (some name) value, machine⟩]
  | .block statements =>
      [⟨fuel, .statements statements,
        { machine with
          frames := machine.frames.push (some machine.environment)
          environment := machine.frames.size }⟩]
  | .conditional condition thenBranch elseBranch =>
      ⟨fuel, .expression none condition, machine⟩ ::
        following (evaluate (invoke fuel) condition machine) fun value later =>
          if value.isTruthy then [⟨fuel, .statement thenBranch, later⟩]
          else elseBranch.toList.map fun elseBranch => ⟨fuel, .statement elseBranch, later⟩
  | .loop condition body => [⟨fuel, .rounds condition body fuel, machine⟩]
  | .var _ none | .function _ | .return _ none | .class _ _ => []

/-- The parts of several statements. -/
def statementsParts : List Statement → List Point
  | [] => []
  | statement :: rest =>
      ⟨fuel, .statement statement, machine⟩ ::
        following (execute (invoke fuel) fuel statement machine) fun completion later =>
          match completion with
          | .normal => [⟨fuel, .statements rest, later⟩]
          | .returned _ => []

/-- The parts of a loop. -/
def roundsParts (condition : Expression) (body : Statement) : Nat → List Point
  | 0 => []
  | left + 1 =>
      ⟨fuel, .expression none condition, machine⟩ ::
        following (evaluate (invoke fuel) condition machine) fun value middle =>
          if value.isTruthy then
            ⟨fuel, .statement body, middle⟩ ::
              following (execute (invoke fuel) fuel body middle) fun completion later =>
                match completion with
                | .normal => [⟨fuel, .rounds condition body left, later⟩]
                | .returned _ => []
          else []

end Parts

/-- The points that a point comes to, in the order in which evaluation comes to them. -/
def Point.parts (point : Point) : List Point :=
  match point.task with
  | .expression initialized value =>
      expressionParts point.fuel point.machine initialized value
  | .expressions initialized values =>
      expressionsParts point.fuel point.machine initialized values
  | .assignment _ _ _ _ => []
  | .application callee paren arguments =>
      applicationParts point.fuel point.machine paren arguments callee
  | .call function _ arguments => callParts point.machine function arguments point.fuel
  | .statement part => statementParts point.fuel point.machine part
  | .statements parts => statementsParts point.fuel point.machine parts
  | .rounds condition body left => roundsParts point.fuel point.machine condition body left

/-! ### The parts are what a point demands -/

theorem mem_following {α β : Type} {result : EStateM.Result Halt Machine α}
    {next : α → Machine → List β} {found : β} :
    found ∈ following result next ↔
      ∃ value later, result = .ok value later ∧ found ∈ next value later := by
  constructor
  · intro member
    cases result with
    | ok value later => exact ⟨value, later, rfl, member⟩
    | error => cases member
  · rintro ⟨value, later, rfl, member⟩
    exact member

section Demanded

variable {fuel : Nat} {machine : Machine} {next : Point}

theorem demands_of_mem_expressionParts {initialized : Option Token} (value : Expression)
    (member : next ∈ expressionParts fuel machine initialized value) :
    Demands ⟨fuel, .expression initialized value, machine⟩ next := by
  cases value with
  | literal | «variable» | this => cases member
  | grouping =>
      obtain rfl := List.mem_singleton.mp member
      exact .grouping
  | unary =>
      obtain rfl := List.mem_singleton.mp member
      exact .operand
  | get =>
      obtain rfl := List.mem_singleton.mp member
      exact .object
  | binary id left operator right =>
      rcases List.mem_cons.mp member with rfl | behind
      · exact .leftOperand
      · obtain ⟨value, later, done, last⟩ := mem_following.mp behind
        obtain rfl := List.mem_singleton.mp last
        exact .rightOperand done
  | logical id left operator right =>
      rcases List.mem_cons.mp member with rfl | behind
      · exact .leftCondition
      · obtain ⟨value, later, done, last⟩ := mem_following.mp behind
        by_cases decided : value.isTruthy = operator.isKeyword .or
        · rw [if_pos decided] at last
          cases last
        · rw [if_neg decided] at last
          obtain rfl := List.mem_singleton.mp last
          exact .rightCondition done decided
  | assign id name value =>
      rcases List.mem_cons.mp member with rfl | behind
      · exact .assignedValue
      · obtain ⟨assigned, later, done, last⟩ := mem_following.mp behind
        obtain rfl := List.mem_singleton.mp last
        exact .assignment done
  | call id callee paren arguments =>
      rcases List.mem_cons.mp member with rfl | behind
      · exact .callee
      · obtain ⟨value, middle, called, further⟩ := mem_following.mp behind
        rcases List.mem_cons.mp further with rfl | further
        · exact .arguments called
        · obtain ⟨values, later, argued, last⟩ := mem_following.mp further
          obtain rfl := List.mem_singleton.mp last
          exact .application called argued
  | set id object name value =>
      rcases List.mem_cons.mp member with rfl | behind
      · exact .changedObject
      · obtain ⟨target, later, done, last⟩ := mem_following.mp behind
        cases target with
        | «instance» id =>
            obtain rfl := List.mem_singleton.mp last
            exact .fieldValue done
        | _ => cases last

theorem demands_of_mem_expressionsParts {initialized : Option Token} (values : List Expression)
    (member : next ∈ expressionsParts fuel machine initialized values) :
    Demands ⟨fuel, .expressions initialized values, machine⟩ next := by
  cases values with
  | nil => cases member
  | cons value rest =>
      rcases List.mem_cons.mp member with rfl | behind
      · exact .firstExpression
      · obtain ⟨first, later, done, last⟩ := mem_following.mp behind
        obtain rfl := List.mem_singleton.mp last
        exact .nextExpressions done

theorem demands_of_mem_applicationParts {paren : Token} {arguments : List Value} (callee : Value)
    (member : next ∈ applicationParts fuel machine paren arguments callee) :
    Demands ⟨fuel, .application callee paren arguments, machine⟩ next := by
  cases callee with
  | function function =>
      by_cases matching : function.arity = arguments.length
      · rw [applicationParts, if_pos matching] at member
        obtain rfl := List.mem_singleton.mp member
        exact .function matching
      · rw [applicationParts, if_neg matching] at member
        cases member
  | «class» owner =>
      by_cases matching : owner.arity = arguments.length
      · rw [applicationParts, if_pos matching] at member
        cases present : owner.initializer? with
        | none =>
            rw [present] at member
            cases member
        | some method =>
            rw [present] at member
            obtain ⟨id, middle, made, behind⟩ := mem_following.mp member
            obtain ⟨bound, later, isBound, last⟩ := mem_following.mp behind
            obtain rfl := List.mem_singleton.mp last
            exact .initializer matching present made isBound
      · rw [applicationParts, if_neg matching] at member
        cases member
  | _ => cases member

theorem demands_of_mem_callParts {function : FunctionValue} {paren : Token}
    {arguments : List Value} (member : next ∈ callParts machine function arguments fuel) :
    Demands ⟨fuel, .call function paren arguments, machine⟩ next := by
  cases fuel with
  | zero => cases member
  | succ fuel =>
      by_cases shallow : machine.depth < maxDepth
      · rw [callParts, if_pos shallow] at member
        obtain ⟨frame, later, opened, last⟩ := mem_following.mp member
        obtain rfl := List.mem_singleton.mp last
        exact .body shallow opened
      · rw [callParts, if_neg shallow] at member
        cases member

theorem demands_of_mem_statementParts (part : Statement)
    (member : next ∈ statementParts fuel machine part) :
    Demands ⟨fuel, .statement part, machine⟩ next := by
  cases part with
  | expression =>
      obtain rfl := List.mem_singleton.mp member
      exact .expression
  | print =>
      obtain rfl := List.mem_singleton.mp member
      exact .printed
  | var name initializer =>
      cases initializer with
      | none => cases member
      | some =>
          obtain rfl := List.mem_singleton.mp member
          exact .initialValue
  | block =>
      obtain rfl := List.mem_singleton.mp member
      exact .block
  | conditional condition thenBranch elseBranch =>
      rcases List.mem_cons.mp member with rfl | behind
      · exact .condition
      · obtain ⟨value, later, done, last⟩ := mem_following.mp behind
        by_cases truthy : value.isTruthy = true
        · rw [if_pos truthy] at last
          obtain rfl := List.mem_singleton.mp last
          exact .thenBranch done truthy
        · rw [if_neg truthy] at last
          cases elseBranch with
          | none => cases last
          | some elseBranch =>
              obtain rfl := List.mem_singleton.mp last
              exact .elseBranch done (Bool.eq_false_iff.mpr truthy)
  | loop =>
      obtain rfl := List.mem_singleton.mp member
      exact .loop
  | function | «class» => cases member
  | «return» keyword value =>
      cases value with
      | none => cases member
      | some =>
          obtain rfl := List.mem_singleton.mp member
          exact .returned

theorem demands_of_mem_statementsParts (parts : List Statement)
    (member : next ∈ statementsParts fuel machine parts) :
    Demands ⟨fuel, .statements parts, machine⟩ next := by
  cases parts with
  | nil => cases member
  | cons part rest =>
      rcases List.mem_cons.mp member with rfl | behind
      · exact .firstStatement
      · obtain ⟨completion, later, done, last⟩ := mem_following.mp behind
        cases completion with
        | normal =>
            obtain rfl := List.mem_singleton.mp last
            exact .nextStatements done
        | returned => cases last

theorem demands_of_mem_roundsParts {condition : Expression} {body : Statement} {left : Nat}
    (member : next ∈ roundsParts fuel machine condition body left) :
    Demands ⟨fuel, .rounds condition body left, machine⟩ next := by
  cases left with
  | zero => cases member
  | succ left =>
      rcases List.mem_cons.mp member with rfl | behind
      · exact .loopCondition
      · obtain ⟨value, middle, evaluated, inside⟩ := mem_following.mp behind
        by_cases truthy : value.isTruthy = true
        · rw [if_pos truthy] at inside
          rcases List.mem_cons.mp inside with rfl | further
          · exact .loopBody evaluated truthy
          · obtain ⟨completion, later, done, last⟩ := mem_following.mp further
            cases completion with
            | normal =>
                obtain rfl := List.mem_singleton.mp last
                exact .nextRound evaluated truthy done
            | returned => cases last
        · rw [if_neg truthy] at inside
          cases inside

end Demanded

/-- What follows a value is among what follows its result. -/
theorem mem_following_of_ok {α β : Type} {result : EStateM.Result Halt Machine α}
    {next : α → Machine → List β} {value : α} {later : Machine} {found : β}
    (done : result = .ok value later) (member : found ∈ next value later) :
    found ∈ following result next :=
  mem_following.mpr ⟨value, later, done, member⟩

theorem Demands.mem_parts {point next : Point} (demands : Demands point next) :
    next ∈ point.parts := by
  cases demands with
  | grouping | operand | leftOperand | leftCondition | assignedValue | callee | object
  | changedObject | firstExpression | expression | printed | initialValue | block | condition
  | loop | loopCondition | returned | firstStatement => exact List.mem_cons_self
  | rightOperand done | assignment done | fieldValue done | nextExpressions done
  | nextStatements done =>
      exact List.mem_cons_of_mem _ (mem_following_of_ok done List.mem_cons_self)
  | rightCondition done undecided =>
      refine List.mem_cons_of_mem _ (mem_following_of_ok done ?_)
      rw [if_neg undecided]
      exact List.mem_cons_self
  | arguments done =>
      exact List.mem_cons_of_mem _ (mem_following_of_ok done List.mem_cons_self)
  | application called argued =>
      refine List.mem_cons_of_mem _ (mem_following_of_ok called (List.mem_cons_of_mem _ ?_))
      exact mem_following_of_ok argued List.mem_cons_self
  | @function fuel machine function paren arguments matching =>
      show _ ∈ applicationParts fuel machine paren arguments (.function function)
      rw [applicationParts, if_pos matching]
      exact List.mem_cons_self
  | @initializer fuel machine owner method paren arguments _ _ _ _ matching present made bound =>
      show _ ∈ applicationParts fuel machine paren arguments (.class owner)
      rw [applicationParts, if_pos matching, present]
      exact mem_following_of_ok made (mem_following_of_ok bound List.mem_cons_self)
  | @body fuel machine function paren arguments _ _ shallow opened =>
      show _ ∈ callParts machine function arguments (fuel + 1)
      rw [callParts, if_pos shallow]
      exact mem_following_of_ok opened List.mem_cons_self
  | thenBranch done truthy =>
      refine List.mem_cons_of_mem _ (mem_following_of_ok done ?_)
      rw [if_pos truthy]
      exact List.mem_cons_self
  | elseBranch done falsy =>
      refine List.mem_cons_of_mem _ (mem_following_of_ok done ?_)
      rw [if_neg (Bool.eq_false_iff.mp falsy)]
      exact List.mem_cons_self
  | loopBody done truthy =>
      refine List.mem_cons_of_mem _ (mem_following_of_ok done ?_)
      rw [if_pos truthy]
      exact List.mem_cons_self
  | nextRound evaluated truthy done =>
      refine List.mem_cons_of_mem _ (mem_following_of_ok evaluated ?_)
      rw [if_pos truthy]
      exact List.mem_cons_of_mem _ (mem_following_of_ok done List.mem_cons_self)

/-- The parts of a point are those that it demands. -/
theorem Point.mem_parts_iff {point next : Point} : next ∈ point.parts ↔ Demands point next := by
  refine ⟨fun member => ?_, Demands.mem_parts⟩
  obtain ⟨fuel, task, machine⟩ := point
  cases task with
  | expression _ value => exact demands_of_mem_expressionParts value member
  | expressions _ values => exact demands_of_mem_expressionsParts values member
  | assignment => cases member
  | application callee => exact demands_of_mem_applicationParts callee member
  | call => exact demands_of_mem_callParts member
  | statement part => exact demands_of_mem_statementParts part member
  | statements parts => exact demands_of_mem_statementsParts parts member
  | rounds => exact demands_of_mem_roundsParts member

/-! ### The whole course -/

/-- All that is done at a point, in the order in which it ends: the parts in their order, with what
is done at them, and then the whole. -/
def Point.course (point : Point) : List Point :=
  (point.parts.attach.flatMap fun part => part.val.course) ++ [point]
termination_by point.rank
decreasing_by exact (Point.mem_parts_iff.mp part.property).rank_lt

theorem Point.course_eq (point : Point) :
    point.course = point.parts.flatMap Point.course ++ [point] := by
  rw [Point.course, List.flatMap_subtype fun _ _ => rfl, List.unattach_attach]

/-- The course of a point has what it reaches, and nothing else. By induction on the rank of the
point. -/
theorem Point.mem_course_iff {point other : Point} : other ∈ point.course ↔ Reaches point other := by
  rw [Point.course_eq, List.mem_append, List.mem_flatMap, List.mem_singleton]
  constructor
  · rintro (⟨part, isPart, member⟩ | rfl)
    · have demands := Point.mem_parts_iff.mp isPart
      exact .head demands (Point.mem_course_iff.mp member)
    · exact .refl
  · intro reaches
    cases reaches using Relation.ReflTransGen.head_induction_on with
    | refl => exact .inr rfl
    | head demands reaches =>
      exact .inl ⟨_, demands.mem_parts, Point.mem_course_iff.mpr reaches⟩
termination_by point.rank
decreasing_by all_goals exact Demands.rank_lt demands

end Lox.Evaluation
