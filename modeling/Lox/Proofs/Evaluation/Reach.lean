import Mathlib.Logic.Relation
import Lox.Evaluation.Evaluate

/-!
Contract: what evaluation gets to.

Owns:
- `Point`: something to be done, on the machine on which it is to be done;
- `Demands`: doing one thing comes to another, as a part of it, when the parts before it are
  done;
- `Reaches`: the parts of parts, at any depth.

An expression knows the variable declaration that it belongs to, if it is part of an
initializer. Statements in the bodies of functions belong to none.
-/

namespace Lox.Evaluation

/-- Something to be done. -/
inductive Task where
  /-- Evaluate an expression, in the initializer of the given name or in none. -/
  | expression (initialized : Option Token) (value : Expression)
  | expressions (initialized : Option Token) (values : List Expression)
  /-- Assign a value that has been computed. -/
  | assignment (initialized : Option Token) (id : Nat) (name : Token) (value : Value)
  /-- Call a value. -/
  | application (callee : Value) (paren : Token) (arguments : List Value)
  /-- Call a function whose number of parameters matches the arguments. -/
  | call (function : FunctionValue) (paren : Token) (arguments : List Value)
  | statement (statement : Statement)
  | statements (statements : List Statement)
  /-- Go on with a loop, for so many rounds at most. -/
  | rounds (condition : Expression) (body : Statement) (left : Nat)

/-- Something to be done on a machine, with fuel for nested calls and loops. -/
structure Point where
  fuel : Nat
  task : Task
  machine : Machine

/-- The frame of a call, with the parameters bound. -/
def openFrame (function : FunctionValue) (arguments : List Value) : Eval Nat := do
  let frame ← pushFrame function.closure
  (function.declaration.parameters.zip arguments).forM fun (parameter, argument) =>
    defineIn frame parameter.lexeme argument
  return frame

/-- The first of two points comes to the second. -/
inductive Demands : Point → Point → Prop where
  | grouping {fuel machine initialized id inner} :
      Demands ⟨fuel, .expression initialized (.grouping id inner), machine⟩
        ⟨fuel, .expression initialized inner, machine⟩
  | operand {fuel machine initialized id operator operand} :
      Demands ⟨fuel, .expression initialized (.unary id operator operand), machine⟩
        ⟨fuel, .expression initialized operand, machine⟩
  | leftOperand {fuel machine initialized id left operator right} :
      Demands ⟨fuel, .expression initialized (.binary id left operator right), machine⟩
        ⟨fuel, .expression initialized left, machine⟩
  | rightOperand {fuel machine initialized id left operator right value later} :
      evaluate (invoke fuel) left machine = .ok value later →
      Demands ⟨fuel, .expression initialized (.binary id left operator right), machine⟩
        ⟨fuel, .expression initialized right, later⟩
  | leftCondition {fuel machine initialized id left operator right} :
      Demands ⟨fuel, .expression initialized (.logical id left operator right), machine⟩
        ⟨fuel, .expression initialized left, machine⟩
  | rightCondition {fuel machine initialized id left operator right value later} :
      evaluate (invoke fuel) left machine = .ok value later →
      value.isTruthy ≠ operator.isKeyword .or →
      Demands ⟨fuel, .expression initialized (.logical id left operator right), machine⟩
        ⟨fuel, .expression initialized right, later⟩
  | assignedValue {fuel machine initialized id name value} :
      Demands ⟨fuel, .expression initialized (.assign id name value), machine⟩
        ⟨fuel, .expression initialized value, machine⟩
  | assignment {fuel machine initialized id name expression value later} :
      evaluate (invoke fuel) expression machine = .ok value later →
      Demands ⟨fuel, .expression initialized (.assign id name expression), machine⟩
        ⟨fuel, .assignment initialized id name value, later⟩
  | callee {fuel machine initialized id callee paren arguments} :
      Demands ⟨fuel, .expression initialized (.call id callee paren arguments), machine⟩
        ⟨fuel, .expression initialized callee, machine⟩
  | arguments {fuel machine initialized id callee paren arguments value later} :
      evaluate (invoke fuel) callee machine = .ok value later →
      Demands ⟨fuel, .expression initialized (.call id callee paren arguments), machine⟩
        ⟨fuel, .expressions initialized arguments, later⟩
  | application {fuel machine initialized id callee paren arguments value values middle later} :
      evaluate (invoke fuel) callee machine = .ok value middle →
      evaluateAll (invoke fuel) arguments middle = .ok values later →
      Demands ⟨fuel, .expression initialized (.call id callee paren arguments), machine⟩
        ⟨fuel, .application value paren values, later⟩
  | object {fuel machine initialized id object name} :
      Demands ⟨fuel, .expression initialized (.get id object name), machine⟩
        ⟨fuel, .expression initialized object, machine⟩
  | changedObject {fuel machine initialized id object name value} :
      Demands ⟨fuel, .expression initialized (.set id object name value), machine⟩
        ⟨fuel, .expression initialized object, machine⟩
  | fieldValue {fuel machine initialized id object name value target later} :
      evaluate (invoke fuel) object machine = .ok (.instance target) later →
      Demands ⟨fuel, .expression initialized (.set id object name value), machine⟩
        ⟨fuel, .expression initialized value, later⟩
  | firstExpression {fuel machine initialized expression rest} :
      Demands ⟨fuel, .expressions initialized (expression :: rest), machine⟩
        ⟨fuel, .expression initialized expression, machine⟩
  | nextExpressions {fuel machine initialized expression rest value later} :
      evaluate (invoke fuel) expression machine = .ok value later →
      Demands ⟨fuel, .expressions initialized (expression :: rest), machine⟩
        ⟨fuel, .expressions initialized rest, later⟩
  | function {fuel machine function paren arguments} :
      function.arity = arguments.length →
      Demands ⟨fuel, .application (.function function) paren arguments, machine⟩
        ⟨fuel, .call function paren arguments, machine⟩
  | initializer {fuel machine owner method paren arguments id bound middle later} :
      owner.arity = arguments.length → owner.initializer? = some method →
      makeInstance owner machine = .ok id middle → bindMethod method id middle = .ok bound later →
      Demands ⟨fuel, .application (.class owner) paren arguments, machine⟩
        ⟨fuel, .call bound paren arguments, later⟩
  | body {fuel machine function paren arguments frame later} :
      machine.depth < maxDepth → openFrame function arguments machine = .ok frame later →
      Demands ⟨fuel + 1, .call function paren arguments, machine⟩
        ⟨fuel, .statements function.declaration.body,
          { later with depth := later.depth + 1, environment := frame }⟩
  | expression {fuel machine value} :
      Demands ⟨fuel, .statement (.expression value), machine⟩
        ⟨fuel, .expression none value, machine⟩
  | printed {fuel machine value} :
      Demands ⟨fuel, .statement (.print value), machine⟩ ⟨fuel, .expression none value, machine⟩
  | initialValue {fuel machine name value} :
      Demands ⟨fuel, .statement (.var name (some value)), machine⟩
        ⟨fuel, .expression (some name) value, machine⟩
  | block {fuel machine statements} :
      Demands ⟨fuel, .statement (.block statements), machine⟩
        ⟨fuel, .statements statements,
          { machine with
            frames := machine.frames.push (some machine.environment)
            environment := machine.frames.size }⟩
  | condition {fuel machine condition thenBranch elseBranch} :
      Demands ⟨fuel, .statement (.conditional condition thenBranch elseBranch), machine⟩
        ⟨fuel, .expression none condition, machine⟩
  | thenBranch {fuel machine condition thenBranch elseBranch value later} :
      evaluate (invoke fuel) condition machine = .ok value later → value.isTruthy = true →
      Demands ⟨fuel, .statement (.conditional condition thenBranch elseBranch), machine⟩
        ⟨fuel, .statement thenBranch, later⟩
  | elseBranch {fuel machine condition thenBranch elseBranch value later} :
      evaluate (invoke fuel) condition machine = .ok value later → value.isTruthy = false →
      Demands ⟨fuel, .statement (.conditional condition thenBranch (some elseBranch)), machine⟩
        ⟨fuel, .statement elseBranch, later⟩
  | loop {fuel machine condition body} :
      Demands ⟨fuel, .statement (.loop condition body), machine⟩
        ⟨fuel, .rounds condition body fuel, machine⟩
  | loopCondition {fuel machine condition body left} :
      Demands ⟨fuel, .rounds condition body (left + 1), machine⟩
        ⟨fuel, .expression none condition, machine⟩
  | loopBody {fuel machine condition body left value later} :
      evaluate (invoke fuel) condition machine = .ok value later → value.isTruthy = true →
      Demands ⟨fuel, .rounds condition body (left + 1), machine⟩ ⟨fuel, .statement body, later⟩
  | nextRound {fuel machine condition body left value middle later} :
      evaluate (invoke fuel) condition machine = .ok value middle → value.isTruthy = true →
      execute (invoke fuel) fuel body middle = .ok .normal later →
      Demands ⟨fuel, .rounds condition body (left + 1), machine⟩
        ⟨fuel, .rounds condition body left, later⟩
  | returned {fuel machine keyword value} :
      Demands ⟨fuel, .statement (.return keyword (some value)), machine⟩
        ⟨fuel, .expression none value, machine⟩
  | firstStatement {fuel machine statement rest} :
      Demands ⟨fuel, .statements (statement :: rest), machine⟩
        ⟨fuel, .statement statement, machine⟩
  | nextStatements {fuel machine statement rest later} :
      execute (invoke fuel) fuel statement machine = .ok .normal later →
      Demands ⟨fuel, .statements (statement :: rest), machine⟩ ⟨fuel, .statements rest, later⟩

/-- A point comes to another one, over any number of points in between. -/
abbrev Reaches : Point → Point → Prop :=
  Relation.ReflTransGen Demands

end Lox.Evaluation
