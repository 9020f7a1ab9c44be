import Lox.Proofs.Evaluation.Restoration
import Lox.Proofs.Evaluation.Stack

/-!
Contract: the instances for which methods run.

Owns:
- `Binds` and `IsBound`: where methods are bound to instances, and the functions that come of it;
- `RunsFor` and `MadeFor`: the instance to which the innermost method around some code has been
  bound in this activation, followed from point to point and through the functions that are
  declared on the way.

Nothing here looks at the names in frames. An activation is told by how evaluation has come to a
point, given the points at which it starts.
-/

namespace Lox.Evaluation

/-- The machine that is left when what is to be done at a point has been done. -/
def Point.left (point : Point) : Machine :=
  match point.task with
  | .expression _ value => final (evaluate (invoke point.fuel) value point.machine)
  | .expressions _ values => final (evaluateAll (invoke point.fuel) values point.machine)
  | .assignment _ id name value => final (assign id name value point.machine)
  | .application callee paren arguments =>
      final (callValue (invoke point.fuel) callee paren arguments point.machine)
  | .call function paren arguments =>
      final (invoke point.fuel function paren arguments point.machine)
  | .statement part => final (execute (invoke point.fuel) point.fuel part point.machine)
  | .statements parts => final (executeAll (invoke point.fuel) point.fuel parts point.machine)
  | .rounds condition body left =>
      final (repeatWhile (evaluate (invoke point.fuel) condition)
        (execute (invoke point.fuel) point.fuel body) left point.machine)

/-- `Binds point method id machine`: at a point a method comes to be bound to an instance, on a
machine. -/
inductive Binds : Point → FunctionValue → Nat → Machine → Prop where
  /-- A class is called, and its initializer is bound to the new instance. -/
  | initializer {fuel machine owner paren arguments method id later} :
      owner.arity = arguments.length → owner.initializer? = some method →
      makeInstance owner machine = .ok id later →
      Binds ⟨fuel, .application (.class owner) paren arguments, machine⟩ method id later
  /-- A method of an instance is asked for. -/
  | property {fuel machine initialized node object name id later target method} :
      evaluate (invoke fuel) object machine = .ok (.instance id) later →
      later.instances[id]? = some target → target.fields[name.lexeme]? = none →
      target.owner.methods[name.lexeme]? = some method →
      Binds ⟨fuel, .expression initialized (.get node object name), machine⟩ method id later

section Units

-- The points at which evaluation starts.
variable (units : Point → Prop)

/-- Evaluation gets to a point. -/
def Visited (point : Point) : Prop :=
  ∃ start, units start ∧ Reaches start point

/-- A function has come of binding a method to an instance. -/
def IsBound (method : FunctionValue) (id : Nat) (function : FunctionValue) : Prop :=
  ∃ point machine later, Visited units point ∧ Binds point method id machine ∧
    bindMethod method id machine = .ok function later

mutual

/-- The innermost method around the code at a point has been bound to an instance, or no method
is around it. -/
inductive RunsFor : Point → Option Nat → Prop where
  | unit {point : Point} : units point → RunsFor point none
  /-- The parts of what is done are done for the same instance. -/
  | part {point next : Point} {receiver : Option Nat} :
      RunsFor point receiver → Demands point next → point.opens = 0 → RunsFor next receiver
  /-- The body of a function is run for the instance for which the function was made. -/
  | body {fuel : Nat} {function : FunctionValue} {paren : Token} {arguments : List Value}
      {machine : Machine} {next : Point} {caller receiver : Option Nat} :
      RunsFor ⟨fuel, .call function paren arguments, machine⟩ caller →
      Demands ⟨fuel, .call function paren arguments, machine⟩ next →
      MadeFor function receiver → RunsFor next receiver

/-- The same of a function: a method is made for the instance to which it is bound, and another
function for the instance for which its declaration is executed. -/
inductive MadeFor : FunctionValue → Option Nat → Prop where
  | bound {method function : FunctionValue} {id : Nat} :
      IsBound units method id function → MadeFor function (some id)
  | declared {fuel : Nat} {declaration : FunctionDeclaration} {machine later : Machine}
      {function : FunctionValue} {receiver : Option Nat} :
      RunsFor ⟨fuel, .statement (.function declaration), machine⟩ receiver →
      makeFunction declaration machine.environment false machine = .ok function later →
      MadeFor function receiver

end

end Units

variable {units : Point → Prop}

theorem Visited.unit {point : Point} (isUnit : units point) : Visited units point :=
  ⟨point, isUnit, .refl⟩

theorem Visited.next {point next : Point} (visited : Visited units point)
    (demands : Demands point next) : Visited units next := by
  obtain ⟨start, isUnit, reaches⟩ := visited
  exact ⟨start, isUnit, reaches.tail demands⟩

/-- What is run for an instance, or for none, is visited. -/
theorem RunsFor.visited {point : Point} {receiver : Option Nat} :
    RunsFor units point receiver → Visited units point
  | .unit isUnit => .unit isUnit
  | .part runs demands _ => runs.visited.next demands
  | .body runs demands _ => runs.visited.next demands

end Lox.Evaluation
