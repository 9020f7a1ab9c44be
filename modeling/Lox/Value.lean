import Std.Data.ExtTreeMap
import Lox.Syntax

/-!
Contract: the values of running programs.

Owns:
- `ValueOf`, the values given what functions close over, with functions, classes and
  instances. Functions and classes are immutable and carry an identity; an instance
  is a position in the store of instances;
- `Value`, in which a closure is a position in the store of frames;
- truth and equality of values.

Does not own: the stores that positions refer to.
-/

namespace Lox

/-- Values by name. -/
abbrev Bindings (α : Type) := Std.ExtTreeMap String α

/-- Functions that the language provides. -/
inductive Native where
  /-- The time in seconds. -/
  | clock
deriving DecidableEq, Repr

namespace Native

/-- The name of a provided function. -/
def name : Native → String
  | clock => "clock"

/-- How many arguments a provided function takes. -/
def arity : Native → Nat
  | clock => 0

end Native

/-- A function or a method: a declaration with what it closes over. -/
structure FunctionValueOf (Closure : Type) where
  identity : Nat
  declaration : FunctionDeclaration
  closure : Closure
  /-- Whether this is an `init` method, whose calls yield its instance. -/
  isInitializer : Bool

/-- A function or a method that closes over the frame it was made in. -/
abbrev FunctionValue := FunctionValueOf Nat

namespace FunctionValueOf

variable {Closure : Type}

/-- The name a function was declared with. -/
def name (function : FunctionValueOf Closure) : String :=
  function.declaration.name.lexeme

/-- How many arguments a function takes. -/
def arity (function : FunctionValueOf Closure) : Nat :=
  function.declaration.parameters.length

end FunctionValueOf

/-- A class. -/
structure ClassValueOf (Closure : Type) where
  identity : Nat
  name : String
  methods : Bindings (FunctionValueOf Closure)

/-- A class whose methods close over frames. -/
abbrev ClassValue := ClassValueOf Nat

namespace ClassValueOf

variable {Closure : Type}

/-- The method that initializes instances, if the class has one. -/
def initializer? (value : ClassValueOf Closure) : Option (FunctionValueOf Closure) :=
  value.methods[initializerName]?

/-- A class takes the arguments that its initializer takes. -/
def arity (value : ClassValueOf Closure) : Nat :=
  (value.initializer?.map FunctionValueOf.arity).getD 0

end ClassValueOf

/-- A value of a running program. -/
inductive ValueOf (Closure : Type) where
  | nil
  | boolean (value : Bool)
  | number (value : Float)
  | string (contents : String)
  | native (function : Native)
  | function (value : FunctionValueOf Closure)
  | class (value : ClassValueOf Closure)
  | instance (id : Nat)

/-- A value in which closures are frames. -/
abbrev Value := ValueOf Nat

/-- An instance of a class, with its fields. -/
structure InstanceOf (Closure : Type) where
  owner : ClassValueOf Closure
  fields : Bindings (ValueOf Closure)

/-- An instance in which closures are frames. -/
abbrev Instance := InstanceOf Nat

namespace ValueOf

variable {Closure : Type}

/-- All values but `nil` and `false` hold as conditions. -/
def isTruthy : ValueOf Closure → Bool
  | .nil => false
  | .boolean value => value
  | _ => true

/-- Equality of values: constants by what they are, numbers as numbers compare,
and functions, classes and instances by identity. -/
def equals : ValueOf Closure → ValueOf Closure → Bool
  | .nil, .nil => true
  | .boolean left, .boolean right => left == right
  | .number left, .number right => left == right
  | .string left, .string right => left == right
  | .native left, .native right => left == right
  | .function left, .function right => left.identity == right.identity
  | .class left, .class right => left.identity == right.identity
  | .instance left, .instance right => left == right
  | _, _ => false

end ValueOf

/-- The value of a constant. -/
def Literal.toValue {Closure : Type} : Literal → ValueOf Closure
  | .nil => .nil
  | .boolean value => .boolean value
  | .number value => .number value
  | .string contents => .string contents

end Lox
