import Lox.Evaluation.Fault
import Lox.Machine

/-!
Contract: the steps that evaluation is made of.

Owns:
- `Run`, a computation on some state that gives a result, stops with a runtime
  error, or runs out of fuel, in each case with the state as it was left; and `Eval`,
  a computation on a machine;
- the basic steps on names, frames, instances, output and the clock;
- the meaning of operators on values.

Does not own: which steps an expression or a statement takes.
-/

namespace Lox.Evaluation

/-- Why a computation has no result. -/
inductive Halt where
  | fault (error : RuntimeError)
  /-- More fuel may give a result. -/
  | outOfFuel

/-- A computation on some state. -/
abbrev Run (State : Type) := EStateM Halt State

/-- A computation on a machine. -/
abbrev Eval := Run Machine

/-- Stop with a fault at a token. -/
def fail {State : Type} (token : Token) (fault : RuntimeFault) : Run State α :=
  throw (.fault ⟨token, fault⟩)

/-- Go on with a value that should be there, or stop with a fault at a token. -/
def require {State : Type} (token : Token) (fault : RuntimeFault) : Option α → Run State α
  | some value => pure value
  | none => fail token fault

/-- An identity that no function or class has yet. -/
def freshIdentity : Eval Nat :=
  modifyGet fun machine =>
    (machine.nextIdentity, { machine with nextIdentity := machine.nextIdentity + 1 })

/-- The time at a reading of the clock. -/
def readClock : Eval Float :=
  modifyGet fun machine =>
    (machine.clock.time machine.clock.taken,
      { machine with clock := { machine.clock with taken := machine.clock.taken + 1 } })

/-- Print the printed form of a value as a line. -/
def printValue (value : Value) : Eval Unit :=
  modify fun machine => { machine with output := machine.output.print (machine.display value) }

/-! ## Names and frames -/

/-- Make a frame without names inside another one. -/
def pushFrame (parent : Nat) : Eval Nat :=
  modifyGet fun machine =>
    (machine.frames.size, { machine with frames := machine.frames.push (some parent) })

/-- Bind a name in a given frame. -/
def defineIn (frame : Nat) (name : String) (value : Value) : Eval Unit :=
  modify fun machine => { machine with frames := machine.frames.define frame name value }

/-- Bind a name in the current frame. -/
def define (name : String) (value : Value) : Eval Unit := do
  defineIn (← get).environment name value

/-- Run a computation in a given frame. The current frame is put back however the
computation ends. -/
def within (frame : Nat) (computation : Eval α) : Eval α := fun machine =>
  let previous := machine.environment
  match computation { machine with environment := frame } with
  | .ok value final => .ok value { final with environment := previous }
  | .error halt final => .error halt { final with environment := previous }

/-- The value of an occurrence of a name: a local one in the frame of its
declaration, any other among the globals. -/
def lookUp (id : Nat) (name : Token) : Eval Value := do
  let machine ← get
  match machine.locals[id]? with
  | some distance =>
      require name (.unboundLocal name.lexeme)
        (machine.frames.getAt? machine.environment distance name.lexeme)
  | none =>
      require name (.undefinedVariable name.lexeme)
        (machine.frames.get? machine.globals name.lexeme)

/-- The frame that binds what an occurrence of a name refers to. -/
def ownerOf (id : Nat) (name : Token) : Eval Nat := do
  let machine ← get
  match machine.locals[id]? with
  | some distance =>
      require name (.unboundLocal name.lexeme)
        (machine.frames.owner? machine.environment distance name.lexeme)
  | none =>
      require name (.undefinedVariable name.lexeme)
        (machine.frames.find? name.lexeme machine.globals)

/-- Change the binding that an occurrence of a name refers to. -/
def assign (id : Nat) (name : Token) (value : Value) : Eval Unit := do
  defineIn (← ownerOf id name) name.lexeme value

/-- Change the nearest binding of a name as seen from the current frame. -/
def assignNearest (name : Token) (value : Value) : Eval Unit := do
  let machine ← get
  let owner ← require name (.undefinedVariable name.lexeme)
    (machine.frames.find? name.lexeme machine.environment)
  defineIn owner name.lexeme value

/-! ## Functions, classes and instances -/

/-- A function with an identity of its own that closes over a frame. -/
def makeFunction (declaration : FunctionDeclaration) (closure : Nat) (isInitializer : Bool) :
    Eval FunctionValue := do
  return ⟨← freshIdentity, declaration, closure, isInitializer⟩

/-- The methods of a class made in the current frame. Of methods with one name the
last counts. -/
def makeMethods (declarations : List FunctionDeclaration) : Eval (Bindings FunctionValue) := do
  let closure := (← get).environment
  declarations.foldlM (fun methods declaration => do
    let method ← makeFunction declaration closure (declaration.name.lexeme == initializerName)
    return methods.insert declaration.name.lexeme method) ∅

/-- An instance of a class without fields. -/
def makeInstance (owner : ClassValue) : Eval Nat :=
  modifyGet fun machine =>
    (machine.instances.size, { machine with instances := machine.instances.push ⟨owner, ∅⟩ })

/-- A method of an instance: it closes over a frame in which `this` is the instance. -/
def bindMethod (method : FunctionValue) (id : Nat) : Eval FunctionValue := do
  let frame ← pushFrame method.closure
  defineIn frame Keyword.this.spelling (.instance id)
  makeFunction method.declaration frame method.isInitializer

/-- A property of an instance: a field, else a method. -/
def property (id : Nat) (name : Token) : Eval Value := do
  let found := (← get).instances[id]?
  match found.bind (·.fields[name.lexeme]?) with
  | some value => return value
  | none =>
      let method ← require name (.undefinedProperty name.lexeme)
        (found.bind (·.owner.methods[name.lexeme]?))
      return .function (← bindMethod method id)

/-- Set a field of an instance. -/
def setField (id : Nat) (name : Token) (value : Value) : Eval Unit :=
  modify fun machine =>
    { machine with
      instances := machine.instances.modify id fun target =>
        { target with fields := target.fields.insert name.lexeme value } }

/-! ## Operators -/

section Operators

variable {State Closure : Type}

/-- The meaning of a unary operator. -/
def applyUnary (operator : Token) (operand : ValueOf Closure) : Run State (ValueOf Closure) :=
  match operator.kind, operand with
  | .symbol .minus, .number value => pure (.number (-value))
  | .symbol .minus, _ => fail operator .operandNotNumber
  | .symbol .bang, _ => pure (.boolean !operand.isTruthy)
  | _, _ => fail operator .invalidUnaryOperator

/-- The meaning of a binary operator on numbers, if the token is one. -/
def numberOperator? (operator : Token) (left right : Float) : Option (ValueOf Closure) :=
  match operator.kind with
  | .symbol .minus => some (.number (left - right))
  | .symbol .star => some (.number (left * right))
  | .symbol .slash => some (.number (left / right))
  | .symbol .greater => some (.boolean (left > right))
  | .symbol .greaterEqual => some (.boolean (left ≥ right))
  | .symbol .less => some (.boolean (left < right))
  | .symbol .lessEqual => some (.boolean (left ≤ right))
  | _ => none

/-- The meaning of a binary operator. Only numbers and strings add up, anything can
be compared for equality, and the rest is for numbers. -/
def applyBinary (operator : Token) (left right : ValueOf Closure) :
    Run State (ValueOf Closure) :=
  match operator.kind with
  | .symbol .plus =>
      match left, right with
      | .number left, .number right => pure (.number (left + right))
      | .string left, .string right => pure (.string (left ++ right))
      | _, _ => fail operator .operandsNotAddable
  | .symbol .equalEqual => pure (.boolean (left.equals right))
  | .symbol .bangEqual => pure (.boolean !left.equals right)
  | _ =>
      match left, right with
      | .number left, .number right =>
          require operator .invalidBinaryOperator (numberOperator? operator left right)
      | _, _ => fail operator .operandsNotNumbers

end Operators

end Lox.Evaluation
