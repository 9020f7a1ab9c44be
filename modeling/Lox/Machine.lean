import Lox.Frames
import Lox.Number.Text
import Lox.Scope.Resolve

/-!
Contract: the state of a running program.

Owns:
- `Output`, the lines printed so far, or a sink that takes none;
- `Clock`, the times that readings will give;
- `Machine`, which holds the frames and instances, the current frame, the depth
  of calls and the table of local names;
- the printed form of values.

Does not own: how programs change the state.
-/

namespace Lox

/-- Where printed lines go. -/
inductive Output where
  /-- All lines printed so far. -/
  | open (lines : Array String)
  /-- A sink on which every write fails. -/
  | broken

namespace Output

/-- Print a line. A write that fails changes nothing. -/
def print (line : String) : Output → Output
  | .open lines => .open (lines.push line)
  | .broken => .broken

/-- The lines printed so far. -/
def lines : Output → Array String
  | .open lines => lines
  | .broken => #[]

/-- The text of lines, each with a newline. -/
def textOf (lines : Array String) : String :=
  lines.foldl (fun text line => text ++ line ++ "\n") ""

end Output

/-- The times, in seconds, that one reading after another gives. -/
structure Clock where
  time : Nat → Float
  /-- How many readings have been taken. -/
  taken : Nat

namespace Clock

/-- The times from `start` on, a millionth of a second apart. -/
def ticking (start : Float) (reading : Nat) : Float :=
  start + reading.toFloat / 1000000.0

end Clock

/-- The printed form of a value, given all instances. -/
def ValueOf.display {Closure : Type} (instances : Array (InstanceOf Closure)) :
    ValueOf Closure → String
  | .nil => "nil"
  | .boolean value => toString value
  | .number value => Number.Layout.display.write value
  | .string contents => contents
  | .native _ => "<native fn>"
  | .function value => "<fn " ++ value.name ++ ">"
  | .class value => value.name
  | .instance id => ((instances[id]?.map (·.owner.name)).getD "") ++ " instance"

/-- The state of a running program. -/
structure Machine where
  frames : Frames
  instances : Array Instance
  /-- The identity of the next function or class. -/
  nextIdentity : Nat
  /-- The outermost frame. -/
  globals : Nat
  /-- The frame of the innermost scope that is open. -/
  environment : Nat
  /-- How many calls of functions are under way. -/
  depth : Nat
  /-- How many scopes out each local name is declared. -/
  locals : Scope.Locals
  output : Output
  clock : Clock

namespace Machine

/-- A machine that has run nothing. Only the provided functions are defined. -/
def start (output : Output) (time : Nat → Float) : Machine where
  frames := (Frames.empty.push none).define 0 Native.clock.name (.native .clock)
  instances := #[]
  nextIdentity := 0
  globals := 0
  environment := 0
  depth := 0
  locals := ∅
  output := output
  clock := ⟨time, 0⟩

/-- Add a table of local names. Tables added before stay, as functions made then
may still be called. -/
def addLocals (locals : Scope.Locals) (machine : Machine) : Machine :=
  { machine with locals := locals.foldl (·.insert) machine.locals }

/-- The value of a global name. -/
def global? (machine : Machine) (name : String) : Option Value :=
  machine.frames.lookup? machine.globals name

/-- The printed form of a value. -/
def display (machine : Machine) (value : Value) : String :=
  value.display machine.instances

end Machine

end Lox
