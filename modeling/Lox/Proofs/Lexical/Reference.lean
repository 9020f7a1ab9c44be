import Lox.Proofs.Session.Requests

/-!
Contract: a reference interpreter in which names are resolved by the text alone.

There is no table of distances and no chain of frames. At each place a map gives the
storage cell of every local name that is visible there. A function or a method closes
over the map at the place where it is made, and that map never changes. A name that it
does not hold is a global.

Owns:
- `Names`, `Place` and `Store`;
- the evaluation of expressions, statements, calls and programs on a store;
- `Session`, in which one source unit after another runs on one store.

A local variable is visible in its own initializer, where its cell holds nothing yet.
Operators, the printed form of values, the faults and the fuel are those of `Evaluation`.
-/

namespace Lox.Lexical

open Lox.Evaluation

/-- The cell of each local name that is visible. -/
abbrev Names := Bindings Nat

/-- A value in which a closure is the names it captured. -/
abbrev Value := ValueOf Names

/-- Where code stands: outermost, or where local names may be declared. -/
inductive Place where
  | outermost
  | inside (names : Names)

/-- The local names that are visible at a place. -/
def Place.names : Place → Names
  | outermost => ∅
  | inside names => names

/-- The state of a running program. -/
structure Store where
  /-- The contents of cells. A cell is empty until its variable is initialized. -/
  cells : Array (Option Value)
  globals : Bindings Value
  instances : Array (InstanceOf Names)
  /-- The identity of the next function or class. -/
  nextIdentity : Nat
  /-- How many calls of functions are under way. -/
  depth : Nat
  output : Output
  clock : Clock

/-- A store on which nothing has run. Only the provided functions are defined. -/
def Store.start (output : Output) (time : Nat → Float) : Store where
  cells := #[]
  globals := (∅ : Bindings Value).insert Native.clock.name (.native .clock)
  instances := #[]
  nextIdentity := 0
  depth := 0
  output := output
  clock := ⟨time, 0⟩

/-- A computation on a store. -/
abbrev Eval := Run Store

/-- What a call of a function with matching arguments does, the parenthesis being the
token to blame. -/
abbrev Invoke := FunctionValueOf Names → Token → List Value → Eval Value

/-! ## Steps -/

/-- An identity that no function or class has yet. -/
def freshIdentity : Eval Nat :=
  modifyGet fun store =>
    (store.nextIdentity, { store with nextIdentity := store.nextIdentity + 1 })

/-- The time at a reading of the clock. -/
def readClock : Eval Float :=
  modifyGet fun store =>
    (store.clock.time store.clock.taken,
      { store with clock := { store.clock with taken := store.clock.taken + 1 } })

/-- Print the printed form of a value as a line. -/
def printValue (value : Value) : Eval Unit :=
  modify fun store =>
    { store with output := store.output.print (value.display store.instances) }

/-- A new cell. -/
def newCell (content : Option Value) : Eval Nat :=
  modifyGet fun store => (store.cells.size, { store with cells := store.cells.push content })

/-- Put a value into a cell. -/
def setCell (cell : Nat) (value : Value) : Eval Unit :=
  modify fun store => { store with cells := store.cells.setIfInBounds cell (some value) }

/-- Give a global name a value. -/
def setGlobal (name : String) (value : Value) : Eval Unit :=
  modify fun store => { store with globals := store.globals.insert name value }

/-- Declare a name whose value is computed where the name is visible already. The result
is the place behind the declaration. -/
def declare (place : Place) (name : String) (initial : Place → Eval Value) : Eval Place := do
  match place with
  | .outermost =>
      setGlobal name (← initial .outermost)
      return .outermost
  | .inside names =>
      let cell ← newCell none
      let behind := Place.inside (names.insert name cell)
      setCell cell (← initial behind)
      return behind

/-- The value of a name at a place. -/
def lookUp (place : Place) (name : Token) : Eval Value := do
  match place.names[name.lexeme]? with
  | some cell => require name (.unboundLocal name.lexeme) (← get).cells[cell]?.join
  | none => require name (.undefinedVariable name.lexeme) (← get).globals[name.lexeme]?

/-- Change the value of a name that has one at a place. -/
def assign (place : Place) (name : Token) (value : Value) : Eval Unit := do
  let _ ← lookUp place name
  match place.names[name.lexeme]? with
  | some cell => setCell cell value
  | none => setGlobal name.lexeme value

/-- A function with an identity of its own that closes over names. -/
def makeFunction (declaration : FunctionDeclaration) (closure : Names) (isInitializer : Bool) :
    Eval (FunctionValueOf Names) := do
  return ⟨← freshIdentity, declaration, closure, isInitializer⟩

/-- The methods of a class. Of methods with one name the last counts. -/
def makeMethods (closure : Names) (declarations : List FunctionDeclaration) :
    Eval (Bindings (FunctionValueOf Names)) :=
  declarations.foldlM (fun methods declaration => do
    let method ← makeFunction declaration closure (declaration.name.lexeme == initializerName)
    return methods.insert declaration.name.lexeme method) ∅

/-- An instance of a class without fields. -/
def makeInstance (owner : ClassValueOf Names) : Eval Nat :=
  modifyGet fun store =>
    (store.instances.size, { store with instances := store.instances.push ⟨owner, ∅⟩ })

/-- A method of an instance: it closes over `this` as well. -/
def bindMethod (method : FunctionValueOf Names) (id : Nat) : Eval (FunctionValueOf Names) := do
  let cell ← newCell (some (.instance id))
  makeFunction method.declaration (method.closure.insert Keyword.this.spelling cell)
    method.isInitializer

/-- A property of an instance: a field, else a method. -/
def property (id : Nat) (name : Token) : Eval Value := do
  let found := (← get).instances[id]?
  match found.bind (·.fields[name.lexeme]?) with
  | some value => return value
  | none =>
      let method ← require name (.undefinedProperty name.lexeme)
        (found.bind (·.owner.methods[name.lexeme]?))
      return .function (← bindMethod method id)

/-- Set a field of an instance. -/
def setField (id : Nat) (name : Token) (value : Value) : Eval Unit :=
  modify fun store =>
    { store with
      instances := store.instances.modify id fun target =>
        { target with fields := target.fields.insert name.lexeme value } }

/-! ## Expressions and statements -/

/-- Call a value: a function, or a class, which gives a new instance that its
initializer has been called on. -/
def callValue (invoke : Invoke) (callee : Value) (paren : Token) (arguments : List Value) :
    Eval Value := do
  match callee with
  | .native .clock =>
      checkArity paren Native.clock.arity arguments.length
      return .number (← readClock)
  | .function function =>
      checkArity paren function.arity arguments.length
      invoke function paren arguments
  | .class owner =>
      checkArity paren owner.arity arguments.length
      let id ← makeInstance owner
      if let some initializer := owner.initializer? then
        let _ ← invoke (← bindMethod initializer id) paren arguments
      return .instance id
  | _ => fail paren .notCallable

mutual

/-- Evaluate an expression at a place. -/
def evaluate (invoke : Invoke) (place : Place) : Expression → Eval Value
  | .literal _ value => pure value.toValue
  | .grouping _ inner => evaluate invoke place inner
  | .unary _ operator operand => do
      applyUnary operator (← evaluate invoke place operand)
  | .binary _ left operator right => do
      let left ← evaluate invoke place left
      let right ← evaluate invoke place right
      applyBinary operator left right
  | .logical _ left operator right => do
      let left ← evaluate invoke place left
      if left.isTruthy = operator.isKeyword .or then return left
      else evaluate invoke place right
  | .variable _ name => lookUp place name
  | .this _ keyword => lookUp place keyword
  | .assign _ name value => do
      let value ← evaluate invoke place value
      assign place name value
      return value
  | .call _ callee paren arguments => do
      let callee ← evaluate invoke place callee
      let arguments ← evaluateAll invoke place arguments
      callValue invoke callee paren arguments
  | .get _ object name => do
      match ← evaluate invoke place object with
      | .instance id => property id name
      | _ => fail name .noProperties
  | .set _ object name value => do
      match ← evaluate invoke place object with
      | .instance id =>
          let value ← evaluate invoke place value
          setField id name value
          return value
      | _ => fail name .noFields

/-- Evaluate expressions from left to right. -/
def evaluateAll (invoke : Invoke) (place : Place) : List Expression → Eval (List Value)
  | [] => pure []
  | expression :: rest => do
      let value ← evaluate invoke place expression
      let values ← evaluateAll invoke place rest
      return value :: values

end

/-- Evaluate an expression that may be absent, which gives `nil`. -/
def evaluateOptional (invoke : Invoke) (place : Place) : Option Expression → Eval Value
  | none => pure .nil
  | some expression => evaluate invoke place expression

/-- How a statement that did not fail ended. -/
abbrev Completion := CompletionOf Names

mutual

/-- Execute a statement at a place, with fuel for so many rounds of each loop. The result
has the place behind the statement. -/
def execute (invoke : Invoke) (fuel : Nat) (place : Place) :
    Statement → Eval (Completion × Place)
  | .expression value => do
      let _ ← evaluate invoke place value
      return (.normal, place)
  | .print value => do
      printValue (← evaluate invoke place value)
      return (.normal, place)
  | .var name initializer => do
      let behind ← declare place name.lexeme fun place =>
        evaluateOptional invoke place initializer
      return (.normal, behind)
  | .block statements => do
      return (← executeAll invoke fuel (.inside place.names) statements, place)
  | .conditional condition thenBranch none => do
      if (← evaluate invoke place condition).isTruthy then
        return ((← execute invoke fuel place thenBranch).1, place)
      else
        return (.normal, place)
  | .conditional condition thenBranch (some elseBranch) => do
      if (← evaluate invoke place condition).isTruthy then
        return ((← execute invoke fuel place thenBranch).1, place)
      else
        return ((← execute invoke fuel place elseBranch).1, place)
  | .loop condition body => do
      let round := do return (← execute invoke fuel place body).1
      return (← repeatWhile (evaluate invoke place condition) round fuel, place)
  | .function declaration => do
      let behind ← declare place declaration.name.lexeme fun place => do
        return .function (← makeFunction declaration place.names false)
      return (.normal, behind)
  | .return _ value => do
      return (.returned (← evaluateOptional invoke place value), place)
  | .class name methods => do
      let behind ← declare place name.lexeme fun place => do
        let methods ← makeMethods place.names methods
        return .class ⟨← freshIdentity, name.lexeme, methods⟩
      return (.normal, behind)

/-- Execute statements one after another, up to one that returns. -/
def executeAll (invoke : Invoke) (fuel : Nat) (place : Place) :
    List Statement → Eval Completion
  | [] => pure .normal
  | statement :: rest => do
      match ← execute invoke fuel place statement with
      | (.normal, behind) => executeAll invoke fuel behind rest
      | (.returned value, _) => return .returned value

end

/-! ## Calls and programs -/

/-- Run a computation one call deeper. The call is over however the computation ends. -/
def deeper (computation : Eval α) : Eval α := fun store =>
  match computation { store with depth := store.depth + 1 } with
  | .ok value final => .ok value { final with depth := final.depth - 1 }
  | .error halt final => .error halt { final with depth := final.depth - 1 }

/-- The names visible in the body of a function: each parameter has a new cell that
holds its argument. -/
def bindParameters (names : Names) : List (Token × Value) → Eval Names
  | [] => pure names
  | (parameter, argument) :: rest => do
      bindParameters (names.insert parameter.lexeme (← newCell (some argument))) rest

/-- Call a function whose number of parameters matches the arguments, given how to run
its body. A call of an initializer yields its instance, however it returns. -/
def callFunction (run : Place → List Statement → Eval Completion) : Invoke :=
  fun function paren arguments => do
    if maxDepth ≤ (← get).depth then
      fail paren .stackOverflow
    let names ← bindParameters function.closure (function.declaration.parameters.zip arguments)
    let completion ← deeper (run (.inside names) function.declaration.body)
    if function.isInitializer then
      let cells := (← get).cells
      let this? := function.closure[Keyword.this.spelling]?.bind fun cell => cells[cell]?.join
      return this?.getD .nil
    else
      match completion with
      | .normal => return .nil
      | .returned value => return value

/-- Call a function with fuel for so many nested calls, and in each of them for so many
rounds of each loop. -/
def invoke : Nat → Invoke
  | 0 => fun _ _ _ => throw .outOfFuel
  | fuel + 1 => callFunction (executeAll (invoke fuel) fuel)

/-- Run a program: its statements in order, up to one that returns. -/
def interpret (fuel : Nat) (program : List Statement) : Eval Unit := do
  let _ ← executeAll (invoke fuel) fuel .outermost program

/-! ## Sessions -/

/-- A session: a store, and the first node number not in use. -/
structure Session where
  store : Store
  nextId : Nat

namespace Session

/-- A session that has run nothing. -/
def start (output : Output) (time : Nat → Float) : Session :=
  ⟨Store.start output time, 0⟩

/-- Scan and parse a unit without running it. -/
def parse (source : String) (session : Session) :
    Except (List StaticError) (List Statement) × Session :=
  let (result, nextId) := readUnit source session.nextId
  (result, { session with nextId := nextId })

/-- Execute a program on the store of a session. -/
def execute (fuel : Nat) (program : List Statement) (session : Session) : Outcome × Session :=
  match interpret fuel program session.store with
  | .ok _ store => (.finished, { session with store := store })
  | .error (.fault error) store => (.failed error, { session with store := store })
  | .error .outOfFuel store => (.outOfFuel, { session with store := store })

/-- Run a unit. The static check decides whether it runs, and nothing else. -/
def run (fuel : Nat) (source : String) (session : Session) : Outcome × Session :=
  match session.parse source with
  | (.error errors, session) => (.refused errors, session)
  | (.ok program, session) =>
      match Scope.resolve program with
      | .error errors => (.refused (errors.map .scope), session)
      | .ok _ => session.execute fuel program

/-- Do what is asked for. -/
def serve (session : Session) : Request → Response × Session
  | .parse source =>
      let (result, session) := session.parse source
      (.parsed result, session)
  | .run fuel source =>
      let (outcome, session) := session.run fuel source
      (.ended outcome, session)

/-- Serve requests in order. -/
def serveAll (session : Session) : List Request → List Response × Session
  | [] => ([], session)
  | request :: rest =>
      let (response, session) := session.serve request
      let (responses, session) := session.serveAll rest
      (response :: responses, session)

end Session

end Lox.Lexical
