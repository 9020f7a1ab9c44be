import Lox.Evaluation.Eval

/-!
Contract: the meaning of expressions, statements and programs.

Evaluation follows the syntax tree. What the tree does not bound, calls and loops,
is bounded by fuel: with fuel `n`, calls nest to depth `n` at most, and a loop goes
round `n` times at most. More fuel changes no result that less fuel gives.

Owns:
- `evaluate` and `execute`, given what a call of a function does (`Invoke`);
- `callFunction`, the limit on the depth of calls, and `invoke`, which ties the two
  together;
- `Machine.interpret`, which runs a program.
-/

namespace Lox.Evaluation

/-- What a call of a function with matching arguments does, the parenthesis being
the token to blame. -/
abbrev Invoke := FunctionValue → Token → List Value → Eval Value

/-- How a statement that did not fail ended. -/
inductive CompletionOf (Closure : Type) where
  | normal
  | returned (value : ValueOf Closure)

/-- How a statement that did not fail ended, where closures are frames. -/
abbrev Completion := CompletionOf Nat

/-- Stop if a call has the wrong number of arguments. -/
def checkArity {State : Type} (paren : Token) (expected found : Nat) : Run State Unit :=
  if expected = found then pure ()
  else fail paren (.wrongArgumentCount expected found)

/-- Call a value: a function, or a class, which gives a new instance that its
initializer has been called on. -/
def callValue (invoke : Invoke) (callee : Value) (paren : Token) (arguments : List Value) :
    Eval Value := do
  match callee with
  | .native .clock =>
      checkArity paren Native.clock.arity arguments.length
      return .number (← readClock)
  | .function function =>
      checkArity paren function.arity arguments.length
      invoke function paren arguments
  | .class owner =>
      checkArity paren owner.arity arguments.length
      let id ← makeInstance owner
      if let some initializer := owner.initializer? then
        let _ ← invoke (← bindMethod initializer id) paren arguments
      return .instance id
  | _ => fail paren .notCallable

mutual

/-- Evaluate an expression. -/
def evaluate (invoke : Invoke) : Expression → Eval Value
  | .literal _ value => pure value.toValue
  | .grouping _ inner => evaluate invoke inner
  | .unary _ operator operand => do
      applyUnary operator (← evaluate invoke operand)
  | .binary _ left operator right => do
      let left ← evaluate invoke left
      let right ← evaluate invoke right
      applyBinary operator left right
  | .logical _ left operator right => do
      let left ← evaluate invoke left
      if left.isTruthy = operator.isKeyword .or then return left
      else evaluate invoke right
  | .variable id name => lookUp id name
  | .this id keyword => lookUp id keyword
  | .assign id name value => do
      let value ← evaluate invoke value
      assign id name value
      return value
  | .call _ callee paren arguments => do
      let callee ← evaluate invoke callee
      let arguments ← evaluateAll invoke arguments
      callValue invoke callee paren arguments
  | .get _ object name => do
      match ← evaluate invoke object with
      | .instance id => property id name
      | _ => fail name .noProperties
  | .set _ object name value => do
      match ← evaluate invoke object with
      | .instance id =>
          let value ← evaluate invoke value
          setField id name value
          return value
      | _ => fail name .noFields

/-- Evaluate expressions from left to right. -/
def evaluateAll (invoke : Invoke) : List Expression → Eval (List Value)
  | [] => pure []
  | expression :: rest => do
      let value ← evaluate invoke expression
      let values ← evaluateAll invoke rest
      return value :: values

end

/-- Evaluate an expression that may be absent, which gives `nil`. -/
def evaluateOptional (invoke : Invoke) : Option Expression → Eval Value
  | none => pure .nil
  | some expression => evaluate invoke expression

/-- Repeat a body as long as a condition holds, with fuel for so many rounds. -/
def repeatWhile {State Closure : Type} (condition : Run State (ValueOf Closure))
    (body : Run State (CompletionOf Closure)) : Nat → Run State (CompletionOf Closure)
  | 0 => throw .outOfFuel
  | fuel + 1 => do
      if (← condition).isTruthy then
        match ← body with
        | .normal => repeatWhile condition body fuel
        | .returned value => return .returned value
      else
        return .normal

/-- Define a class in the current frame. Its name is bound while its methods are
made, so that they see the frame that holds it. -/
def defineClass (name : Token) (methods : List FunctionDeclaration) : Eval Unit := do
  define name.lexeme .nil
  let methods ← makeMethods methods
  assignNearest name (.class ⟨← freshIdentity, name.lexeme, methods⟩)

mutual

/-- Execute a statement, with fuel for so many rounds of each loop. -/
def execute (invoke : Invoke) (fuel : Nat) : Statement → Eval Completion
  | .expression value => do
      let _ ← evaluate invoke value
      return .normal
  | .print value => do
      printValue (← evaluate invoke value)
      return .normal
  | .var name initializer => do
      define name.lexeme (← evaluateOptional invoke initializer)
      return .normal
  | .block statements => do
      let frame ← pushFrame (← get).environment
      within frame (executeAll invoke fuel statements)
  | .conditional condition thenBranch none => do
      if (← evaluate invoke condition).isTruthy then execute invoke fuel thenBranch
      else return .normal
  | .conditional condition thenBranch (some elseBranch) => do
      if (← evaluate invoke condition).isTruthy then execute invoke fuel thenBranch
      else execute invoke fuel elseBranch
  | .loop condition body =>
      repeatWhile (evaluate invoke condition) (execute invoke fuel body) fuel
  | .function declaration => do
      let function ← makeFunction declaration (← get).environment false
      define declaration.name.lexeme (.function function)
      return .normal
  | .return _ value => do
      return .returned (← evaluateOptional invoke value)
  | .class name methods => do
      defineClass name methods
      return .normal

/-- Execute statements one after another, up to one that returns. -/
def executeAll (invoke : Invoke) (fuel : Nat) : List Statement → Eval Completion
  | [] => pure .normal
  | statement :: rest => do
      match ← execute invoke fuel statement with
      | .normal => executeAll invoke fuel rest
      | .returned value => return .returned value

end

/-- How many calls of functions may be under way at a time. -/
def maxDepth : Nat := 4096

/-- Run a computation one call deeper. The call is over however the computation
ends. -/
def deeper (computation : Eval α) : Eval α := fun machine =>
  match computation { machine with depth := machine.depth + 1 } with
  | .ok value final => .ok value { final with depth := final.depth - 1 }
  | .error halt final => .error halt { final with depth := final.depth - 1 }

/-- Call a function whose number of parameters matches the arguments, given how to
run its body: in a new frame inside its closure, with the parameters bound. A call
of an initializer yields its instance, however it returns. -/
def callFunction (run : List Statement → Eval Completion) : Invoke :=
  fun function paren arguments => do
    if maxDepth ≤ (← get).depth then
      fail paren .stackOverflow
    let frame ← pushFrame function.closure
    (function.declaration.parameters.zip arguments).forM fun (parameter, argument) =>
      defineIn frame parameter.lexeme argument
    let completion ← deeper (within frame (run function.declaration.body))
    if function.isInitializer then
      let instance? := (← get).frames.lookup? function.closure Keyword.this.spelling
      return instance?.getD .nil
    else
      match completion with
      | .normal => return .nil
      | .returned value => return value

/-- Call a function with fuel for so many nested calls, and in each of them for so
many rounds of each loop. -/
def invoke : Nat → Invoke
  | 0 => fun _ _ _ => throw .outOfFuel
  | fuel + 1 => callFunction (executeAll (invoke fuel) fuel)

/-- Evaluate an expression with fuel for nested calls and loops. -/
def evaluateWith (fuel : Nat) (expression : Expression) : Eval Value :=
  evaluate (invoke fuel) expression

/-- Execute statements in a new scope inside the current one. -/
def executeBlock (fuel : Nat) (statements : List Statement) : Eval Completion :=
  execute (invoke fuel) fuel (.block statements)

/-- Run a program: its statements in order, up to one that returns. -/
def interpret (fuel : Nat) (program : List Statement) : Eval Unit := do
  let _ ← executeAll (invoke fuel) fuel program

end Lox.Evaluation
