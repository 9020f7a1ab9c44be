import Lox.Diagnostic

/-!
Contract: what can go wrong while a program runs.

Owns: `RuntimeFault`, its messages, and `RuntimeError`, a fault at a token.
-/

namespace Lox.Evaluation

/-- What went wrong. -/
inductive RuntimeFault where
  | operandNotNumber
  | operandsNotNumbers
  | operandsNotAddable
  /-- The token of a unary expression is no unary operator. -/
  | invalidUnaryOperator
  /-- The token of a binary expression is no binary operator. -/
  | invalidBinaryOperator
  /-- No frame from the globals outward binds the name. -/
  | undefinedVariable (name : String)
  /-- The frame in which a local name is declared does not bind it. -/
  | unboundLocal (name : String)
  | undefinedProperty (name : String)
  | noProperties
  | noFields
  | wrongArgumentCount (expected found : Nat)
  | notCallable
  | stackOverflow
deriving DecidableEq, Repr

/-- What went wrong, in words. -/
def RuntimeFault.message : RuntimeFault → String
  | .operandNotNumber => "Operand must be a number."
  | .operandsNotNumbers => "Operands must be numbers."
  | .operandsNotAddable => "Operands must be two numbers or two strings."
  | .invalidUnaryOperator => "Invalid unary operator."
  | .invalidBinaryOperator => "Invalid binary operator."
  | .undefinedVariable name | .unboundLocal name => "Undefined variable '" ++ name ++ "'."
  | .undefinedProperty name => "Undefined property '" ++ name ++ "'."
  | .noProperties => "Only instances have properties."
  | .noFields => "Only instances have fields."
  | .wrongArgumentCount expected found =>
      "Expected " ++ toString expected ++ " arguments but got " ++ toString found ++ "."
  | .notCallable => "Can only call functions and classes."
  | .stackOverflow => "Stack overflow."

/-- A fault at the token to blame. -/
structure RuntimeError where
  token : Token
  fault : RuntimeFault
deriving DecidableEq

/-- The diagnostic of a runtime error. -/
def RuntimeError.text (error : RuntimeError) : String :=
  Diagnostic.runtimeText error.token error.fault.message

end Lox.Evaluation
