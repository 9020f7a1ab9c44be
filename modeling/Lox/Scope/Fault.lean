import Lox.Diagnostic

/-!
Contract: what can be wrong with the names and returns of a program.

Owns: `ScopeFault`, its messages, and `ScopeError`, a fault at a token.
-/

namespace Lox.Scope

/-- What is wrong with a use or a declaration of a name, or with a return. -/
inductive ScopeFault where
  | alreadyDeclared
  | ownInitializer
  | returnOutsideFunction
  | returnFromInitializer
  | thisOutsideClass
deriving DecidableEq, Repr

/-- What is wrong, in words. -/
def ScopeFault.message : ScopeFault → String
  | .alreadyDeclared => "Already a variable with this name in this scope."
  | .ownInitializer => "Can't read local variable in its own initializer."
  | .returnOutsideFunction => "Can't return from top-level code."
  | .returnFromInitializer => "Can't return a value from an initializer."
  | .thisOutsideClass => "Can't use 'this' outside of a class."

/-- A fault of scoping at a token. -/
structure ScopeError where
  token : Token
  fault : ScopeFault
deriving DecidableEq

/-- The diagnostic of a scope error. -/
def ScopeError.text (error : ScopeError) : String :=
  Diagnostic.staticText error.token error.fault.message

end Lox.Scope
