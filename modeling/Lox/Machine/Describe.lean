import Lox.Machine
import Lox.Text.Quoted

/-!
Contract: what functions and instances look like from inside.

Owns: the descriptions of functions and of instances, which name the parts that
their printed form leaves out.
-/

namespace Lox

/-- A description: a name, and named parts in braces. -/
def describe (name : String) (parts : List (String × String)) : String :=
  name ++ " \x7b " ++ ", ".intercalate (parts.map fun (part, text) => part ++ ": " ++ text) ++
    " \x7d"

/-- A function with its name, its arity, and whether it is an initializer. -/
def FunctionValueOf.describe {Closure : Type} (function : FunctionValueOf Closure) : String :=
  Lox.describe "LoxFunction"
    [("name", Text.quoted function.name), ("arity", toString function.arity),
      ("is_initializer", toString function.isInitializer)]

/-- An instance with the name of its class and the names of its fields, in order. -/
def Instance.describe (target : Instance) : String :=
  Lox.describe "LoxInstance"
    [("class", Text.quoted target.owner.name),
      ("fields", "[" ++ ", ".intercalate (target.fields.keys.map Text.quoted) ++ "]")]

end Lox
