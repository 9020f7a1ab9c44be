import Lox.Number.Text
import Lox.Syntax

/-!
Contract: the two written forms of syntax trees.

Owns:
- the tree form, in which an operator or a word comes before its operands, all
  in parentheses: `Expression.treeForm` and `Statement.treeForm`;
- the source form, an expression as source text with parentheses around every
  compound operand, so that it reads the same at any precedence:
  `Expression.sourceForm`.

Operators and names are written as their lexemes.
-/

namespace Lox

/-- Words in parentheses, with blanks between them. -/
def parenthesized (words : List String) : String :=
  "(" ++ " ".intercalate words ++ ")"

/-- A constant in the tree form. A string stands without quotes. -/
def Literal.treeForm : Literal → String
  | .nil => "nil"
  | .boolean value => toString value
  | .number value => Number.Layout.tree.write value
  | .string contents => contents

/-- A constant in the source form. -/
def Literal.sourceForm : Literal → String
  | .nil => "nil"
  | .boolean value => toString value
  | .number value => Number.Layout.display.write value
  | .string contents => "\"" ++ contents ++ "\""

namespace Expression

mutual

/-- The tree form of an expression. -/
def treeForm : Expression → String
  | .literal _ value => value.treeForm
  | .unary _ operator operand => parenthesized [operator.lexeme, operand.treeForm]
  | .binary _ left operator right | .logical _ left operator right =>
      parenthesized [operator.lexeme, left.treeForm, right.treeForm]
  | .grouping _ inner => parenthesized ["group", inner.treeForm]
  | .variable _ name => name.lexeme
  | .assign _ name value => parenthesized ["=", name.lexeme, value.treeForm]
  | .call _ callee _ arguments =>
      parenthesized ("call" :: callee.treeForm :: treeForms arguments)
  | .get _ object name => parenthesized [".", object.treeForm, name.lexeme]
  | .set _ object name value =>
      parenthesized [".=", object.treeForm, name.lexeme, value.treeForm]
  | .this _ _ => "this"

/-- The tree forms of several expressions. -/
def treeForms : List Expression → List String
  | [] => []
  | expression :: rest => expression.treeForm :: treeForms rest

end

mutual

/-- The source form of an expression. -/
def sourceForm : Expression → String
  | .literal _ value => value.sourceForm
  | .unary _ operator operand => "(" ++ operator.lexeme ++ operand.sourceForm ++ ")"
  | .binary _ left operator right | .logical _ left operator right =>
      parenthesized [left.sourceForm, operator.lexeme, right.sourceForm]
  | .grouping _ inner => "(" ++ inner.sourceForm ++ ")"
  | .variable _ name => name.lexeme
  | .assign _ name value => parenthesized [name.lexeme, "=", value.sourceForm]
  | .call _ callee _ arguments =>
      callee.sourceForm ++ "(" ++ ", ".intercalate (sourceForms arguments) ++ ")"
  | .get _ object name => object.sourceForm ++ "." ++ name.lexeme
  | .set _ object name value =>
      parenthesized [object.sourceForm ++ "." ++ name.lexeme, "=", value.sourceForm]
  | .this _ _ => "this"

/-- The source forms of several expressions. -/
def sourceForms : List Expression → List String
  | [] => []
  | expression :: rest => expression.sourceForm :: sourceForms rest

end

end Expression

/-- The tree form of an optional expression, as the words it takes. -/
def optionalForm (expression : Option Expression) : List String :=
  (expression.map Expression.treeForm).toList

namespace Statement

mutual

/-- The tree form of a statement. -/
def treeForm : Statement → String
  | .expression value => parenthesized [";", value.treeForm]
  | .print value => parenthesized ["print", value.treeForm]
  | .var name initializer => parenthesized ("var" :: name.lexeme :: optionalForm initializer)
  | .block statements => parenthesized ("block" :: treeForms statements)
  | .conditional condition thenBranch none =>
      parenthesized ["if", condition.treeForm, thenBranch.treeForm]
  | .conditional condition thenBranch (some elseBranch) =>
      parenthesized ["if", condition.treeForm, thenBranch.treeForm, elseBranch.treeForm]
  | .loop condition body => parenthesized ["while", condition.treeForm, body.treeForm]
  | .function declaration => functionForm declaration
  | .return _ value => parenthesized ("return" :: optionalForm value)
  | .class name methods => parenthesized ("class" :: name.lexeme :: functionForms methods)

/-- The tree forms of several statements. -/
def treeForms : List Statement → List String
  | [] => []
  | statement :: rest => statement.treeForm :: treeForms rest

/-- The tree form of a function declaration. -/
def functionForm : FunctionOf Statement → String
  | ⟨name, parameters, body⟩ =>
      parenthesized ("fun" :: name.lexeme :: parenthesized (parameters.map Token.lexeme) ::
        treeForms body)

/-- The tree forms of several function declarations. -/
def functionForms : List (FunctionOf Statement) → List String
  | [] => []
  | declaration :: rest => functionForm declaration :: functionForms rest

end

end Statement

end Lox
