import Lox.Diagnostic

/-!
Contract: what can be wrong with the syntax of a program.

Owns:
- the marks that the grammar requires at certain places, with the symbol each is;
- the names that it requires;
- `SyntaxFault`, its messages, and `SyntaxError`, a fault at a token.
-/

namespace Lox.Grammar

/-- The two kinds of function declaration. -/
inductive FunctionRole where
  | function
  | method
deriving DecidableEq, Repr

/-- What a function declaration is called in messages. -/
def FunctionRole.noun : FunctionRole → String
  | .function => "function"
  | .method => "method"

/-- A place where the grammar requires a name. -/
inductive NameRole where
  | «class»
  | function (role : FunctionRole)
  | parameter
  | variable
  | property
deriving DecidableEq, Repr

/-- The message for a missing name. -/
def NameRole.message : NameRole → String
  | .class => "Expect class name."
  | .function role => "Expect " ++ role.noun ++ " name."
  | .parameter => "Expect parameter name."
  | .variable => "Expect variable name."
  | .property => "Expect property name after '.'."

/-- A place where the grammar requires a certain symbol. -/
inductive Mark where
  | classOpen
  | classClose
  | parametersOpen (role : FunctionRole)
  | parametersClose
  | bodyOpen (role : FunctionRole)
  | blockClose
  | argumentsClose
  | groupingClose
  | forOpen
  | forConditionEnd
  | forClose
  | ifOpen
  | ifClose
  | whileOpen
  | whileClose
  | varEnd
  | printEnd
  | expressionEnd
  | returnEnd
deriving DecidableEq, Repr

namespace Mark

/-- The symbol that a mark is. -/
def symbol : Mark → Symbol
  | classOpen | bodyOpen _ => .leftBrace
  | classClose | blockClose => .rightBrace
  | parametersOpen _ | forOpen | ifOpen | whileOpen => .leftParen
  | parametersClose | argumentsClose | groupingClose | forClose | ifClose | whileClose =>
      .rightParen
  | forConditionEnd | varEnd | printEnd | expressionEnd | returnEnd => .semicolon

/-- The message for a missing mark. -/
def message : Mark → String
  | classOpen => "Expect '\x7b' before class body."
  | classClose => "Expect '\x7d' after class body."
  | parametersOpen role => "Expect '(' after " ++ role.noun ++ " name."
  | parametersClose => "Expect ')' after parameters."
  | bodyOpen role => "Expect '\x7b' before " ++ role.noun ++ " body."
  | blockClose => "Expect '\x7d' after block."
  | argumentsClose => "Expect ')' after arguments."
  | groupingClose => "Expect ')' after expression."
  | forOpen => "Expect '(' after 'for'."
  | forConditionEnd => "Expect ';' after loop condition."
  | forClose => "Expect ')' after for clauses."
  | ifOpen => "Expect '(' after 'if'."
  | ifClose => "Expect ')' after if condition."
  | whileOpen => "Expect '(' after 'while'."
  | whileClose => "Expect ')' after condition."
  | varEnd => "Expect ';' after variable declaration."
  | printEnd => "Expect ';' after value."
  | expressionEnd => "Expect ';' after expression."
  | returnEnd => "Expect ';' after return value."

end Mark

/-- What is wrong with the syntax of a program. -/
inductive SyntaxFault where
  | missingName (role : NameRole)
  | missingMark (mark : Mark)
  | missingExpression
  /-- Something follows an expression that should be all. -/
  | trailingTokens
  | invalidTarget
  | tooManyArguments
  | tooManyParameters
deriving DecidableEq, Repr

/-- What is wrong, in words. -/
def SyntaxFault.message : SyntaxFault → String
  | .missingName role => role.message
  | .missingMark mark => mark.message
  | .missingExpression => "Expect expression."
  | .trailingTokens => "Expect end of expression."
  | .invalidTarget => "Invalid assignment target."
  | .tooManyArguments => "Can't have more than 255 arguments."
  | .tooManyParameters => "Can't have more than 255 parameters."

/-- A fault of syntax at a token. -/
structure SyntaxError where
  token : Token
  fault : SyntaxFault
deriving DecidableEq

/-- The diagnostic of a syntax error. -/
def SyntaxError.text (error : SyntaxError) : String :=
  Diagnostic.staticText error.token error.fault.message

end Lox.Grammar
