import Lox.Grammar.Expression

/-!
Contract: the grammar of declarations and statements.

    program     -> declaration*
    declaration -> class | "fun" function | var | statement
    class       -> "class" NAME "{" function* "}"
    function    -> NAME "(" parameters? ")" block
    var         -> "var" NAME ( "=" expression )? ";"
    statement   -> for | if | while | return | block | print | expression ";"
    for         -> "for" "(" ( var | expression ";" | ";" )
                   expression? ";" expression? ")" statement
    if          -> "if" "(" expression ")" statement ( "else" statement )?
    while       -> "while" "(" expression ")" statement
    return      -> "return" expression? ";"
    block       -> "{" declaration* "}"
    print       -> "print" expression ";"

Each rule takes the parsers for the declarations and statements inside it, so that
only `statementWithin` and `declarationWithin` are recursive.
-/

namespace Lox.Grammar

open Lox.Grammar.Parser

/-- An expression, unless the given symbol stands in its place. -/
def optionalExpression (absent : Symbol) : Parser (Option Expression) := do
  if ← at? (Token.isSymbol absent) then
    return none
  else
    return some (← expression)

/-- A variable declaration behind `var`. -/
def varDeclaration : Parser Statement := do
  let name ← requireName .variable
  let initializer ← if ← skip? .equal then some <$> expression else pure none
  let _ ← require .varEnd
  return .var name initializer

/-- An expression as a statement. -/
def expressionStatement : Parser Statement := do
  let value ← expression
  let _ ← require .expressionEnd
  return .expression value

/-- A print statement behind `print`. -/
def printStatement : Parser Statement := do
  let value ← expression
  let _ ← require .printEnd
  return .print value

/-- A return statement behind its keyword. -/
def returnStatement (keyword : Token) : Parser Statement := do
  let value ← optionalExpression .semicolon
  let _ ← require .returnEnd
  return .return keyword value

/-- Declarations up to the end or to a token that satisfies a condition. A broken
one is reported and left out. -/
def declarationsUntil (stop : Token → Bool) (declaration : Parser (Option Statement)) :
    Nat → Parser (List Statement)
  | 0 => return []
  | bound + 1 => do
      if (← atEnd) || (← at? stop) then
        return []
      else
        let found ← declaration
        let following ← declarationsUntil stop declaration bound
        return found.toList ++ following

/-- The declarations of a block behind its opening brace. -/
def block (declaration : Parser (Option Statement)) : Parser (List Statement) := do
  let statements ← declarationsUntil (Token.isSymbol .rightBrace) declaration (← get).bound
  let _ ← require .blockClose
  return statements

/-- A function or method from its name on. -/
def function (declaration : Parser (Option Statement)) (role : FunctionRole) :
    Parser FunctionDeclaration := do
  let name ← requireName (.function role)
  let _ ← require (.parametersOpen role)
  let (parameters, _) ← listUpTo .parametersClose (requireName .parameter) .tooManyParameters
  let _ ← require (.bodyOpen role)
  return ⟨name, parameters, ← block declaration⟩

/-- Methods up to the closing brace of a class. -/
def methodsFrom (declaration : Parser (Option Statement)) :
    Nat → Parser (List FunctionDeclaration)
  | 0 => return []
  | bound + 1 => do
      if (← atEnd) || (← at? (Token.isSymbol .rightBrace)) then
        return []
      else
        let method ← function declaration .method
        return method :: (← methodsFrom declaration bound)

/-- A class behind `class`. -/
def classDeclaration (declaration : Parser (Option Statement)) : Parser Statement := do
  let name ← requireName .class
  let _ ← require .classOpen
  let methods ← methodsFrom declaration (← get).bound
  let _ ← require .classClose
  return .class name methods

/-- A declaration or a statement. -/
def declared (declaration : Parser (Option Statement)) (statement : Parser Statement) :
    Parser Statement := do
  if ← skipKeyword? .class then
    classDeclaration declaration
  else if ← skipKeyword? .fun then
    return .function (← function declaration .function)
  else if ← skipKeyword? .var then
    varDeclaration
  else
    statement

/-- A conditional behind `if`; an `else` belongs to the nearest one. -/
def ifStatement (nested : Parser Statement) : Parser Statement := do
  let _ ← require .ifOpen
  let condition ← expression
  let _ ← require .ifClose
  let thenBranch ← nested
  let elseBranch ← if ← skipKeyword? .else then some <$> nested else pure none
  return .conditional condition thenBranch elseBranch

/-- A loop behind `while`. -/
def whileStatement (nested : Parser Statement) : Parser Statement := do
  let _ ← require .whileOpen
  let condition ← expression
  let _ ← require .whileClose
  return .loop condition (← nested)

/-- The loop that a `for` statement stands for: the increment follows the body,
and the initializer comes before the loop in a block around both. -/
def forLoop (initializer : Option Statement) (condition : Expression)
    (increment : Option Expression) (body : Statement) : Statement :=
  let round :=
    match increment with
    | some increment => .block [body, .expression increment]
    | none => body
  match initializer with
  | some initializer => .block [initializer, .loop condition round]
  | none => .loop condition round

/-- What a `for` loop starts with, up to the first semicolon. -/
def forInitializer : Parser (Option Statement) := do
  if ← skip? .semicolon then
    return none
  else if ← skipKeyword? .var then
    return some (← varDeclaration)
  else
    return some (← expressionStatement)

/-- A loop behind `for`. An absent condition holds always. -/
def forStatement (nested : Parser Statement) : Parser Statement := do
  let _ ← require .forOpen
  let initializer ← forInitializer
  let condition ← optionalExpression .semicolon
  let _ ← require .forConditionEnd
  let increment ← optionalExpression .rightParen
  let _ ← require .forClose
  let body ← nested
  let condition ←
    match condition with
    | some condition => pure condition
    | none => node (.literal · (.boolean true))
  return forLoop initializer condition increment body

/-- A statement, given the parsers for the declarations and statements inside. -/
def statementOf (declaration : Parser (Option Statement)) (nested : Parser Statement) :
    Parser Statement := do
  if ← skipKeyword? .for then
    forStatement nested
  else if ← skipKeyword? .if then
    ifStatement nested
  else if ← skipKeyword? .while then
    whileStatement nested
  else if let some keyword ← take? (Token.isKeyword .return) then
    returnStatement keyword
  else if ← skip? .leftBrace then
    return .block (← block declaration)
  else if ← skipKeyword? .print then
    printStatement
  else
    expressionStatement

mutual

/-- A statement in which statements nest to at most the given depth. -/
def statementWithin : Nat → Parser Statement
  | 0 => failHere .missingExpression
  | depth + 1 => statementOf (declarationWithin depth) (statementWithin depth)
termination_by structural depth => depth

/-- A declaration in which statements nest to at most the given depth. -/
def declarationWithin : Nat → Parser (Option Statement)
  | 0 => recover (failHere .missingExpression)
  | depth + 1 =>
      recover (declared (declarationWithin depth)
        (statementOf (declarationWithin depth) (statementWithin depth)))
termination_by structural depth => depth

end

end Lox.Grammar
