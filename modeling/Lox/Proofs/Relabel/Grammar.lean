import Lox.Proofs.Relabel.Trees

/-!
Contract: other tokens read as the same tree with other tokens.

Owns: `Reads.relabel`. The numbers of the nodes may start elsewhere.
-/

namespace Lox

namespace Relabelling

variable (labels : Relabelling) (token : Token)

@[simp] theorem isSymbol_token (symbol : Symbol) :
    (labels.token token).isSymbol symbol = token.isSymbol symbol := by
  unfold Token.isSymbol
  rw [labels.kind]

@[simp] theorem isKeyword_token (keyword : Keyword) :
    (labels.token token).isKeyword keyword = token.isKeyword keyword := by
  unfold Token.isKeyword
  rw [labels.kind]

@[simp] theorem isIdentifier_token :
    (labels.token token).isIdentifier = token.isIdentifier := by
  unfold Token.isIdentifier
  rw [labels.kind]

@[simp] theorem isEof_token : (labels.token token).isEof = token.isEof := by
  unfold Token.isEof
  rw [labels.kind]

@[simp] theorem isUnaryOperator_token :
    Grammar.isUnaryOperator (labels.token token) = Grammar.isUnaryOperator token := by
  simp [Grammar.isUnaryOperator]

@[simp] theorem isOperator_token (level : Grammar.BinaryLevel) :
    level.isOperator (labels.token token) = level.isOperator token := by
  cases level <;> simp [Grammar.BinaryLevel.isOperator]

end Relabelling

variable (labels : Relabelling)

namespace Grammar

/-- A phrase with other tokens and numbers. -/
@[simp] def Phrase.relabel : Phrase → Phrase
  | expression level value => expression level (value.relabel labels)
  | operations level left value => operations level (left.relabel labels) (value.relabel labels)
  | accesses left value => accesses (left.relabel labels) (value.relabel labels)
  | items values => items (Expression.relabelAll labels values)
  | arguments values => arguments (Expression.relabelAll labels values)
  | parameters names => parameters (names.map labels.token)
  | optional value => optional (value.map (Expression.relabel labels))
  | «variable» declared => .variable (declared.relabel labels)
  | initializer declared => initializer (declared.map (Statement.relabel labels))
  | statement dangling whole => statement dangling (whole.relabel labels)
  | declaration dangling whole => declaration dangling (whole.relabel labels)
  | declarations statements => declarations (Statement.relabelAll labels statements)
  | function declared => function (Statement.relabelFunction labels declared)
  | functions declared => functions (Statement.relabelFunctions labels declared)

@[simp] theorem make_relabel (level : BinaryLevel) (id : Nat) (left right : Expression)
    (operator : Token) :
    (level.make id left operator right).relabel labels =
      level.make (labels.number id) (left.relabel labels) (labels.token operator)
        (right.relabel labels) := by
  cases level <;> rfl

@[simp] theorem forRound_relabel (increment : Option Expression) (body : Statement) :
    (forRound increment body).relabel labels =
      forRound (increment.map (Expression.relabel labels)) (body.relabel labels) := by
  cases increment <;> rfl

@[simp] theorem forScope_relabel (initializer : Option Statement) (loop : Statement) :
    (forScope initializer loop).relabel labels =
      forScope (initializer.map (Statement.relabel labels)) (loop.relabel labels) := by
  cases initializer <;> rfl

variable {labels}

theorem forCondition_relabel (step : ∀ id, labels.number (id + 1) = labels.number id + 1)
    (condition : Option Expression) (id : Nat) :
    forCondition (condition.map (Expression.relabel labels)) (labels.number id) =
      ((forCondition condition id).1.relabel labels,
        labels.number (forCondition condition id).2) := by
  cases condition with
  | none => simp [forCondition, Expression.relabel, step]
  | some condition => rfl

/-- What reads as a phrase reads, with other tokens, as that phrase with other tokens. By
induction on the reading. -/
theorem Reads.relabel (step : ∀ id, labels.number (id + 1) = labels.number id + 1)
    {word : List Token} {first next : Nat} {phrase : Phrase}
    (read : Reads word first phrase next) :
    Reads (word.map labels.token) (labels.number first) (phrase.relabel labels)
      (labels.number next) := by
  induction read with
  | literal isLiteral =>
      rw [step]
      exact .literal (by rwa [labels.kind])
  | this isThis =>
      rw [step]
      exact .this (by simpa using isThis)
  | name isName =>
      rw [step]
      exact .name (by simpa using isName)
  | grouping isLeft _ isRight inner =>
      rw [step]
      simpa using Reads.grouping (by simpa using isLeft) inner (by simpa using isRight)
  | noAccess => exact .noAccess
  | call isLeft _ few isRight _ arguments rest =>
      rw [step] at rest
      simpa using Reads.call (by simpa using isLeft) arguments (by simpa using few)
        (by simpa using isRight) rest
  | get isDot isName _ rest =>
      rw [step] at rest
      simpa using Reads.get (by simpa using isDot) (by simpa using isName) rest
  | accessed _ _ object accesses => simpa using Reads.accessed object accesses
  | noArguments => exact .noArguments
  | someArguments _ items => exact .someArguments items
  | lastItem _ item => exact .lastItem item
  | nextItem _ isComma _ item items =>
      simpa using Reads.nextItem item (by simpa using isComma) items
  | notNegated _ operand => exact .notNegated operand
  | negated isOperator _ operand =>
      rw [step]
      exact .negated (by simpa using isOperator) operand
  | noOperation => exact .noOperation
  | operation isOperator _ _ operand rest =>
      rw [step] at rest
      simp only [Phrase.relabel, make_relabel] at rest
      simpa using Reads.operation (by simpa using isOperator) operand rest
  | binary _ _ operand operations => simpa using Reads.binary operand operations
  | notAssigned _ value => exact .notAssigned value
  | assigned isName isEqual _ value =>
      rw [step] at value ⊢
      exact .assigned (by simpa using isName) (by simpa using isEqual) value
  | propertyAssigned _ isDot isName isEqual _ object value =>
      rw [step] at value ⊢
      simpa using Reads.propertyAssigned object (by simpa using isDot) (by simpa using isName)
        (by simpa using isEqual) value
  | absent => exact .absent
  | present _ value => exact .present value
  | uninitialized isName isEnd =>
      exact .uninitialized (by simpa using isName) (by simpa using isEnd)
  | initialized isName isEqual _ isEnd value =>
      simpa using Reads.initialized (by simpa using isName) (by simpa using isEqual) value
        (by simpa using isEnd)
  | noInitializer isEnd => exact .noInitializer (by simpa using isEnd)
  | variableInitializer isVar _ declared =>
      exact .variableInitializer (by simpa using isVar) declared
  | expressionInitializer _ isEnd value =>
      simpa using Reads.expressionInitializer value (by simpa using isEnd)
  | expression _ isEnd value => simpa using Reads.expression value (by simpa using isEnd)
  | «for» isFor isLeft _ _ isEnd _ isRight _ initializer condition increment body =>
      rw [← labels.isKeyword_token] at isFor
      rw [← labels.isSymbol_token] at isLeft isEnd isRight
      have read := Reads.for isFor isLeft initializer condition isEnd increment isRight body
      rw [forCondition_relabel step] at read
      simpa using read
  | «if» isIf isLeft _ isRight _ condition body =>
      simpa using Reads.if (by simpa using isIf) (by simpa using isLeft) condition
        (by simpa using isRight) body
  | ifElse isIf isLeft _ isRight _ isElse _ condition thenBranch elseBranch =>
      simpa using Reads.ifElse (by simpa using isIf) (by simpa using isLeft) condition
        (by simpa using isRight) thenBranch (by simpa using isElse) elseBranch
  | print isPrint _ isEnd value =>
      simpa using Reads.print (by simpa using isPrint) value (by simpa using isEnd)
  | «return» isReturn _ isEnd value =>
      simpa using Reads.return (by simpa using isReturn) value (by simpa using isEnd)
  | «while» isWhile isLeft _ isRight _ condition body =>
      simpa using Reads.while (by simpa using isWhile) (by simpa using isLeft) condition
        (by simpa using isRight) body
  | block isLeft _ isRight declarations =>
      simpa using Reads.block (by simpa using isLeft) declarations (by simpa using isRight)
  | noParameters => exact .noParameters
  | lastParameter isName => exact .lastParameter (by simpa using isName)
  | nextParameter isName isComma _ names =>
      exact .nextParameter (by simpa using isName) (by simpa using isComma) names
  | function isName isLeft _ few isRight isOpening _ isClosing parameters body =>
      simpa using Reads.function (by simpa using isName) (by simpa using isLeft) parameters
        (by simpa using few) (by simpa using isRight) (by simpa using isOpening) body
        (by simpa using isClosing)
  | noFunction => exact .noFunction
  | nextFunction _ _ function functions => simpa using Reads.nextFunction function functions
  | classDeclaration isClass isName isOpening _ isClosing methods =>
      simpa using Reads.classDeclaration (by simpa using isClass) (by simpa using isName)
        (by simpa using isOpening) methods (by simpa using isClosing)
  | functionDeclaration isFun _ function =>
      exact .functionDeclaration (by simpa using isFun) function
  | variableDeclaration isVar _ declared =>
      exact .variableDeclaration (by simpa using isVar) declared
  | statement _ statement => exact .statement statement
  | noDeclaration => exact .noDeclaration
  | nextDeclaration _ _ declaration declarations =>
      simpa using Reads.nextDeclaration declaration declarations

end Grammar

end Lox
