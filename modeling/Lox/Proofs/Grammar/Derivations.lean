import Lox.Proofs.Grammar.Trees

/-!
Contract: the words of the grammar are the words that read as trees.

Owns:
- `Reads.word`: what reads as a phrase is a word of the nonterminal of that phrase;
- `Word.readable`: a word of a nonterminal reads as one of its phrases, whatever number
  its nodes start from.

The grammar lets an `else` belong to any `if` before it, and a tree only to the nearest.
Where a word gives it to another `if`, the one it reads as has the `else` moved inward.
-/

namespace Lox.Grammar

/-! ### From trees to words -/

/-- By induction on the reading: each way to read is an alternative of the grammar. -/
theorem Reads.word {word : List Token} {first next : Nat} {phrase : Phrase}
    (read : Reads word first phrase next) : Word phrase.nonterminal word := by
  induction read with
  | literal isLiteral => exact Word.literal isLiteral
  | this isThis => exact Word.this isThis
  | name isName => exact Word.name isName
  | grouping isLeft _ isRight inner => exact Word.grouping isLeft inner isRight
  | noAccess => exact Word.noAccess
  | call isLeft _ few isRight _ arguments rest => exact Word.call isLeft arguments few isRight rest
  | get isDot isName _ rest => exact Word.get isDot isName rest
  | accessed _ _ object accesses => exact Word.accessed object accesses
  | noArguments => exact Word.noArguments
  | someArguments _ items => exact Word.someArguments items
  | lastItem _ item => exact Word.lastItem item
  | nextItem _ isComma _ item items => exact Word.nextItem item isComma items
  | notNegated _ operand => exact Word.notNegated operand
  | negated isOperator _ operand => exact Word.negated isOperator operand
  | noOperation => exact Word.noOperation
  | operation isOperator _ _ operand rest => exact Word.operation isOperator operand rest
  | binary _ _ operand operations => exact Word.binary operand operations
  | notAssigned _ value => exact Word.notAssigned value
  | assigned isName isEqual _ value => exact Word.assigned isName isEqual value
  | propertyAssigned _ isDot isName isEqual _ object value =>
      exact Word.propertyAssigned object isDot isName isEqual value
  | absent => exact Word.absent
  | present _ value => exact Word.present value
  | uninitialized isName isEnd => exact Word.uninitialized isName isEnd
  | initialized isName isEqual _ isEnd value => exact Word.initialized isName isEqual value isEnd
  | noInitializer isEnd => exact Word.noInitializer isEnd
  | variableInitializer isVar _ declared => exact Word.variableInitializer isVar declared
  | expressionInitializer _ isEnd value => exact Word.expressionInitializer value isEnd
  | expression _ isEnd value => exact Word.expression value isEnd
  | «for» isFor isLeft _ _ isEnd _ isRight _ initializer condition increment body =>
      exact Word.for isFor isLeft initializer condition isEnd increment isRight body
  | «if» isIf isLeft _ isRight _ condition body =>
      exact Word.if isIf isLeft condition isRight body
  | ifElse isIf isLeft _ isRight _ isElse _ condition thenBranch elseBranch =>
      exact Word.ifElse isIf isLeft condition isRight thenBranch isElse elseBranch
  | print isPrint _ isEnd value => exact Word.print isPrint value isEnd
  | «return» isReturn _ isEnd value => exact Word.return isReturn value isEnd
  | «while» isWhile isLeft _ isRight _ condition body =>
      exact Word.while isWhile isLeft condition isRight body
  | block isLeft _ isRight declarations => exact Word.block isLeft declarations isRight
  | noParameters => exact Word.noParameters
  | lastParameter isName => exact Word.lastParameter isName
  | nextParameter isName isComma _ names => exact Word.nextParameter isName isComma names
  | function isName isLeft _ few isRight isOpening _ isClosing names body =>
      exact Word.function isName isLeft names few isRight isOpening body isClosing
  | noFunction => exact Word.noFunction
  | nextFunction _ _ function functions => exact Word.nextFunction function functions
  | classDeclaration isClass isName isOpening _ isClosing methods =>
      exact Word.classDeclaration isClass isName isOpening methods isClosing
  | functionDeclaration isFun _ function => exact Word.functionDeclaration isFun function
  | variableDeclaration isVar _ declared => exact Word.variableDeclaration isVar declared
  | statement _ statement => exact Word.statement statement
  | noDeclaration => exact Word.noDeclaration
  | nextDeclaration _ _ declaration declarations =>
      exact Word.nextDeclaration declaration declarations

/-! ### From words to trees -/

/-- A statement that ends with a dangling `if` takes an `else` behind it, which goes to the
innermost such `if`. -/
theorem Reads.attachElse {word rest : List Token} {first next : Nat} {statement : Statement}
    {separator : Token} (read : Reads word first (.statement true statement) next)
    (isElse : separator.isKeyword .else)
    (elseRead : ∀ first, ∃ dangling statement next,
      Reads rest first (.statement dangling statement) next) :
    ∃ dangling whole last,
      Reads (word ++ separator :: rest) first (.statement dangling whole) last := by
  generalize same : Phrase.statement true statement = phrase at read
  induction read generalizing statement with
  | @«if» keyword left right front back condition dangling body start middle next isIf isLeft
      conditionRead isRight bodyRead _ inductionHypothesis =>
      cases dangling with
      | false =>
          obtain ⟨dangling, elseBranch, last, read⟩ := elseRead next
          exact ⟨dangling, _, last, by
            simpa using Reads.ifElse isIf isLeft conditionRead isRight bodyRead isElse read⟩
      | true =>
          obtain ⟨dangling, whole, last, read⟩ := inductionHypothesis rfl
          exact ⟨true, _, last, by
            simpa using Reads.if isIf isLeft conditionRead isRight read⟩
  | ifElse isIf isLeft conditionRead isRight thenRead isInnerElse _ _ _ inductionHypothesis =>
      cases same
      obtain ⟨dangling, whole, last, read⟩ := inductionHypothesis rfl
      exact ⟨dangling, _, last, by
        simpa using Reads.ifElse isIf isLeft conditionRead isRight thenRead isInnerElse read⟩
  | «while» isWhile isLeft conditionRead isRight _ _ inductionHypothesis =>
      cases same
      obtain ⟨dangling, whole, last, read⟩ := inductionHypothesis rfl
      exact ⟨dangling, _, last, by
        simpa using Reads.while isWhile isLeft conditionRead isRight read⟩
  | «for» isFor isLeft initializerRead conditionRead isEnd incrementRead isRight _ _ _ _
      inductionHypothesis =>
      cases same
      obtain ⟨dangling, whole, last, read⟩ := inductionHypothesis rfl
      exact ⟨dangling, _, _, by
        simpa using Reads.for isFor isLeft initializerRead conditionRead isEnd incrementRead
          isRight read⟩
  | _ => cases same

/-- A word of a nonterminal reads as one of its phrases, from any number on. Operations and
accesses do so behind any expression. -/
def Readable (word : List Token) : Nonterminal → Prop
  | .expression level => ∀ first, ∃ value next, Reads word first (.expression level value) next
  | .operations level =>
      ∀ first left, ∃ value next, Reads word first (.operations level left value) next
  | .accesses => ∀ first left, ∃ value next, Reads word first (.accesses left value) next
  | .items count =>
      ∀ first, ∃ values next, values.length = count ∧ Reads word first (.items values) next
  | .arguments count =>
      ∀ first, ∃ values next, values.length = count ∧ Reads word first (.arguments values) next
  | .parameters count =>
      ∀ first, ∃ names, names.length = count ∧ Reads word first (.parameters names) first
  | .optional => ∀ first, ∃ value next, Reads word first (.optional value) next
  | .variable => ∀ first, ∃ statement next, Reads word first (.variable statement) next
  | .initializer => ∀ first, ∃ statement next, Reads word first (.initializer statement) next
  | .statement =>
      ∀ first, ∃ dangling statement next, Reads word first (.statement dangling statement) next
  | .declaration =>
      ∀ first, ∃ dangling statement next, Reads word first (.declaration dangling statement) next
  | .declarations => ∀ first, ∃ statements next, Reads word first (.declarations statements) next
  | .function => ∀ first, ∃ function next, Reads word first (.function function) next
  | .functions => ∀ first, ∃ functions next, Reads word first (.functions functions) next

/-- An `if` with an `else` behind its branch. The `else` may have to go to an `if` inside the
branch. -/
theorem readable_ifElse {keyword left right separator : Token} {word₁ word₂ word₃ : List Token}
    (isIf : keyword.isKeyword .if) (isLeft : left.isSymbol .leftParen)
    (condition : Readable word₁ (.expression .assignment)) (isRight : right.isSymbol .rightParen)
    (thenBranch : Readable word₂ .statement) (isElse : separator.isKeyword .else)
    (elseBranch : Readable word₃ .statement) :
    Readable (keyword :: left :: word₁ ++ right :: word₂ ++ separator :: word₃) .statement := by
  intro first
  obtain ⟨condition, second, conditionRead⟩ := condition first
  obtain ⟨dangling, thenBranch, third, thenRead⟩ := thenBranch second
  cases dangling with
  | false =>
      obtain ⟨dangling, elseBranch, last, elseRead⟩ := elseBranch third
      exact ⟨dangling, _, last,
        Reads.ifElse isIf isLeft conditionRead isRight thenRead isElse elseRead⟩
  | true =>
      obtain ⟨dangling, body, last, bodyRead⟩ := thenRead.attachElse isElse elseBranch
      exact ⟨true, _, last, by simpa using Reads.if isIf isLeft conditionRead isRight bodyRead⟩

/-- By induction on the word, reading its parts one behind the other. -/
theorem Word.readable {nonterminal : Nonterminal} {word : List Token}
    (derived : Word nonterminal word) : Readable word nonterminal := by
  induction derived with
  | literal isLiteral => exact fun first => ⟨_, _, Reads.literal isLiteral⟩
  | this isThis => exact fun first => ⟨_, _, Reads.this isThis⟩
  | name isName => exact fun first => ⟨_, _, Reads.name isName⟩
  | grouping isLeft _ isRight inner =>
      intro first
      obtain ⟨value, next, read⟩ := inner first
      exact ⟨_, _, Reads.grouping isLeft read isRight⟩
  | noAccess => exact fun first left => ⟨left, first, Reads.noAccess⟩
  | @call _ right _ _ _ isLeft _ few isRight _ arguments rest =>
      intro first callee
      obtain ⟨values, middle, rfl, read⟩ := arguments first
      obtain ⟨value, next, restRead⟩ := rest (middle + 1) (.call middle callee right values)
      exact ⟨value, next, Reads.call isLeft read few isRight restRead⟩
  | @get _ name _ isDot isName _ rest =>
      intro first object
      obtain ⟨value, next, read⟩ := rest (first + 1) (.get first object name)
      exact ⟨value, next, Reads.get isDot isName read⟩
  | accessed _ _ object accesses =>
      intro first
      obtain ⟨left, middle, read⟩ := object first
      obtain ⟨value, next, accessesRead⟩ := accesses middle left
      exact ⟨value, next, Reads.accessed read accessesRead⟩
  | noArguments => exact fun first => ⟨[], first, rfl, Reads.noArguments⟩
  | someArguments _ items =>
      intro first
      obtain ⟨values, next, counted, read⟩ := items first
      exact ⟨values, next, counted, Reads.someArguments read⟩
  | lastItem _ item =>
      intro first
      obtain ⟨value, next, read⟩ := item first
      exact ⟨[value], next, rfl, Reads.lastItem read⟩
  | nextItem _ isComma _ item items =>
      intro first
      obtain ⟨value, middle, read⟩ := item first
      obtain ⟨values, next, rfl, itemsRead⟩ := items middle
      exact ⟨value :: values, next, rfl, Reads.nextItem read isComma itemsRead⟩
  | notNegated _ operand =>
      intro first
      obtain ⟨value, next, read⟩ := operand first
      exact ⟨value, next, Reads.notNegated read⟩
  | negated isOperator _ operand =>
      intro first
      obtain ⟨value, next, read⟩ := operand first
      exact ⟨_, _, Reads.negated isOperator read⟩
  | noOperation => exact fun first left => ⟨left, first, Reads.noOperation⟩
  | @operation level operator _ _ isOperator _ _ operand rest =>
      intro first left
      obtain ⟨right, middle, read⟩ := operand first
      obtain ⟨value, next, restRead⟩ := rest (middle + 1) (level.make middle left operator right)
      exact ⟨value, next, Reads.operation isOperator read restRead⟩
  | binary _ _ operand operations =>
      intro first
      obtain ⟨left, middle, read⟩ := operand first
      obtain ⟨value, next, operationsRead⟩ := operations middle left
      exact ⟨value, next, Reads.binary read operationsRead⟩
  | notAssigned _ value =>
      intro first
      obtain ⟨value, next, read⟩ := value first
      exact ⟨value, next, Reads.notAssigned read⟩
  | assigned isName isEqual _ value =>
      intro first
      obtain ⟨value, next, read⟩ := value (first + 1)
      exact ⟨_, _, Reads.assigned isName isEqual read⟩
  | propertyAssigned _ isDot isName isEqual _ object value =>
      intro first
      obtain ⟨object, middle, objectRead⟩ := object first
      obtain ⟨value, next, read⟩ := value (middle + 1)
      exact ⟨_, _, Reads.propertyAssigned objectRead isDot isName isEqual read⟩
  | absent => exact fun first => ⟨none, first, Reads.absent⟩
  | present _ value =>
      intro first
      obtain ⟨value, next, read⟩ := value first
      exact ⟨some value, next, Reads.present read⟩
  | uninitialized isName isEnd => exact fun first => ⟨_, first, Reads.uninitialized isName isEnd⟩
  | initialized isName isEqual _ isEnd value =>
      intro first
      obtain ⟨value, next, read⟩ := value first
      exact ⟨_, next, Reads.initialized isName isEqual read isEnd⟩
  | noInitializer isEnd => exact fun first => ⟨none, first, Reads.noInitializer isEnd⟩
  | variableInitializer isVar _ declared =>
      intro first
      obtain ⟨declared, next, read⟩ := declared first
      exact ⟨some declared, next, Reads.variableInitializer isVar read⟩
  | expressionInitializer _ isEnd value =>
      intro first
      obtain ⟨value, next, read⟩ := value first
      exact ⟨_, next, Reads.expressionInitializer read isEnd⟩
  | expression _ isEnd value =>
      intro first
      obtain ⟨value, next, read⟩ := value first
      exact ⟨false, _, next, Reads.expression read isEnd⟩
  | «for» isFor isLeft _ _ isEnd _ isRight _ initializer condition increment body =>
      intro first
      obtain ⟨initializer, second, initializerRead⟩ := initializer first
      obtain ⟨condition, third, conditionRead⟩ := condition second
      obtain ⟨increment, fourth, incrementRead⟩ := increment third
      obtain ⟨dangling, body, last, bodyRead⟩ := body fourth
      exact ⟨dangling, _, _, Reads.for isFor isLeft initializerRead conditionRead isEnd
        incrementRead isRight bodyRead⟩
  | «if» isIf isLeft _ isRight _ condition body =>
      intro first
      obtain ⟨condition, middle, conditionRead⟩ := condition first
      obtain ⟨dangling, body, next, bodyRead⟩ := body middle
      exact ⟨true, _, next, Reads.if isIf isLeft conditionRead isRight bodyRead⟩
  | ifElse isIf isLeft _ isRight _ isElse _ condition thenBranch elseBranch =>
      exact readable_ifElse isIf isLeft condition isRight thenBranch isElse elseBranch
  | print isPrint _ isEnd value =>
      intro first
      obtain ⟨value, next, read⟩ := value first
      exact ⟨false, _, next, Reads.print isPrint read isEnd⟩
  | «return» isReturn _ isEnd value =>
      intro first
      obtain ⟨value, next, read⟩ := value first
      exact ⟨false, _, next, Reads.return isReturn read isEnd⟩
  | «while» isWhile isLeft _ isRight _ condition body =>
      intro first
      obtain ⟨condition, middle, conditionRead⟩ := condition first
      obtain ⟨dangling, body, next, bodyRead⟩ := body middle
      exact ⟨dangling, _, next, Reads.while isWhile isLeft conditionRead isRight bodyRead⟩
  | block isLeft _ isRight declarations =>
      intro first
      obtain ⟨statements, next, read⟩ := declarations first
      exact ⟨false, _, next, Reads.block isLeft read isRight⟩
  | noParameters => exact fun first => ⟨[], rfl, Reads.noParameters⟩
  | lastParameter isName => exact fun first => ⟨_, rfl, Reads.lastParameter isName⟩
  | @nextParameter name _ _ _ isName isComma _ names =>
      intro first
      obtain ⟨names, counted, read⟩ := names first
      cases names with
      | nil => cases counted
      | cons following names =>
          exact ⟨name :: following :: names, congrArg (· + 1) counted,
            Reads.nextParameter isName isComma read⟩
  | function isName isLeft _ few isRight isOpening _ isClosing parameters body =>
      intro first
      obtain ⟨parameters, rfl, parametersRead⟩ := parameters first
      obtain ⟨body, next, read⟩ := body first
      exact ⟨_, next, Reads.function isName isLeft parametersRead few isRight isOpening read
        isClosing⟩
  | noFunction => exact fun first => ⟨[], first, Reads.noFunction⟩
  | nextFunction _ _ function functions =>
      intro first
      obtain ⟨function, middle, read⟩ := function first
      obtain ⟨functions, next, functionsRead⟩ := functions middle
      exact ⟨_, next, Reads.nextFunction read functionsRead⟩
  | classDeclaration isClass isName isOpening _ isClosing methods =>
      intro first
      obtain ⟨methods, next, read⟩ := methods first
      exact ⟨false, _, next, Reads.classDeclaration isClass isName isOpening read isClosing⟩
  | functionDeclaration isFun _ function =>
      intro first
      obtain ⟨function, next, read⟩ := function first
      exact ⟨false, _, next, Reads.functionDeclaration isFun read⟩
  | variableDeclaration isVar _ declared =>
      intro first
      obtain ⟨declared, next, read⟩ := declared first
      exact ⟨false, _, next, Reads.variableDeclaration isVar read⟩
  | statement _ statement =>
      intro first
      obtain ⟨dangling, statement, next, read⟩ := statement first
      exact ⟨dangling, _, next, Reads.statement read⟩
  | noDeclaration => exact fun first => ⟨[], first, Reads.noDeclaration⟩
  | nextDeclaration _ _ declaration declarations =>
      intro first
      obtain ⟨dangling, statement, middle, read⟩ := declaration first
      obtain ⟨statements, next, declarationsRead⟩ := declarations middle
      exact ⟨_, next, Reads.nextDeclaration read declarationsRead⟩

end Lox.Grammar
