import Lox.Proofs.Grammar.Lookahead

/-!
Contract: what a parser has read reads as its result.

Owns: one rule for each parser of expressions and statements, in terms of what the
parsers inside it have read, and from these the rules for `expression`,
`statementWithin` and `declarationWithin`.

Does not own: whole programs.
-/

namespace Lox.Grammar

open Lox.Grammar.Parser

/-- The reading of results as phrases of one kind. -/
def readsAs {α : Type} (phrase : α → Phrase) (word : List Token) (first : Nat) (value : α)
    (next : Nat) (_ : List Token) : Prop :=
  Reads word first (phrase value) next

variable {nested : Parser Expression}

/-! ### Expressions -/

theorem primary_yields (inside : nested.Yields (readsAs (.expression .assignment))) :
    (primary nested).Yields (readsAs (.expression .primary)) := by
  unfold primary
  refine Yields.ifSymbol ?_ ((Yields.take? _).bind fun found => ?_)
  · refine inside.bind fun inner => (Yields.require _).bind fun _ => (Yields.node _).mono ?_
    rintro _ _ _ _ _ ⟨rfl, rfl, rfl⟩ _ _ ⟨rfl, rfl, right⟩ word _ body token left
    simpa [readsAs] using Reads.grouping left body right
  cases found with
  | some token =>
      refine (Yields.node _).mono ?_
      rintro _ _ _ _ _ ⟨rfl, rfl, rfl⟩ _ _ ⟨rfl, rfl, isLiteral⟩
      obtain ⟨value, same⟩ := Option.isSome_iff_exists.mp isLiteral
      rw [same]
      exact Reads.literal (literal?_eq_some_iff.mp same)
  | none =>
      refine (Yields.take? _).bind fun found => ?_
      cases found with
      | some keyword =>
          refine (Yields.node _).mono ?_
          rintro _ _ _ _ _ ⟨rfl, rfl, rfl⟩ _ _ ⟨rfl, rfl, isThis⟩ _ _ ⟨rfl, rfl, _⟩
          exact Reads.this isThis
      | none =>
          refine (Yields.take? _).bind fun found => ?_
          cases found with
          | some name =>
              refine (Yields.node _).mono ?_
              rintro _ _ _ _ _ ⟨rfl, rfl, rfl⟩ _ _ ⟨rfl, rfl, isName⟩ _ _ ⟨rfl, rfl, _⟩ _ _
                ⟨rfl, rfl, _⟩
              exact Reads.name isName
          | none => exact Yields.failHere _ _

section Lists

variable {α : Type} {item : Parser α} {tooMany : SyntaxFault}
  {single : List Token → Nat → α → Nat → Prop} {list : List Token → Nat → List α → Nat → Prop}

/-- Items were read up to the last one, if the bound lies beyond the number of tokens. No
more than `maxItems` were read, as each one past them is reported. -/
theorem itemsFrom_yields
    (inside : item.Yields fun word first value next _ => single word first value next)
    (last : ∀ {word first value next}, single word first value next →
      list word first [value] next)
    (more : ∀ {word rest first middle next value values} {comma : Token},
      single word first value middle → comma.isSymbol .comma → values ≠ [] →
      list rest middle values next →
      list (word ++ comma :: rest) first (value :: values) next) (bound count : Nat) :
    (itemsFrom item tooMany count bound).Yields fun word first values next _ =>
      bound ≤ word.length ∨
        (values ≠ [] ∧ list word first values next ∧ count + values.length ≤ maxItems) := by
  induction bound generalizing count with
  | zero => exact (Yields.pure _).mono fun _ _ _ _ _ _ => Or.inl (Nat.zero_le _)
  | succ bound inductionHypothesis =>
      have behindCheck :
          (do
            let first ← item
            if ← skip? .comma then
              return first :: (← itemsFrom item tooMany (count + 1) bound)
            else
              return [first]).Yields fun word first values next _ => count < maxItems →
            bound + 1 ≤ word.length ∨
              (values ≠ [] ∧ list word first values next ∧ count + values.length ≤ maxItems) := by
        refine inside.bind fun first => (Yields.skip? _).bind fun separated => ?_
        cases separated with
        | true =>
            refine (inductionHypothesis (count + 1)).bind fun values => (Yields.pure _).mono ?_
            rintro _ _ _ _ _ ⟨rfl, rfl, rfl⟩ word _ read _ _ ⟨rfl, comma, rfl, isComma⟩ start _
              one within
            rcases read with exhausted | ⟨nonempty, read, few⟩
            · left
              simp only [List.length_append, List.length_cons, List.length_nil]
              omega
            · right
              refine ⟨List.cons_ne_nil _ _, ?_, ?_⟩
              · simpa using more one isComma nonempty read
              · simp only [List.length_cons]
                omega
        | false =>
            refine (Yields.pure _).mono ?_
            rintro _ _ _ _ _ ⟨rfl, rfl, rfl⟩ _ _ ⟨rfl, rfl, _⟩ word _ one within
            right
            refine ⟨List.cons_ne_nil _ _, ?_, within⟩
            simpa using last one
      unfold itemsFrom
      split
      case isTrue tooFar =>
          exact Yields.get.bind fun _ => (Yields.report _ _ fun _ _ _ _ _ => False).bind
            fun _ => behindCheck.mono fun _ _ _ _ _ _ _ _ absurd => absurd.elim
      case isFalse within =>
          exact behindCheck.mono fun _ _ _ _ _ read => read (Nat.lt_of_not_le within)

/-- A list in parentheses, with the closing one. -/
theorem listUpTo_yields {close : Mark} (single : List Token → Nat → α → Nat → Prop)
    (list : List Token → Nat → List α → Nat → Prop)
    (inside : item.Yields fun word first value next _ => single word first value next)
    (none : ∀ {first}, list [] first [] first)
    (last : ∀ {word first value next}, single word first value next →
      list word first [value] next)
    (more : ∀ {word rest first middle next value values} {comma : Token},
      single word first value middle → comma.isSymbol .comma → values ≠ [] →
      list rest middle values next →
      list (word ++ comma :: rest) first (value :: values) next) :
    (listUpTo close item tooMany).Yields fun word first result next _ =>
      ∃ inner, word = inner ++ [result.2] ∧ list inner first result.1 next ∧
        result.1.length ≤ maxItems ∧ result.2.isSymbol close.symbol := by
  unfold listUpTo
  refine (Yields.at? _).bind fun closed => ?_
  cases closed with
  | true =>
      refine (Yields.require _).bind fun paren => (Yields.pure _).mono ?_
      rintro _ _ _ _ _ ⟨rfl, rfl, rfl⟩ _ _ ⟨rfl, rfl, isClose⟩ _ _ ⟨rfl, rfl, _⟩
      exact ⟨[], rfl, none, Nat.zero_le _, isClose⟩
  | false =>
      refine Yields.get.bind fun cursor => (itemsFrom_yields inside last more _ _).bind
        fun values => (Yields.require _).bind fun paren => (Yields.pure _).mono ?_
      rintro _ _ _ _ rest ⟨rfl, rfl, rfl⟩ _ _ ⟨rfl, rfl, isClose⟩ inner _ read _ _
        ⟨rfl, rfl, bounded⟩ _ _ ⟨rfl, rfl, _⟩
      rcases read with exhausted | ⟨_, read, few⟩
      · simp only [List.length_append] at bounded
        omega
      · exact ⟨inner, by simp, read, by simpa using few, isClose⟩

end Lists

theorem arguments_yields (inside : nested.Yields (readsAs (.expression .assignment))) :
    (listUpTo .argumentsClose nested .tooManyArguments).Yields
      fun word first result next _ => ∃ inner, word = inner ++ [result.2] ∧
        Reads inner first (.arguments result.1) next ∧ result.1.length ≤ maxItems ∧
          result.2.isSymbol .rightParen := by
  refine listUpTo_yields (fun word first value next =>
      Reads word first (.expression .assignment value) next)
    (fun word first values next => Reads word first (.arguments values) next)
    inside Reads.noArguments ?_ ?_
  · intro word first value next one
    exact Reads.someArguments (Reads.lastItem one)
  · intro word rest first middle next value values comma one isComma nonempty others
    cases others with
    | noArguments => exact absurd rfl nonempty
    | someArguments others => exact Reads.someArguments (Reads.nextItem one isComma others)

theorem callsFrom_yields (inside : nested.Yields (readsAs (.expression .assignment)))
    (bound : Nat) (left : Expression) :
    (callsFrom nested bound left).Yields (readsAs (.accesses left)) := by
  induction bound generalizing left with
  | zero =>
      refine (Yields.pure _).mono ?_
      rintro _ _ _ _ _ ⟨rfl, rfl, rfl⟩
      exact Reads.noAccess
  | succ bound inductionHypothesis =>
      unfold callsFrom
      refine Yields.ifSymbol ?_ (Yields.ifSymbol ?_ ?_)
      · refine (arguments_yields inside).bind fun result => (Yields.node _).bind
          fun called => (inductionHypothesis called).mono ?_
        rintro rest _ value _ _ read _ _ ⟨rfl, rfl, rfl⟩ _ _ ⟨inner, rfl, arguments, few, closes⟩
          paren opens
        simpa [readsAs] using Reads.call opens arguments few closes read
      · refine (Yields.requireName _).bind fun name => (Yields.node _).bind
          fun got => (inductionHypothesis got).mono ?_
        rintro rest _ value _ _ read _ _ ⟨rfl, rfl, rfl⟩ _ _ ⟨rfl, rfl, isName⟩ dot isDot
        simpa [readsAs] using Reads.get isDot isName read
      · refine (Yields.pure _).mono ?_
        rintro _ _ _ _ _ ⟨rfl, rfl, rfl⟩
        exact Reads.noAccess

theorem call_yields (inside : nested.Yields (readsAs (.expression .assignment))) :
    (call nested).Yields (readsAs (.expression .call)) := by
  unfold call
  refine Yields.get.bind fun cursor => (primary_yields inside).bind fun left =>
    (callsFrom_yields inside _ _).mono ?_
  rintro rest _ value _ _ accesses word _ left _ _ ⟨rfl, rfl, _⟩
  simpa [readsAs] using Reads.accessed left accesses

/-- Operators before an operand, the last one applied first. -/
theorem negate_yields (operators : List Token) (operand : Expression) :
    (operators.foldrM (fun operator operand => node (.unary · operator operand))
      operand).Yields fun rest middle value next _ =>
        rest = [] ∧ ((∀ token ∈ operators, isUnaryOperator token) → ∀ word first,
          Reads word first (.expression .unary operand) middle →
            Reads (operators ++ word) first (.expression .unary value) next) := by
  induction operators with
  | nil =>
      refine (Yields.pure _).mono ?_
      rintro _ _ _ _ _ ⟨rfl, rfl, rfl⟩
      exact ⟨rfl, fun _ _ _ read => read⟩
  | cons operator operators inductionHypothesis =>
      rw [List.foldrM_cons]
      refine inductionHypothesis.bind fun value => (Yields.node _).mono ?_
      rintro _ _ _ _ _ ⟨rfl, rfl, rfl⟩ _ _ ⟨rfl, following⟩
      refine ⟨rfl, fun areOperators word first read => ?_⟩
      obtain ⟨isOperator, areOperators⟩ := List.forall_mem_cons.mp areOperators
      exact Reads.negated isOperator (following areOperators word first read)

theorem unary_yields (inside : nested.Yields (readsAs (.expression .assignment))) :
    (unary nested).Yields (readsAs (.expression .unary)) := by
  unfold unary
  refine (Yields.takeAll _).bind fun operators => (call_yields inside).bind fun operand =>
    (negate_yields operators operand).mono ?_
  rintro _ _ value _ _ ⟨rfl, following⟩ word _ read _ _ ⟨rfl, rfl, areOperators⟩
  simpa [readsAs] using following areOperators word _ (Reads.notNegated read)

theorem leftAssociativeFrom_yields {level : BinaryLevel} {operand : Parser Expression}
    (inside : operand.Yields (readsAs (.expression level.operand))) (bound : Nat)
    (left : Expression) :
    (leftAssociativeFrom level.isOperator level.make operand bound left).Yields
      (readsAs (.operations level left)) := by
  induction bound generalizing left with
  | zero =>
      refine (Yields.pure _).mono ?_
      rintro _ _ _ _ _ ⟨rfl, rfl, rfl⟩
      exact Reads.noOperation
  | succ bound inductionHypothesis =>
      unfold leftAssociativeFrom
      refine (Yields.take? _).bind fun found => ?_
      cases found with
      | none =>
          refine (Yields.pure _).mono ?_
          rintro _ _ _ _ _ ⟨rfl, rfl, rfl⟩ _ _ ⟨rfl, rfl, _⟩
          exact Reads.noOperation
      | some operator =>
          refine inside.bind fun right => (Yields.node _).bind fun made =>
            (inductionHypothesis made).mono ?_
          rintro rest _ value _ _ operations _ _ ⟨rfl, rfl, rfl⟩ word _ right _ _
            ⟨rfl, rfl, isOperator⟩
          simpa [readsAs] using Reads.operation isOperator right operations

theorem leftAssociative_yields (level : BinaryLevel) {operand : Parser Expression}
    (inside : operand.Yields (readsAs (.expression level.operand))) :
    (leftAssociative level.isOperator level.make operand).Yields
      (readsAs (.expression (.binary level))) := by
  unfold leftAssociative
  refine inside.bind fun left => Yields.get.bind fun cursor =>
    (leftAssociativeFrom_yields inside _ _).mono ?_
  rintro rest _ value _ _ operations _ _ ⟨rfl, rfl, _⟩ word _ left
  simpa [readsAs] using Reads.binary left operations

theorem disjunction_yields (inside : nested.Yields (readsAs (.expression .assignment))) :
    (disjunction nested).Yields (readsAs (.expression (.binary .disjunction))) :=
  leftAssociative_yields .disjunction <|
    leftAssociative_yields .conjunction <|
      leftAssociative_yields .equality <|
        leftAssociative_yields .comparison <|
          leftAssociative_yields .term <|
            leftAssociative_yields .factor (unary_yields inside)

/-- What an assignment may assign to. -/
def isTarget : Expression → Bool
  | .variable _ _ | .get _ _ _ => true
  | _ => false

theorem isTarget_make (level : BinaryLevel) (id : Nat) (left right : Expression)
    (operator : Token) : isTarget (level.make id left operator right) = false := by
  cases level <;> rfl

/-- Operations make a node that is no target of an assignment, unless there are none. -/
theorem no_operations_of_target {word : List Token} {first next : Nat} {level : BinaryLevel}
    {left value : Expression} (read : Reads word first (.operations level left value) next)
    (target : isTarget value) : word = [] ∧ left = value ∧ next = first := by
  generalize same : Phrase.operations level left value = phrase at read
  induction read generalizing left with
  | noOperation =>
      cases same
      exact ⟨rfl, rfl, rfl⟩
  | operation isOperator right following _ inductionHypothesis =>
      cases same
      obtain ⟨_, made, _⟩ := inductionHypothesis rfl
      rw [← made, isTarget_make] at target
      cases target
  | _ => cases same

/-- A target of an assignment is read without any operator of a level. -/
theorem operand_of_target (level : BinaryLevel) {word : List Token} {first next : Nat}
    {value : Expression} (target : isTarget value)
    (read : Reads word first (.expression (.binary level) value) next) :
    Reads word first (.expression level.operand value) next := by
  cases read with
  | binary operand operations =>
      obtain ⟨rfl, rfl, rfl⟩ := no_operations_of_target operations target
      simpa using operand

theorem call_of_target {word : List Token} {first next : Nat} {value : Expression}
    (target : isTarget value)
    (read : Reads word first (.expression (.binary .disjunction) value) next) :
    Reads word first (.expression .call value) next := by
  have unary : Reads word first (.expression .unary value) next :=
    operand_of_target .factor target <|
      operand_of_target .term target <|
        operand_of_target .comparison target <|
          operand_of_target .equality target <|
            operand_of_target .conjunction target <|
              operand_of_target .disjunction target read
  cases unary with
  | notNegated operand => exact operand
  | negated => cases target

/-- Accesses do not end in a variable, unless there are none. -/
theorem accesses_of_variable {word : List Token} {left : Expression} {name : Token}
    {id first next : Nat} (read : Reads word first (.accesses left (.variable id name)) next) :
    word = [] ∧ left = .variable id name ∧ next = first := by
  generalize same : Phrase.accesses left (.variable id name) = phrase at read
  induction read generalizing left with
  | noAccess =>
      cases same
      exact ⟨rfl, rfl, rfl⟩
  | call _ _ _ _ _ _ inductionHypothesis | get _ _ _ inductionHypothesis =>
      cases same
      cases (inductionHypothesis rfl).2.1
  | _ => cases same

/-- Accesses that end in a property access have it as their last one. -/
theorem accesses_of_get {word : List Token} {left object : Expression} {name : Token}
    {id first next : Nat} (read : Reads word first (.accesses left (.get id object name)) next) :
    (word = [] ∧ left = .get id object name ∧ next = first) ∨
      ∃ front dot, word = front ++ [dot, name] ∧ dot.isSymbol .dot ∧ name.isIdentifier ∧
        Reads front first (.accesses left object) id ∧ next = id + 1 := by
  generalize same : Phrase.accesses left (.get id object name) = phrase at read
  induction read generalizing left with
  | noAccess =>
      cases same
      exact Or.inl ⟨rfl, rfl, rfl⟩
  | call isLeft arguments few isRight _ _ inductionHypothesis =>
      cases same
      rcases inductionHypothesis rfl with
        ⟨_, absurd, _⟩ | ⟨front, dot, rfl, isDot, isName, read, rfl⟩
      · cases absurd
      · exact Or.inr ⟨_, dot, by simp, isDot, isName,
          Reads.call isLeft arguments few isRight read, rfl⟩
  | @get found _ _ _ _ _ _ isDot isName _ inductionHypothesis =>
      cases same
      rcases inductionHypothesis rfl with
        ⟨rfl, made, rfl⟩ | ⟨front, dot, rfl, isLast, isLastName, read, rfl⟩
      · cases made
        exact Or.inr ⟨[], found, rfl, isDot, isName, Reads.noAccess, rfl⟩
      · exact Or.inr ⟨_, dot, rfl, isLast, isLastName, Reads.get isDot isName read, rfl⟩
  | _ => cases same

theorem name_of_variable {word : List Token} {name : Token} {id first next : Nat}
    (read : Reads word first (.expression .call (.variable id name)) next) :
    word = [name] ∧ name.isIdentifier ∧ next = first + 1 := by
  cases read with
  | accessed primary accesses =>
      obtain ⟨rfl, rfl, rfl⟩ := accesses_of_variable accesses
      cases primary with
      | name isName => exact ⟨rfl, isName, rfl⟩

theorem object_of_get {word : List Token} {object : Expression} {name : Token}
    {id first next : Nat}
    (read : Reads word first (.expression .call (.get id object name)) next) :
    ∃ front dot, word = front ++ [dot, name] ∧ dot.isSymbol .dot ∧ name.isIdentifier ∧
      Reads front first (.expression .call object) id ∧ next = id + 1 := by
  cases read with
  | accessed primary accesses =>
      rcases accesses_of_get accesses with
        ⟨_, rfl, _⟩ | ⟨front, dot, rfl, isDot, isName, read, rfl⟩
      · cases primary
      · exact ⟨_, dot, by simp, isDot, isName, Reads.accessed primary read, rfl⟩

theorem assignment_yields (inside : nested.Yields (readsAs (.expression .assignment))) :
    (assignment nested).Yields (readsAs (.expression .assignment)) := by
  unfold assignment
  refine (disjunction_yields inside).bind fun target => (Yields.take? _).bind fun found => ?_
  cases found with
  | none =>
      refine (Yields.pure _).mono ?_
      rintro _ _ _ _ _ ⟨rfl, rfl, rfl⟩ _ _ ⟨rfl, rfl, _⟩ word _ read
      simpa [readsAs] using Reads.notAssigned read
  | some equals =>
      refine inside.bind fun value => ?_
      split
      case h_1 id name =>
          refine (Yields.node _).mono ?_
          rintro _ _ _ _ _ ⟨rfl, rfl, rfl⟩ rest _ read _ _ ⟨rfl, rfl, isEqual⟩ word _ target
          obtain ⟨rfl, isName, rfl⟩ := name_of_variable (call_of_target rfl target)
          simpa [readsAs] using Reads.assigned isName isEqual read
      case h_2 id object name =>
          refine (Yields.node _).mono ?_
          rintro _ _ _ _ _ ⟨rfl, rfl, rfl⟩ rest _ read _ _ ⟨rfl, rfl, isEqual⟩ word _ target
          obtain ⟨front, dot, rfl, isDot, isName, object, rfl⟩ :=
            object_of_get (call_of_target rfl target)
          simpa [readsAs] using Reads.propertyAssigned object isDot isName isEqual read
      case h_3 =>
          exact (Yields.report _ _ fun _ _ _ _ _ => False).bind fun _ =>
            (Yields.pure _).mono fun _ _ _ _ _ _ _ _ absurd => absurd.elim

theorem expressionWithin_yields (depth : Nat) :
    (expressionWithin depth).Yields (readsAs (.expression .assignment)) := by
  induction depth with
  | zero => exact Yields.failHere _ _
  | succ depth inductionHypothesis => exact assignment_yields inductionHypothesis

theorem expression_yields : expression.Yields (readsAs (.expression .assignment)) := by
  refine Yields.get.bind fun cursor => (expressionWithin_yields _).mono ?_
  rintro word _ value _ _ read _ _ ⟨rfl, rfl, _⟩
  exact read

/-! ### Statements -/

theorem optionalExpression_yields (absent : Symbol) :
    (optionalExpression absent).Yields (readsAs .optional) := by
  unfold optionalExpression
  refine (Yields.at? _).bind fun isAbsent => ?_
  cases isAbsent with
  | true =>
      refine (Yields.pure _).mono ?_
      rintro _ _ _ _ _ ⟨rfl, rfl, rfl⟩ _ _ ⟨rfl, rfl, _⟩
      exact Reads.absent
  | false =>
      refine expression_yields.bind fun value => (Yields.pure _).mono ?_
      rintro _ _ _ _ _ ⟨rfl, rfl, rfl⟩ word _ read _ _ ⟨rfl, rfl, _⟩
      simpa [readsAs] using Reads.present read

theorem varDeclaration_yields : varDeclaration.Yields (readsAs .variable) := by
  unfold varDeclaration
  refine (Yields.requireName _).bind fun name => (Yields.skip? _).bind fun assigned => ?_
  cases assigned with
  | true =>
      refine (expression_yields.map some).bind fun value => (Yields.require _).bind
        fun semicolon => (Yields.pure _).mono ?_
      rintro _ _ _ _ _ ⟨rfl, rfl, rfl⟩ _ _ ⟨rfl, rfl, ends⟩ word _ ⟨value, rfl, read⟩ _ _
        ⟨rfl, equals, rfl, isEqual⟩ _ _ ⟨rfl, rfl, isName⟩
      simpa [readsAs] using Reads.initialized isName isEqual read ends
  | false =>
      refine (Yields.pure none).bind fun value => (Yields.require _).bind
        fun semicolon => (Yields.pure _).mono ?_
      rintro _ _ _ _ _ ⟨rfl, rfl, rfl⟩ _ _ ⟨rfl, rfl, ends⟩ _ _ ⟨rfl, rfl, rfl⟩ _ _
        ⟨rfl, rfl, _⟩ _ _ ⟨rfl, rfl, isName⟩
      exact Reads.uninitialized isName ends

theorem expressionStatement_yields : expressionStatement.Yields fun word first statement next _ =>
    ∃ inner semicolon value, word = inner ++ [semicolon] ∧ statement = .expression value ∧
      semicolon.isSymbol .semicolon ∧ Reads inner first (.expression .assignment value) next := by
  unfold expressionStatement
  refine expression_yields.bind fun value => (Yields.require _).bind fun semicolon =>
    (Yields.pure _).mono ?_
  rintro _ _ _ _ _ ⟨rfl, rfl, rfl⟩ _ _ ⟨rfl, rfl, ends⟩ word _ read
  exact ⟨word, semicolon, value, by simp, rfl, ends, read⟩

theorem forInitializer_yields : forInitializer.Yields (readsAs .initializer) := by
  unfold forInitializer
  refine Yields.ifSymbol ?_ (Yields.ifKeyword ?_ ?_)
  · refine (Yields.pure _).mono ?_
    rintro _ _ _ _ _ ⟨rfl, rfl, rfl⟩ semicolon ends
    exact Reads.noInitializer ends
  · refine varDeclaration_yields.bind fun declared => (Yields.pure _).mono ?_
    rintro _ _ _ _ _ ⟨rfl, rfl, rfl⟩ word _ read keyword isVar
    simpa [readsAs] using Reads.variableInitializer isVar read
  · refine expressionStatement_yields.bind fun statement => (Yields.pure _).mono ?_
    rintro _ _ _ _ _ ⟨rfl, rfl, rfl⟩ _ _ ⟨word, semicolon, value, rfl, rfl, ends, read⟩
    simpa [readsAs] using Reads.expressionInitializer read ends

section Nested

variable {nested : Parser Statement} {declaration : Parser (Option Statement)}

theorem ifStatement_yields (inside : nested.Yields (readsClosed .statement)) :
    (ifStatement nested).Yields fun word first statement next rest => ∀ keyword : Token,
      keyword.isKeyword .if →
        readsClosed .statement (keyword :: word) first statement next rest := by
  unfold ifStatement
  refine (Yields.require _).bind fun left => expression_yields.bind fun condition =>
    (Yields.require _).bind fun right => inside.bind fun thenBranch =>
      (Yields.skipKeyword? _).bind fun otherwise => ?_
  cases otherwise with
  | true =>
      refine (inside.map some).bind fun elseBranch => (Yields.pure _).mono ?_
      rintro _ _ _ _ rest ⟨rfl, rfl, rfl⟩ word₃ _ ⟨elseBranch, rfl, dangling, read₃, quiet₃⟩ _ _
        ⟨rfl, separator, rfl, isElse⟩ word₂ _ ⟨inner, read₂, quiet₂⟩ _ _ ⟨rfl, rfl, closes⟩ word₁ _
        read₁ _ _ ⟨rfl, rfl, opens⟩ keyword isIf
      cases inner with
      | true => simp [isElse] at quiet₂
      | false =>
          refine ⟨dangling, ?_, quiet₃⟩
          simpa using Reads.ifElse isIf opens read₁ closes read₂ isElse read₃
  | false =>
      refine (Yields.pure none).bind fun elseBranch => (Yields.pure _).mono ?_
      rintro _ _ _ _ rest ⟨rfl, rfl, rfl⟩ _ _ ⟨rfl, rfl, rfl⟩ _ _ ⟨rfl, rfl, noElse⟩ word₂ _
        ⟨dangling, read₂, _⟩ _ _ ⟨rfl, rfl, closes⟩ word₁ _ read₁ _ _ ⟨rfl, rfl, opens⟩ keyword isIf
      refine ⟨true, ?_, fun _ => by simpa using noElse⟩
      simpa using Reads.if isIf opens read₁ closes read₂

theorem whileStatement_yields (inside : nested.Yields (readsClosed .statement)) :
    (whileStatement nested).Yields fun word first statement next rest => ∀ keyword : Token,
      keyword.isKeyword .while →
        readsClosed .statement (keyword :: word) first statement next rest := by
  unfold whileStatement
  refine (Yields.require _).bind fun left => expression_yields.bind fun condition =>
    (Yields.require _).bind fun right => inside.bind fun body => (Yields.pure _).mono ?_
  rintro _ _ _ _ rest ⟨rfl, rfl, rfl⟩ word₂ _ ⟨dangling, read₂, quiet⟩ _ _ ⟨rfl, rfl, closes⟩
    word₁ _ read₁ _ _ ⟨rfl, rfl, opens⟩ keyword isWhile
  refine ⟨dangling, ?_, quiet⟩
  simpa using Reads.while isWhile opens read₁ closes read₂

theorem forStatement_yields (inside : nested.Yields (readsClosed .statement)) :
    (forStatement nested).Yields fun word first statement next rest => ∀ keyword : Token,
      keyword.isKeyword .for →
        readsClosed .statement (keyword :: word) first statement next rest := by
  unfold forStatement
  refine (Yields.require _).bind fun left => forInitializer_yields.bind fun initializer =>
    (optionalExpression_yields _).bind fun condition => (Yields.require _).bind fun semicolon =>
      (optionalExpression_yields _).bind fun increment => (Yields.require _).bind fun right =>
        inside.bind fun body => ?_
  cases condition with
  | some condition =>
      refine (Yields.pure condition).bind fun condition => (Yields.pure _).mono ?_
      rintro _ _ _ _ rest ⟨rfl, rfl, rfl⟩ _ _ ⟨rfl, rfl, rfl⟩ word₄ _ ⟨dangling, read₄, quiet⟩ _ _
        ⟨rfl, rfl, closes⟩ word₃ _ read₃ _ _ ⟨rfl, rfl, ends⟩ word₂ _ read₂ word₁ _ read₁ _ _
        ⟨rfl, rfl, opens⟩ keyword isFor
      refine ⟨dangling, ?_, quiet⟩
      simpa [forCondition, forLoop_eq] using
        Reads.for isFor opens read₁ read₂ ends read₃ closes read₄
  | none =>
      refine (Yields.node _).bind fun condition => (Yields.pure _).mono ?_
      rintro _ _ _ _ rest ⟨rfl, rfl, rfl⟩ _ _ ⟨rfl, rfl, rfl⟩ word₄ _ ⟨dangling, read₄, quiet⟩ _ _
        ⟨rfl, rfl, closes⟩ word₃ _ read₃ _ _ ⟨rfl, rfl, ends⟩ word₂ _ read₂ word₁ _ read₁ _ _
        ⟨rfl, rfl, opens⟩ keyword isFor
      refine ⟨dangling, ?_, quiet⟩
      simpa [forCondition, forLoop_eq] using
        Reads.for isFor opens read₁ read₂ ends read₃ closes read₄

/-! ### Declarations -/

/-- Declarations were read up to where they stop, if the bound lies beyond the number of
tokens. -/
theorem declarationsUntil_yields (inside : declaration.Yields readsFound) (stop : Token → Bool)
    (bound : Nat) :
    (declarationsUntil stop declaration bound).Yields fun word first statements next rest =>
      Reads word first (.declarations statements) next ∧
        (bound ≤ word.length ∨ rest = [] ∨ rest.head?.any stop = true) := by
  induction bound with
  | zero =>
      refine (Yields.pure _).mono ?_
      rintro _ _ _ _ _ ⟨rfl, rfl, rfl⟩
      exact ⟨Reads.noDeclaration, Or.inl (Nat.zero_le _)⟩
  | succ bound inductionHypothesis =>
      unfold declarationsUntil
      refine Yields.atEnd.bind fun ended => (Yields.at? stop).bind fun stopped => ?_
      split
      case isTrue done =>
          refine (Yields.pure _).mono ?_
          rintro _ _ _ _ rest ⟨rfl, rfl, rfl⟩ _ _ ⟨rfl, rfl, stops⟩ _ _ ⟨rfl, rfl, ends⟩
          refine ⟨Reads.noDeclaration, Or.inr ?_⟩
          rcases Bool.or_eq_true_iff.mp done with isEnd | isStop
          · exact Or.inl (List.isEmpty_iff.mp (ends.trans isEnd))
          · exact Or.inr (stops.trans isStop)
      case isFalse =>
          refine inside.bind fun found => inductionHypothesis.bind fun following =>
            (Yields.pure _).mono ?_
          rintro _ _ _ _ rest ⟨rfl, rfl, rfl⟩ word₂ _ ⟨read₂, exit⟩ word₁ _
            ⟨statement, rfl, dangling, read₁, _⟩ _ _ ⟨rfl, rfl, _⟩ _ _ ⟨rfl, rfl, _⟩
          refine ⟨by simpa using Reads.nextDeclaration read₁ read₂, ?_⟩
          obtain ⟨token, tail, rfl, _⟩ := startsDeclaration_of_declaration read₁
          refine exit.imp_left fun exhausted => ?_
          simp only [List.append_nil, List.nil_append, List.length_append, List.length_cons]
          omega

theorem block_yields (inside : declaration.Yields readsFound) :
    (block declaration).Yields fun word first statements next _ =>
      ∃ inner closing, word = inner ++ [closing] ∧ closing.isSymbol .rightBrace ∧
        Reads inner first (.declarations statements) next := by
  unfold block
  refine Yields.get.bind fun cursor => (declarationsUntil_yields inside _ _).bind
    fun statements => (Yields.require _).bind fun closing => (Yields.pure _).mono ?_
  rintro _ _ _ _ rest ⟨rfl, rfl, rfl⟩ _ _ ⟨rfl, rfl, closes⟩ inner _ ⟨read, _⟩ _ _ ⟨rfl, rfl, _⟩
  exact ⟨inner, closing, by simp, closes, read⟩

theorem parameters_yields :
    (listUpTo .parametersClose (requireName .parameter) .tooManyParameters).Yields
      fun word first result next _ => ∃ inner, word = inner ++ [result.2] ∧
        (next = first ∧ Reads inner first (.parameters result.1) first) ∧
          result.1.length ≤ maxItems ∧ result.2.isSymbol .rightParen := by
  refine listUpTo_yields
    (fun word first name next => next = first ∧ word = [name] ∧ name.isIdentifier)
    (fun word first names next => next = first ∧ Reads word first (.parameters names) first)
    (Yields.requireName _) ⟨rfl, Reads.noParameters⟩ ?_ ?_
  · rintro _ first name _ ⟨rfl, rfl, isName⟩
    exact ⟨rfl, Reads.lastParameter isName⟩
  · rintro _ rest first _ _ name names comma ⟨rfl, rfl, isName⟩ isComma nonempty ⟨rfl, others⟩
    refine ⟨rfl, ?_⟩
    cases names with
    | nil => exact absurd rfl nonempty
    | cons following names => exact Reads.nextParameter isName isComma others

theorem function_yields (inside : declaration.Yields readsFound) (role : FunctionRole) :
    (function declaration role).Yields (readsAs .function) := by
  unfold function
  refine (Yields.requireName _).bind fun name => (Yields.require _).bind fun left =>
    parameters_yields.bind fun result => (Yields.require _).bind fun opening =>
      (block_yields inside).bind fun body => (Yields.pure _).mono ?_
  rintro _ _ _ _ rest ⟨rfl, rfl, rfl⟩ _ _ ⟨word₂, closing, rfl, closes, read⟩ _ _ ⟨rfl, rfl, starts⟩
    _ _ ⟨word₁, rfl, ⟨rfl, names⟩, few, isRight⟩ _ _ ⟨rfl, rfl, opens⟩ _ _ ⟨rfl, rfl, isName⟩
  simpa [readsAs] using Reads.function isName opens names few isRight starts read closes

theorem methodsFrom_yields (inside : declaration.Yields readsFound) (bound : Nat) :
    (methodsFrom declaration bound).Yields (readsAs .functions) := by
  induction bound with
  | zero =>
      refine (Yields.pure _).mono ?_
      rintro _ _ _ _ _ ⟨rfl, rfl, rfl⟩
      exact Reads.noFunction
  | succ bound inductionHypothesis =>
      unfold methodsFrom
      refine Yields.atEnd.bind fun ended => (Yields.at? _).bind fun stopped => ?_
      split
      case isTrue done =>
          refine (Yields.pure _).mono ?_
          rintro _ _ _ _ rest ⟨rfl, rfl, rfl⟩ _ _ ⟨rfl, rfl, _⟩ _ _ ⟨rfl, rfl, _⟩
          exact Reads.noFunction
      case isFalse =>
          refine (function_yields inside _).bind fun method => inductionHypothesis.bind
            fun methods => (Yields.pure _).mono ?_
          rintro _ _ _ _ rest ⟨rfl, rfl, rfl⟩ word₂ _ read₂ word₁ _ read₁ _ _ ⟨rfl, rfl, _⟩ _ _
            ⟨rfl, rfl, _⟩
          simpa [readsAs] using Reads.nextFunction read₁ read₂

theorem classDeclaration_yields (inside : declaration.Yields readsFound) :
    (classDeclaration declaration).Yields fun word first statement next _ =>
      ∀ keyword : Token, keyword.isKeyword .class →
        Reads (keyword :: word) first (.declaration false statement) next := by
  unfold classDeclaration
  refine (Yields.requireName _).bind fun name => (Yields.require _).bind fun opening =>
    Yields.get.bind fun cursor => (methodsFrom_yields inside _).bind fun methods =>
      (Yields.require _).bind fun closing => (Yields.pure _).mono ?_
  rintro _ _ _ _ rest ⟨rfl, rfl, rfl⟩ _ _ ⟨rfl, rfl, closes⟩ word _ read _ _ ⟨rfl, rfl, _⟩ _ _
    ⟨rfl, rfl, opens⟩ _ _ ⟨rfl, rfl, isName⟩ keyword isClass
  simpa using Reads.classDeclaration isClass isName opens read closes

theorem declared_yields {statement : Parser Statement} (inside : declaration.Yields readsFound)
    (insideStatement : statement.Yields (readsClosed .statement)) :
    (declared declaration statement).Yields (readsClosed .declaration) := by
  unfold declared
  refine Yields.ifKeyword ?_ (Yields.ifKeyword ?_ (Yields.ifKeyword ?_ ?_))
  · refine (classDeclaration_yields inside).mono ?_
    rintro word _ value _ _ read keyword isClass
    exact ⟨false, read keyword isClass, nofun⟩
  · refine (function_yields inside _).bind fun function => (Yields.pure _).mono ?_
    rintro _ _ _ _ _ ⟨rfl, rfl, rfl⟩ word _ read keyword isFun
    exact ⟨false, by simpa using Reads.functionDeclaration isFun read, nofun⟩
  · refine varDeclaration_yields.mono ?_
    rintro word _ value _ _ read keyword isVar
    exact ⟨false, Reads.variableDeclaration isVar read, nofun⟩
  · refine insideStatement.mono ?_
    rintro word _ value _ rest ⟨dangling, read, quiet⟩
    exact ⟨dangling, Reads.statement read, quiet⟩

theorem returnStatement_yields (keyword : Token) :
    (returnStatement keyword).Yields fun word first statement next _ =>
      keyword.isKeyword .return →
        Reads (keyword :: word) first (.statement false statement) next := by
  unfold returnStatement
  refine (optionalExpression_yields _).bind fun value => (Yields.require _).bind
    fun semicolon => (Yields.pure _).mono ?_
  rintro _ _ _ _ rest ⟨rfl, rfl, rfl⟩ _ _ ⟨rfl, rfl, ends⟩ word _ read isReturn
  simpa using Reads.return isReturn read ends

theorem printStatement_yields :
    printStatement.Yields fun word first statement next _ => ∀ keyword : Token,
      keyword.isKeyword .print →
        Reads (keyword :: word) first (.statement false statement) next := by
  unfold printStatement
  refine expression_yields.bind fun value => (Yields.require _).bind fun semicolon =>
    (Yields.pure _).mono ?_
  rintro _ _ _ _ rest ⟨rfl, rfl, rfl⟩ _ _ ⟨rfl, rfl, ends⟩ word _ read keyword isPrint
  simpa using Reads.print isPrint read ends

theorem statementOf_yields (insideDeclaration : declaration.Yields readsFound)
    (inside : nested.Yields (readsClosed .statement)) :
    (statementOf declaration nested).Yields (readsClosed .statement) := by
  unfold statementOf
  refine Yields.ifKeyword (forStatement_yields inside) <|
    Yields.ifKeyword (ifStatement_yields inside) <|
      Yields.ifKeyword (whileStatement_yields inside) <| (Yields.take? _).bind fun found => ?_
  cases found with
  | some keyword =>
      refine (returnStatement_yields keyword).mono ?_
      rintro word _ value _ _ read _ _ ⟨rfl, rfl, isReturn⟩
      exact ⟨false, read isReturn, nofun⟩
  | none =>
      have others : (do
          if ← skip? .leftBrace then
            return .block (← block declaration)
          else if ← skipKeyword? .print then
            printStatement
          else
            expressionStatement : Parser Statement).Yields (readsClosed .statement) := by
        refine Yields.ifSymbol ?_ (Yields.ifKeyword ?_ ?_)
        · refine (block_yields insideDeclaration).bind fun statements => (Yields.pure _).mono ?_
          rintro _ _ _ _ _ ⟨rfl, rfl, rfl⟩ _ _ ⟨inner, closing, rfl, closes, read⟩ left opens
          exact ⟨false, by simpa using Reads.block opens read closes, nofun⟩
        · refine printStatement_yields.mono ?_
          rintro word _ value _ _ read keyword isPrint
          exact ⟨false, read keyword isPrint, nofun⟩
        · refine expressionStatement_yields.mono ?_
          rintro _ _ _ _ _ ⟨word, semicolon, value, rfl, rfl, ends, read⟩
          exact ⟨false, Reads.expression read ends, nofun⟩
      refine others.mono ?_
      rintro word _ value _ _ read _ _ ⟨rfl, rfl, _⟩
      exact read

end Nested

/-- By induction on how deep statements nest. -/
theorem within_yields (depth : Nat) :
    (statementWithin depth).Yields (readsClosed .statement) ∧
      (declarationWithin depth).Yields readsFound := by
  induction depth with
  | zero => exact ⟨Yields.failHere _ _, (Yields.failHere _ _).recover⟩
  | succ depth inductionHypothesis =>
      obtain ⟨statements, declarations⟩ := inductionHypothesis
      have inside := statementOf_yields declarations statements
      exact ⟨inside, (declared_yields declarations inside).recover⟩

theorem program_yields :
    program.Yields fun word first statements next rest =>
      rest = [] ∧ Reads word first (.declarations statements) next := by
  unfold program
  refine Yields.get.bind fun cursor =>
    (declarationsUntil_yields (within_yields _).2 _ _).mono ?_
  rintro word _ statements _ rest ⟨read, exit⟩ _ _ ⟨rfl, rfl, bounded⟩
  refine ⟨?_, read⟩
  rcases exit with exhausted | ended | stopped
  · rw [List.length_append] at bounded
    omega
  · exact ended
  · cases rest <;> cases stopped

end Lox.Grammar
