import Lox.Proofs.Grammar.Lookahead

/-!
Contract: a parser reads whatever reads as its result.

Owns: `Parser.Accepts`, the converse of `Parser.Yields`, and one rule for each parser
of expressions and statements.

A parser decides by the token at the cursor. It reads exactly a word if the token
behind that does not continue the word. Inside a word of some length all nested words
are shorter, so that the depth to which parsers nest is never exhausted.
-/

namespace Lox.Grammar

open Lox.Grammar.Parser

/-- A parser reads every word up to a length which, with the numbers before and behind it,
a result and the tokens left, satisfies a relation. -/
def Parser.Accepts {α : Type} (parser : Parser α) (limit : Nat)
    (reading : List Token → Nat → α → Nat → List Token → Prop) : Prop :=
  ∀ (cursor : Cursor) (rest : List Token) ⦃word : List Token⦄ ⦃first : Nat⦄ ⦃value : α⦄
    ⦃next : Nat⦄,
    reading word first value next rest → word.length ≤ limit →
    word.length + rest.length < cursor.bound →
    parser (cursor.moved (word ++ rest) first) = .ok value (cursor.moved rest next)

variable {nested : Parser Expression} {limit : Nat}

/-! ### Steps decided by the token at the cursor -/

section Decided

variable {cursor : Cursor} {token : Token} {rest : List Token} {next : Nat}

theorem skip?_other {symbol : Symbol} (isNot : token.isSymbol symbol = false) :
    skip? symbol (cursor.moved (token :: rest) next) =
      .ok false (cursor.moved (token :: rest) next) :=
  skip?_stop (by simpa using isNot)

theorem skipKeyword?_other {keyword : Keyword} (isNot : token.isKeyword keyword = false) :
    skipKeyword? keyword (cursor.moved (token :: rest) next) =
      .ok false (cursor.moved (token :: rest) next) :=
  skipKeyword?_stop (by simpa using isNot)

theorem take?_other {condition : Token → Bool} (isNot : condition token = false) :
    take? condition (cursor.moved (token :: rest) next) =
      .ok none (cursor.moved (token :: rest) next) :=
  take?_stop (by simpa using isNot)

theorem takeAll_append {condition : Token → Bool} {taken : List Token}
    (holds : ∀ token ∈ taken, condition token) (stops : rest.head?.any condition = false) :
    takeAll condition (cursor.moved (taken ++ rest) next) =
      .ok taken (cursor.moved rest next) := by
  have here : (taken ++ rest).takeWhile condition = taken := by
    rw [List.takeWhile_append_of_pos holds]
    cases rest with
    | nil => simp
    | cons token rest => simp_all
  unfold takeAll
  rw [bind_of_ok (get_apply _)]
  simp only [Cursor.moved_rest, here]
  have behind : (taken ++ rest).drop taken.length = rest := List.drop_left
  show EStateM.Result.ok taken { cursor.moved (taken ++ rest) next with
    rest := (taken ++ rest).drop taken.length } = _
  rw [behind]
  rfl

end Decided

/-! ### Expressions -/

theorem primary_accepts (inside : nested.Accepts limit (readsUpTo .assignment)) :
    (primary nested).Accepts (limit + 1)
      fun word first value next _ => Reads word first (.expression .primary value) next := by
  intro cursor rest word first value next read within bounded
  cases read with
  | @grouping left right inner value _ next isLeft read isRight =>
      have split : left :: inner ++ [right] ++ rest = left :: (inner ++ right :: rest) := by simp
      simp only [List.length_cons, List.length_append, List.length_nil] at within bounded
      have accepted := inside cursor (right :: rest)
        ⟨read, by simpa using assignment_ends isRight (by decide)⟩
        (by omega) (by simp only [List.length_cons]; omega)
      rw [split]
      refine then_of_ok (skip?_cons isLeft) ?_
      refine then_of_ok accepted ?_
      exact then_of_ok (require_cons .groupingClose isRight) (node_moved _)
  | @literal token value _ stands =>
      have isLiteral := literal?_eq_some_iff.mpr stands
      have isNotParen : token.isSymbol .leftParen = false := Bool.eq_false_iff.mpr fun is => by
        simp [literal?, isSymbol_iff.mp is] at isLiteral
      refine then_of_ok (skip?_other isNotParen) ?_
      refine then_of_ok (take?_cons (by rw [isLiteral]; rfl)) ?_
      simp only [isLiteral, Option.getD_some]
      exact node_moved _
  | @this keyword _ isThis =>
      have isNoLiteral : (literal? keyword).isSome = false := by
        simp [literal?, isKeyword_iff.mp isThis]
      refine then_of_ok (skip?_other (isSymbol_of_isKeyword isThis _)) ?_
      refine then_of_ok (take?_other isNoLiteral) ?_
      exact then_of_ok (take?_cons isThis) (node_moved _)
  | @name name _ isName =>
      have isNoLiteral : (literal? name).isSome = false := by
        simp [literal?, isIdentifier_iff.mp isName]
      have isNotThis : name.isKeyword .this = false := by
        simp [Token.isKeyword, isIdentifier_iff.mp isName]
      refine then_of_ok (skip?_other (isSymbol_of_isIdentifier isName _)) ?_
      refine then_of_ok (take?_other isNoLiteral) ?_
      refine then_of_ok (take?_other isNotThis) ?_
      exact then_of_ok (take?_cons isName) (node_moved _)

section Lists

variable {α : Type} {item : Parser α} {tooMany : SyntaxFault} {ends : Token → Bool}
  {single : List Token → Nat → α → Nat → Prop} {list : List Token → Nat → List α → Nat → Prop}

/-- A list is a single item, or an item with a comma and another list behind it. -/
def SplitsAtCommas (single : List Token → Nat → α → Nat → Prop)
    (list : List Token → Nat → List α → Nat → Prop) : Prop :=
  ∀ ⦃word first values next⦄, list word first values next →
    (∃ value, values = [value] ∧ single word first value next) ∨
    ∃ front comma back middle value others, word = front ++ comma :: back ∧
      values = value :: others ∧ single front first value middle ∧ comma.isSymbol .comma ∧
      list back middle others next

/-- Items are read up to the last one, by induction on a bound above their tokens. -/
theorem itemsFrom_accepts
    (inside : item.Accepts limit fun word first value next rest =>
      single word first value next ∧ rest.head?.any ends = false)
    (splits : SplitsAtCommas single list)
    (commaEnds : ∀ token : Token, token.isSymbol .comma → ends token = false)
    (bound count : Nat) :
    (itemsFrom item tooMany count bound).Accepts limit fun word first values next rest =>
      word.length < bound ∧ list word first values next ∧ count + values.length ≤ maxItems ∧
        rest.head?.any ends = false ∧ rest.head?.any (Token.isSymbol .comma) = false := by
  induction bound generalizing count with
  | zero => exact fun _ _ _ _ _ _ read => absurd read.1 (Nat.not_lt_zero _)
  | succ bound inductionHypothesis =>
      rintro cursor rest word first values next ⟨short, read, few, ended, noComma⟩ within bounded
      rcases splits read with ⟨value, rfl, one⟩ |
        ⟨front, comma, back, middle, value, others, rfl, rfl, one, isComma, read⟩
      · have room : ¬ maxItems ≤ count := by simp only [List.length_singleton] at few; omega
        unfold itemsFrom
        rw [if_neg room]
        refine then_of_ok (inside _ _ ⟨one, ended⟩ within bounded) ?_
        exact then_of_ok (skip?_stop noComma) rfl
      · simp only [List.length_cons, List.length_append] at few within bounded short
        have split : front ++ comma :: back ++ rest = front ++ comma :: (back ++ rest) := by simp
        have room : ¬ maxItems ≤ count := by omega
        have following := inductionHypothesis (count + 1) cursor rest
          ⟨by omega, read, by omega, ended, noComma⟩ (by omega) (by omega)
        unfold itemsFrom
        rw [if_neg room, split]
        refine then_of_ok (inside _ _ ⟨one, by simpa using commaEnds comma isComma⟩ (by omega)
          (by simp only [List.length_cons, List.length_append]; omega)) ?_
        refine then_of_ok (skip?_cons isComma) ?_
        exact then_of_ok following rfl

/-- A list in parentheses, with the closing one. -/
theorem listUpTo_accepts (close : Mark) (tooMany : SyntaxFault) (ends : Token → Bool)
    (single : List Token → Nat → α → Nat → Prop)
    (list : List Token → Nat → List α → Nat → Prop)
    (inside : item.Accepts limit fun word first value next rest =>
      single word first value next ∧ rest.head?.any ends = false)
    (splits : SplitsAtCommas single list)
    (commaEnds : ∀ token : Token, token.isSymbol .comma → ends token = false)
    (closeEnds : ∀ token : Token, token.isSymbol close.symbol → ends token = false)
    (closeIsNoComma : close.symbol ≠ .comma)
    (opens : ∀ {word first values next}, list word first values next →
      ∃ token tail, word = token :: tail ∧ token.isSymbol close.symbol = false) :
    (listUpTo close item tooMany).Accepts limit fun word first result next _ =>
      ∃ inner, word = inner ++ [result.2] ∧
        ((inner = [] ∧ result.1 = [] ∧ next = first) ∨ list inner first result.1 next) ∧
        result.1.length ≤ maxItems ∧ result.2.isSymbol close.symbol := by
  rintro cursor rest _ first ⟨values, closing⟩ next ⟨inner, rfl, read, few, isClose⟩ within bounded
  have split : inner ++ [closing] ++ rest = inner ++ closing :: rest := by simp
  simp only [List.length_append, List.length_singleton] at within bounded
  unfold listUpTo
  rcases read with ⟨rfl, rfl, rfl⟩ | read
  · refine then_of_ok (at?_moved _) ?_
    simp only [List.nil_append, List.singleton_append, List.head?_cons, Option.any_some, isClose,
      ↓reduceIte]
    exact then_of_ok (require_cons _ isClose) rfl
  · obtain ⟨token, tail, rfl, isNotClose⟩ := opens read
    have noComma : closing.isSymbol .comma = false := by
      simpa [isSymbol_of_isSymbol isClose] using closeIsNoComma
    have items : itemsFrom item tooMany 0 cursor.bound
        (cursor.moved (token :: tail ++ closing :: rest) first) =
          .ok values (cursor.moved (closing :: rest) next) :=
      itemsFrom_accepts inside splits commaEnds cursor.bound 0 cursor (closing :: rest)
        ⟨by omega, read, by simpa using few, by simpa using closeEnds closing isClose,
          by simpa using noComma⟩
        (by omega) (by simp only [List.length_cons] at bounded ⊢; omega)
    rw [split]
    refine then_of_ok (at?_moved _) ?_
    simp only [List.cons_append, List.head?_cons, Option.any_some, isNotClose, Bool.false_eq_true,
      ↓reduceIte]
    refine then_of_ok (get_apply _) ?_
    refine then_of_ok items ?_
    exact then_of_ok (require_cons _ isClose) rfl

end Lists

theorem arguments_accepts (inside : nested.Accepts limit (readsUpTo .assignment)) :
    (listUpTo .argumentsClose nested .tooManyArguments).Accepts limit
      fun word first result next _ => ∃ inner, word = inner ++ [result.2] ∧
        Reads inner first (.arguments result.1) next ∧ result.1.length ≤ maxItems ∧
          result.2.isSymbol .rightParen := by
  have accepted := listUpTo_accepts .argumentsClose .tooManyArguments
    (fun token => Level.assignment.continues token)
    (fun word first value next => Reads word first (.expression .assignment value) next)
    (fun word first values next => Reads word first (.items values) next) inside ?splits
    (fun token isComma => assignment_ends isComma (by decide))
    (fun token isClose => assignment_ends isClose (by decide)) (by decide) ?opens
  case splits =>
      intro word first values next read
      cases read with
      | lastItem one => exact Or.inl ⟨_, rfl, one⟩
      | nextItem one isComma others =>
          exact Or.inr ⟨_, _, _, _, _, _, rfl, rfl, one, isComma, others⟩
  case opens =>
      intro word first values next read
      cases read with
      | lastItem one =>
          obtain ⟨token, tail, rfl, starts⟩ := startsExpression_of_assignment one
          exact ⟨token, tail, rfl, isSymbol_of_startsExpression starts (by decide)⟩
      | nextItem one =>
          obtain ⟨token, tail, rfl, starts⟩ := startsExpression_of_assignment one
          exact ⟨token, _, rfl, isSymbol_of_startsExpression starts (by decide)⟩
  rintro cursor rest _ first ⟨values, closing⟩ next ⟨inner, rfl, read, few, isClose⟩
  refine accepted cursor rest ⟨inner, rfl, ?_, few, isClose⟩
  cases read with
  | noArguments => exact Or.inl ⟨rfl, rfl, rfl⟩
  | someArguments items => exact Or.inr items

theorem callsFrom_accepts (inside : nested.Accepts limit (readsUpTo .assignment)) (bound : Nat)
    (left : Expression) :
    (callsFrom nested bound left).Accepts limit fun word first value next rest =>
      word.length ≤ bound ∧ Reads word first (.accesses left value) next ∧
        rest.head?.any continuesCall = false := by
  induction bound generalizing left with
  | zero =>
      rintro cursor rest word first value next ⟨short, read, _⟩ within bounded
      cases read with
      | noAccess => rfl
      | call | get => simp at short
  | succ bound inductionHypothesis =>
      rintro cursor rest word first value next ⟨short, read, ended⟩ within bounded
      unfold callsFrom
      cases read with
      | noAccess =>
          have noParen : rest.head?.any (Token.isSymbol .leftParen) = false := by
            cases rest <;> simp_all [continuesCall]
          have noDot : rest.head?.any (Token.isSymbol .dot) = false := by
            cases rest <;> simp_all [continuesCall]
          refine then_of_ok (skip?_stop noParen) ?_
          exact then_of_ok (skip?_stop noDot) rfl
      | @call opening closing inner back callee value values first middle next isOpen arguments few
          isClose others =>
          have split : opening :: inner ++ closing :: back ++ rest =
              opening :: (inner ++ [closing] ++ (back ++ rest)) := by simp
          simp only [List.length_cons, List.length_append] at short within bounded
          have list : listUpTo .argumentsClose nested .tooManyArguments
              (cursor.moved (inner ++ [closing] ++ (back ++ rest)) first) =
                .ok (values, closing) (cursor.moved (back ++ rest) middle) :=
            arguments_accepts inside cursor (back ++ rest) ⟨inner, rfl, arguments, few, isClose⟩
            (by simp only [List.length_append, List.length_singleton]; omega)
            (by simp only [List.length_append, List.length_singleton]; omega)
          have following := inductionHypothesis (.call middle left closing values)
            cursor rest ⟨by omega, others, ended⟩ (by omega) (by omega)
          rw [split]
          refine then_of_ok (skip?_cons isOpen) ?_
          refine then_of_ok list ?_
          exact then_of_ok (node_moved _) following
      | @get dot name back object value first next isDot isName others =>
          simp only [List.length_cons] at short within bounded
          have following := inductionHypothesis (.get first left name) cursor rest
            ⟨by omega, others, ended⟩ (by omega) (by omega)
          have noParen : dot.isSymbol .leftParen = false := by
            rw [isSymbol_of_isSymbol isDot]
            rfl
          refine then_of_ok (skip?_other noParen) ?_
          refine then_of_ok (skip?_cons isDot) ?_
          refine then_of_ok (requireName_cons isName) ?_
          exact then_of_ok (node_moved _) following

theorem call_accepts (inside : nested.Accepts limit (readsUpTo .assignment)) :
    (call nested).Accepts (limit + 1) (readsUpTo .call) := by
  rintro cursor rest word first value next ⟨read, ended⟩ within bounded
  cases read with
  | @accessed front back left value _ middle _ primary accesses =>
      obtain ⟨token, tail, rfl, _⟩ := startsCall_of_primary primary
      simp only [List.length_cons, List.length_append] at within bounded
      have first := primary_accepts inside cursor (back ++ rest) primary
        (by simp only [List.length_cons]; omega)
        (by simp only [List.length_cons, List.length_append]; omega)
      have following := callsFrom_accepts inside cursor.bound left cursor rest
        ⟨by omega, accesses, ended⟩ (by omega) (by omega)
      rw [List.append_assoc]
      refine then_of_ok (get_apply _) ?_
      exact then_of_ok first following

/-- A unary expression is made of operators and an operand that has none of them in front;
the operators are applied to it from the last one on. -/
theorem unary_shape {word : List Token} {first next : Nat} {value : Expression}
    (read : Reads word first (.expression .unary value) next) :
    ∃ operators inner operand middle, word = operators ++ inner ∧
      (∀ token ∈ operators, isUnaryOperator token) ∧
      Reads inner first (.expression .call operand) middle ∧
      ∀ (cursor : Cursor) (rest : List Token),
        operators.foldrM (fun operator operand => node (.unary · operator operand)) operand
          (cursor.moved rest middle) = .ok value (cursor.moved rest next) := by
  generalize same : Phrase.expression .unary value = phrase at read
  induction read generalizing value with
  | notNegated operand =>
      cases same
      exact ⟨[], _, _, _, rfl, by simp, operand, fun _ _ => rfl⟩
  | @negated operator _ _ _ _ isOperator _ inductionHypothesis =>
      cases same
      obtain ⟨operators, inner, operand, middle, rfl, areOperators, read, applied⟩ :=
        inductionHypothesis rfl
      refine ⟨operator :: operators, inner, operand, middle, rfl, ?_, read, fun cursor rest => ?_⟩
      · exact List.forall_mem_cons.mpr ⟨isOperator, areOperators⟩
      · rw [List.foldrM_cons]
        exact then_of_ok (applied cursor rest) (node_moved _)
  | _ => cases same

theorem unary_accepts (inside : nested.Accepts limit (readsUpTo .assignment)) :
    (unary nested).Accepts (limit + 1) (readsUpTo .unary) := by
  rintro cursor rest word first value next ⟨read, ended⟩ within bounded
  obtain ⟨operators, inner, operand, middle, rfl, areOperators, operandRead, applied⟩ :=
    unary_shape read
  obtain ⟨token, tail, rfl, starts⟩ := startsCall_of_call operandRead
  have stops : (token :: tail ++ rest).head?.any isUnaryOperator = false := by
    simpa using isUnaryOperator_of_startsCall starts
  simp only [List.length_append] at within bounded
  have accepted := call_accepts inside cursor rest ⟨operandRead, ended⟩
    (by omega) (by omega)
  rw [List.append_assoc]
  refine then_of_ok (takeAll_append areOperators stops) ?_
  exact then_of_ok accepted (applied cursor rest)

theorem leftAssociativeFrom_accepts {level : BinaryLevel} {operand : Parser Expression}
    (inside : operand.Accepts limit (readsUpTo level.operand))
    (bound : Nat) (left : Expression) :
    (leftAssociativeFrom level.isOperator level.make operand bound left).Accepts limit
      fun word first value next rest => word.length ≤ bound ∧
        Reads word first (.operations level left value) next ∧
          rest.head?.any level.continues = false := by
  induction bound generalizing left with
  | zero =>
      rintro cursor rest word first value next ⟨short, read, _⟩ within bounded
      cases read with
      | noOperation => rfl
      | operation => simp at short
  | succ bound inductionHypothesis =>
      rintro cursor rest word first value next ⟨short, read, ended⟩ within bounded
      unfold leftAssociativeFrom
      cases read with
      | noOperation =>
          have noOperator : rest.head?.any level.isOperator = false := by
            cases rest <;> simp_all [level.continues_eq]
          exact then_of_ok (take?_stop noOperator) rfl
      | @operation _ operator front back _ right _ _ middle _ isOperator operandRead others =>
          have split : operator :: front ++ back ++ rest =
              operator :: (front ++ (back ++ rest)) := by simp
          simp only [List.length_cons, List.length_append] at short within bounded
          have operandEnds : (back ++ rest).head?.any level.operand.continues = false := by
            cases others with
            | noOperation => cases rest <;> simp_all [level.continues_eq]
            | operation isNext => simpa using level.operand_ends isNext
          have accepted := inside cursor (back ++ rest)
            ⟨operandRead, operandEnds⟩ (by omega) (by simp only [List.length_append]; omega)
          have following := inductionHypothesis (level.make middle left operator right)
            cursor rest ⟨by omega, others, ended⟩ (by omega) (by omega)
          rw [split]
          refine then_of_ok (take?_cons isOperator) ?_
          refine then_of_ok accepted ?_
          exact then_of_ok (node_moved _) following

theorem leftAssociative_accepts (level : BinaryLevel) {operand : Parser Expression}
    (inside : operand.Accepts limit (readsUpTo level.operand)) :
    (leftAssociative level.isOperator level.make operand).Accepts limit
      (readsUpTo (.binary level)) := by
  rintro cursor rest word first value next ⟨read, ended⟩ within bounded
  cases read with
  | @binary _ front back left _ _ middle _ operandRead operations =>
      simp only [List.length_append] at within bounded
      have operandEnds : (back ++ rest).head?.any level.operand.continues = false := by
        cases operations with
        | noOperation => cases rest <;> simp_all [Level.continues, level.continues_eq]
        | operation isNext => simpa using level.operand_ends isNext
      have accepted := inside cursor (back ++ rest)
        ⟨operandRead, operandEnds⟩ (by omega) (by simp only [List.length_append]; omega)
      have following := leftAssociativeFrom_accepts inside cursor.bound left cursor rest
        ⟨by omega, operations, ended⟩ (by omega) (by omega)
      rw [List.append_assoc]
      refine then_of_ok accepted ?_
      exact then_of_ok (get_apply _) following

theorem disjunction_accepts (inside : nested.Accepts limit (readsUpTo .assignment)) :
    (disjunction nested).Accepts (limit + 1) (readsUpTo (.binary .disjunction)) :=
  leftAssociative_accepts .disjunction <|
    leftAssociative_accepts .conjunction <|
      leftAssociative_accepts .equality <|
        leftAssociative_accepts .comparison <|
          leftAssociative_accepts .term <|
            leftAssociative_accepts .factor (unary_accepts inside)

/-- An operand is an expression of its level without operators. -/
theorem binary_of_operand (level : BinaryLevel) {word : List Token} {first next : Nat}
    {value : Expression} (read : Reads word first (.expression level.operand value) next) :
    Reads word first (.expression (.binary level) value) next := by
  simpa using Reads.binary read Reads.noOperation

theorem operand_of_call (level : BinaryLevel) {word : List Token} {first next : Nat}
    {value : Expression} (read : Reads word first (.expression .call value) next) :
    Reads word first (.expression level.operand value) next := by
  have unary := Reads.notNegated read
  have factor := binary_of_operand .factor unary
  have term := binary_of_operand .term factor
  have comparison := binary_of_operand .comparison term
  have equality := binary_of_operand .equality comparison
  have conjunction := binary_of_operand .conjunction equality
  cases level with
  | disjunction => exact conjunction
  | conjunction => exact equality
  | equality => exact comparison
  | comparison => exact term
  | term => exact factor
  | factor => exact unary

theorem disjunction_of_call {word : List Token} {first next : Nat} {value : Expression}
    (read : Reads word first (.expression .call value) next) :
    Reads word first (.expression (.binary .disjunction) value) next :=
  binary_of_operand .disjunction (operand_of_call .disjunction read)

theorem disjunction_of_binary (level : BinaryLevel) {word : List Token} {first next : Nat}
    {value : Expression} (read : Reads word first (.expression (.binary level) value) next) :
    Reads word first (.expression (.binary .disjunction) value) next := by
  cases level with
  | disjunction => exact read
  | conjunction => exact binary_of_operand .disjunction read
  | equality => exact binary_of_operand .disjunction <| binary_of_operand .conjunction read
  | comparison =>
      exact binary_of_operand .disjunction <| binary_of_operand .conjunction <|
        binary_of_operand .equality read
  | term =>
      exact binary_of_operand .disjunction <| binary_of_operand .conjunction <|
        binary_of_operand .equality <| binary_of_operand .comparison read
  | factor =>
      exact binary_of_operand .disjunction <| binary_of_operand .conjunction <|
        binary_of_operand .equality <| binary_of_operand .comparison <|
          binary_of_operand .term read

theorem call_of_primary {word : List Token} {first next : Nat} {value : Expression}
    (read : Reads word first (.expression .primary value) next) :
    Reads word first (.expression .call value) next := by
  simpa using Reads.accessed read Reads.noAccess

/-- Accesses go on behind accesses. -/
theorem accesses_append {word rest : List Token} {left object value : Expression}
    {first middle next : Nat} (read : Reads word first (.accesses left object) middle)
    (behind : Reads rest middle (.accesses object value) next) :
    Reads (word ++ rest) first (.accesses left value) next := by
  generalize same : Phrase.accesses left object = phrase at read
  induction read generalizing left with
  | noAccess =>
      cases same
      exact behind
  | call isLeft arguments few isRight _ _ inductionHypothesis =>
      cases same
      simpa using Reads.call isLeft arguments few isRight (inductionHypothesis behind rfl)
  | get isFirst isFirstName _ inductionHypothesis =>
      cases same
      exact Reads.get isFirst isFirstName (inductionHypothesis behind rfl)
  | _ => cases same

theorem call_append {word rest : List Token} {object value : Expression}
    {first middle next : Nat} (read : Reads word first (.expression .call object) middle)
    (behind : Reads rest middle (.accesses object value) next) :
    Reads (word ++ rest) first (.expression .call value) next := by
  cases read with
  | accessed primary accesses =>
      simpa using Reads.accessed primary (accesses_append accesses behind)

/-- An assignment is read target first, as an expression without operators. -/
theorem assignment_of_target {cursor : Cursor} {front back rest : List Token} {equals : Token}
    {target value : Expression} (make : Nat → Expression) {first middle next : Nat}
    (inside : nested.Accepts limit (readsUpTo .assignment))
    (targetRead : Reads front first (.expression .call target) middle)
    (isEqual : equals.isSymbol .equal)
    (valueRead : Reads back middle (.expression .assignment value) next)
    (ended : rest.head?.any Level.assignment.continues = false)
    (made : ∀ start, (match target with
      | .variable _ name => node (.assign · name value)
      | .get _ object name => node (.set · object name value)
      | _ => do
          report equals .invalidTarget
          return target : Parser Expression) start = node make start)
    (within : front.length + back.length ≤ limit)
    (bounded : front.length + back.length + rest.length + 1 < cursor.bound) :
    assignment nested (cursor.moved (front ++ equals :: (back ++ rest)) first) =
      .ok (make next) (cursor.moved rest (next + 1)) := by
  have before := disjunction_accepts inside cursor (equals :: (back ++ rest))
    ⟨disjunction_of_call targetRead, by simpa [Level.continues] using disjunction_ends isEqual⟩
    (by omega) (by simp only [List.length_cons, List.length_append]; omega)
  have behind := inside cursor rest ⟨valueRead, ended⟩
    (by omega) (by omega)
  refine then_of_ok before ?_
  refine then_of_ok (take?_cons isEqual) ?_
  refine then_of_ok behind ?_
  exact (made _).trans (node_moved _)

theorem assignment_accepts (inside : nested.Accepts limit (readsUpTo .assignment)) :
    (assignment nested).Accepts (limit + 1) (readsUpTo .assignment) := by
  rintro cursor rest word first value next ⟨read, ended⟩ within bounded
  cases read with
  | notAssigned read =>
      have noEqual : rest.head?.any (Token.isSymbol .equal) = false := by
        cases rest <;> simp_all [Level.continues]
      have disjunctionEnds :
          rest.head?.any (Level.binary .disjunction).continues = false := by
        cases rest <;> simp_all [Level.continues]
      refine then_of_ok (disjunction_accepts inside _ _ ⟨read, disjunctionEnds⟩ within bounded) ?_
      exact then_of_ok (take?_stop noEqual) rfl
  | @assigned name equals back value _ _ isName isEqual valueRead =>
      have target : Reads [name] first (.expression .call (.variable first name)) (first + 1) :=
        Reads.accessed (Reads.name isName) Reads.noAccess
      have split : name :: equals :: back ++ rest = [name] ++ equals :: (back ++ rest) := rfl
      simp only [List.length_cons] at within bounded
      rw [split]
      exact assignment_of_target (.assign · name value) inside target isEqual valueRead
        ended (fun _ => rfl) (by simp only [List.length_singleton]; omega)
        (by simp only [List.length_singleton]; omega)
  | @propertyAssigned front back dot name equals object value _ middle _ objectRead isDot isName
      isEqual valueRead =>
      have split : front ++ dot :: name :: equals :: back ++ rest =
          front ++ [dot, name] ++ equals :: (back ++ rest) := by simp
      simp only [List.length_cons, List.length_append] at within bounded
      rw [split]
      exact assignment_of_target (.set · object name value) inside
        (call_append objectRead (.get isDot isName .noAccess)) isEqual valueRead ended
        (fun _ => rfl)
        (by simp only [List.length_append, List.length_cons, List.length_nil]; omega)
        (by simp only [List.length_append, List.length_cons, List.length_nil]; omega)

theorem expressionWithin_accepts (depth : Nat) :
    (expressionWithin depth).Accepts depth (readsUpTo .assignment) := by
  induction depth with
  | zero =>
      rintro cursor rest word first value next ⟨read, _⟩ within
      obtain ⟨token, tail, rfl, _⟩ := startsExpression_of_assignment read
      simp at within
  | succ depth inductionHypothesis => exact assignment_accepts inductionHypothesis

theorem expression_accepts (limit : Nat) : expression.Accepts limit (readsUpTo .assignment) := by
  intro cursor rest word first value next read within bounded
  refine then_of_ok (get_apply _) ?_
  exact expressionWithin_accepts cursor.bound cursor rest read (by omega) bounded

/-! ### Statements -/

theorem optionalExpression_accepts (limit : Nat) (absent : Symbol)
    (ends : absent ∈ [Symbol.rightParen, .comma, .semicolon]) :
    (optionalExpression absent).Accepts limit fun word first value next rest =>
      Reads word first (.optional value) next ∧ rest.head?.any (Token.isSymbol absent) = true := by
  rintro cursor rest word first value next ⟨read, stops⟩ within bounded
  cases rest with
  | nil => cases stops
  | cons token rest =>
      have isAbsent : token.isSymbol absent := by simpa using stops
      cases read with
      | absent =>
          refine then_of_ok (at?_moved _) ?_
          simp [isAbsent]
      | present valueRead =>
          have accepted := expression_accepts limit cursor (token :: rest)
            ⟨valueRead, by simpa using assignment_ends isAbsent ends⟩ within bounded
          obtain ⟨start, tail, rfl, starts⟩ := startsExpression_of_assignment valueRead
          have isNotAbsent : start.isSymbol absent = false :=
            isSymbol_of_startsExpression starts fun one => by
              simp only [List.mem_cons, List.not_mem_nil, or_false] at ends one
              rcases ends with rfl | rfl | rfl <;> simp at one
          refine then_of_ok (at?_moved _) ?_
          simp only [List.cons_append, List.head?_cons, Option.any_some, isNotAbsent,
            Bool.false_eq_true, ↓reduceIte]
          exact then_of_ok accepted rfl

theorem varDeclaration_accepts (limit : Nat) :
    varDeclaration.Accepts limit fun word first statement next _ =>
      Reads word first (.variable statement) next := by
  intro cursor rest word first statement next read within bounded
  cases read with
  | @uninitialized name semicolon _ isName isEnd =>
      have noEqual : semicolon.isSymbol .equal = false := by
        rw [isSymbol_of_isSymbol isEnd]
        rfl
      refine then_of_ok (requireName_cons isName) ?_
      refine then_of_ok (skip?_other noEqual) ?_
      refine then_of_ok (pure_apply none _) ?_
      exact then_of_ok (require_cons .varEnd isEnd) rfl
  | @initialized name equals semicolon inner value _ _ isName isEqual valueRead isEnd =>
      have split : name :: equals :: inner ++ [semicolon] ++ rest =
          name :: equals :: (inner ++ semicolon :: rest) := by simp
      simp only [List.length_cons, List.length_append, List.length_nil] at within bounded
      have accepted := expression_accepts _ cursor (semicolon :: rest)
        ⟨valueRead, by simpa using assignment_ends isEnd (by decide)⟩ (Nat.le_refl _)
        (by simp only [List.length_cons]; omega)
      rw [split]
      refine then_of_ok (requireName_cons isName) ?_
      refine then_of_ok (skip?_cons isEqual) ?_
      refine then_of_ok (map_of_ok some accepted) ?_
      exact then_of_ok (require_cons .varEnd isEnd) rfl

/-- An expression with a semicolon behind it. -/
theorem expressionThen_accepts {α : Type} (limit : Nat) (mark : Mark)
    (isSemicolon : mark.symbol = .semicolon) (make : Expression → α) :
    (do
      let value ← expression
      let _ ← require mark
      return make value : Parser α).Accepts limit fun word first result next _ =>
        ∃ inner semicolon value, word = inner ++ [semicolon] ∧ result = make value ∧
          semicolon.isSymbol .semicolon ∧
            Reads inner first (.expression .assignment value) next := by
  rintro cursor rest _ first _ next ⟨inner, semicolon, value, rfl, rfl, isEnd, read⟩ within bounded
  have split : inner ++ [semicolon] ++ rest = inner ++ semicolon :: rest := by simp
  simp only [List.length_append, List.length_singleton] at within bounded
  have accepted := expression_accepts _ cursor (semicolon :: rest)
    ⟨read, by simpa using assignment_ends isEnd (by decide)⟩ (Nat.le_refl _)
    (by simp only [List.length_cons]; omega)
  rw [split]
  refine then_of_ok accepted ?_
  exact then_of_ok (require_cons _ (by rw [isSemicolon]; exact isEnd)) rfl

theorem forInitializer_accepts (limit : Nat) :
    forInitializer.Accepts limit fun word first initializer next _ =>
      Reads word first (.initializer initializer) next := by
  intro cursor rest word first initializer next read within bounded
  cases read with
  | noInitializer isEnd => exact then_of_ok (skip?_cons isEnd) rfl
  | @variableInitializer keyword inner declared _ _ isVar read =>
      simp only [List.length_cons] at within bounded
      have accepted := varDeclaration_accepts _ cursor rest read
        (Nat.le_refl _) (by omega)
      refine then_of_ok (skip?_other (isSymbol_of_isKeyword isVar _)) ?_
      refine then_of_ok (skipKeyword?_cons isVar) ?_
      exact then_of_ok accepted rfl
  | @expressionInitializer inner semicolon value _ _ valueRead isEnd =>
      have accepted := expressionThen_accepts limit .expressionEnd rfl
        Statement.expression cursor rest
        ⟨inner, semicolon, value, rfl, rfl, isEnd, valueRead⟩ within bounded
      obtain ⟨token, tail, rfl, starts⟩ := startsExpression_of_assignment valueRead
      refine then_of_ok (skip?_other (isSymbol_of_startsExpression starts (by decide))) ?_
      refine then_of_ok
        (skipKeyword?_other (isKeyword_of_startsExpression starts (by decide))) ?_
      exact then_of_ok accepted rfl

section Nested

variable {nested : Parser Statement} {declaration : Parser (Option Statement)}

/-- A condition in parentheses is read up to what follows it. -/
theorem conditionThen_of_ok {α : Type} {opens closes : Mark} {following : Expression → Parser α}
    (isOpening : opens.symbol = .leftParen) (isClosing : closes.symbol = .rightParen)
    {cursor : Cursor} {left right : Token} {word rest : List Token} {first next : Nat}
    {condition : Expression} {result : EStateM.Result SyntaxError Cursor α}
    (isLeft : left.isSymbol .leftParen)
    (read : Reads word first (.expression .assignment condition) next)
    (isRight : right.isSymbol .rightParen) (bounded : word.length + rest.length + 1 < cursor.bound)
    (behind : following condition (cursor.moved rest next) = result) :
    (do
      let _ ← require opens
      let condition ← expression
      let _ ← require closes
      following condition) (cursor.moved (left :: (word ++ right :: rest)) first) = result := by
  have accepted := expression_accepts _ cursor (right :: rest)
    ⟨read, by simpa using assignment_ends isRight (by decide)⟩ (Nat.le_refl _)
    (by simp only [List.length_cons]; omega)
  refine then_of_ok (require_cons _ (by rw [isOpening]; exact isLeft)) ?_
  refine then_of_ok accepted ?_
  exact then_of_ok (require_cons _ (by rw [isClosing]; exact isRight)) behind

variable {cursor : Cursor} {dangling : Bool} {word₁ word₂ word₃ word₄ rest : List Token}
  {first second third fourth next : Nat}

theorem ifStatement_of_if {left right : Token} {condition : Expression} {body : Statement}
    (inside : nested.Accepts limit (readsClosed .statement))
    (isLeft : left.isSymbol .leftParen)
    (conditionRead : Reads word₁ first (.expression .assignment condition) second)
    (isRight : right.isSymbol .rightParen)
    (bodyRead : Reads word₂ second (.statement dangling body) next)
    (noElse : rest.head?.any (Token.isKeyword .else) = false) (within : word₂.length ≤ limit)
    (bounded : word₁.length + word₂.length + rest.length + 1 < cursor.bound) :
    ifStatement nested
        (cursor.moved (left :: (word₁ ++ right :: (word₂ ++ rest))) first) =
      .ok (.conditional condition body none) (cursor.moved rest next) := by
  refine conditionThen_of_ok rfl rfl isLeft conditionRead isRight
    (by simp only [List.length_append]; omega) ?_
  refine then_of_ok (inside _ _ ⟨dangling, bodyRead, fun _ => noElse⟩ within (by omega)) ?_
  refine then_of_ok (skipKeyword?_stop noElse) ?_
  exact then_of_ok (pure_apply none _) rfl

theorem ifStatement_of_ifElse {left right separator : Token} {condition : Expression}
    {thenBranch elseBranch : Statement}
    (inside : nested.Accepts limit (readsClosed .statement))
    (isLeft : left.isSymbol .leftParen)
    (conditionRead : Reads word₁ first (.expression .assignment condition) second)
    (isRight : right.isSymbol .rightParen)
    (thenRead : Reads word₂ second (.statement false thenBranch) third)
    (isElse : separator.isKeyword .else)
    (elseRead : Reads word₃ third (.statement dangling elseBranch) next)
    (closed : dangling = true → rest.head?.any (Token.isKeyword .else) = false)
    (within : word₂.length + word₃.length ≤ limit)
    (bounded : word₁.length + word₂.length + word₃.length + rest.length + 2 < cursor.bound) :
    ifStatement nested
        (cursor.moved (left :: (word₁ ++ right :: (word₂ ++ separator :: (word₃ ++ rest)))) first) =
      .ok (.conditional condition thenBranch (some elseBranch)) (cursor.moved rest next) := by
  refine conditionThen_of_ok rfl rfl isLeft conditionRead isRight
    (by simp only [List.length_append, List.length_cons]; omega) ?_
  refine then_of_ok (inside _ _ ⟨false, thenRead, nofun⟩ (by omega)
    (by simp only [List.length_append, List.length_cons]; omega)) ?_
  refine then_of_ok (skipKeyword?_cons isElse) ?_
  exact then_of_ok (map_of_ok some
    (inside _ _ ⟨dangling, elseRead, closed⟩ (by omega) (by omega))) rfl

theorem whileStatement_of_while {left right : Token} {condition : Expression} {body : Statement}
    (inside : nested.Accepts limit (readsClosed .statement))
    (isLeft : left.isSymbol .leftParen)
    (conditionRead : Reads word₁ first (.expression .assignment condition) second)
    (isRight : right.isSymbol .rightParen)
    (bodyRead : Reads word₂ second (.statement dangling body) next)
    (closed : dangling = true → rest.head?.any (Token.isKeyword .else) = false)
    (within : word₂.length ≤ limit)
    (bounded : word₁.length + word₂.length + rest.length + 1 < cursor.bound) :
    whileStatement nested
        (cursor.moved (left :: (word₁ ++ right :: (word₂ ++ rest))) first) =
      .ok (.loop condition body) (cursor.moved rest next) := by
  refine conditionThen_of_ok rfl rfl isLeft conditionRead isRight
    (by simp only [List.length_append]; omega) ?_
  exact then_of_ok (inside _ _ ⟨dangling, bodyRead, closed⟩ within (by omega)) rfl

theorem forStatement_of_for {left semicolon right : Token} {initializer : Option Statement}
    {condition increment : Option Expression} {body : Statement}
    (inside : nested.Accepts limit (readsClosed .statement))
    (isLeft : left.isSymbol .leftParen)
    (initializerRead : Reads word₁ first (.initializer initializer) second)
    (conditionRead : Reads word₂ second (.optional condition) third)
    (isEnd : semicolon.isSymbol .semicolon)
    (incrementRead : Reads word₃ third (.optional increment) fourth)
    (isRight : right.isSymbol .rightParen)
    (bodyRead : Reads word₄ fourth (.statement dangling body) next)
    (closed : dangling = true → rest.head?.any (Token.isKeyword .else) = false)
    (within : word₄.length ≤ limit)
    (bounded : word₁.length + word₂.length + word₃.length + word₄.length + rest.length + 2 <
      cursor.bound) :
    forStatement nested (cursor.moved
        (left :: (word₁ ++ (word₂ ++ semicolon :: (word₃ ++ right :: (word₄ ++ rest))))) first) =
      .ok (forScope initializer (.loop (forCondition condition next).1 (forRound increment body)))
        (cursor.moved rest (forCondition condition next).2) := by
  have first := forInitializer_accepts word₁.length cursor
    (word₂ ++ semicolon :: (word₃ ++ right :: (word₄ ++ rest))) initializerRead
    (Nat.le_refl _) (by simp only [List.length_append, List.length_cons]; omega)
  have second := optionalExpression_accepts word₂.length .semicolon (by decide) cursor
    (semicolon :: (word₃ ++ right :: (word₄ ++ rest)))
    ⟨conditionRead, by simpa using isEnd⟩ (Nat.le_refl _)
    (by simp only [List.length_append, List.length_cons]; omega)
  have third := optionalExpression_accepts word₃.length .rightParen (by decide) cursor
    (right :: (word₄ ++ rest))
    ⟨incrementRead, by simpa using isRight⟩ (Nat.le_refl _)
    (by simp only [List.length_append, List.length_cons]; omega)
  refine then_of_ok (require_cons .forOpen isLeft) ?_
  refine then_of_ok first ?_
  refine then_of_ok second ?_
  refine then_of_ok (require_cons .forConditionEnd isEnd) ?_
  refine then_of_ok third ?_
  refine then_of_ok (require_cons .forClose isRight) ?_
  refine then_of_ok (inside _ _ ⟨dangling, bodyRead, closed⟩ within (by omega)) ?_
  cases condition with
  | some condition => exact then_of_ok (pure_apply condition _) rfl
  | none => exact then_of_ok (node_moved _) rfl

/-! ### Declarations -/

/-- Declarations are read up to where they stop, by induction on a bound above their
tokens. None of them starts with an `else`, so that a dangling `if` in front of one stays
without. -/
theorem declarationsUntil_accepts (inside : declaration.Accepts limit readsFound)
    (stop : Token → Bool) (startsNot : ∀ token, startsDeclaration token → stop token = false)
    (stopIsNoElse : ∀ token, stop token → token.isKeyword .else = false) (bound : Nat) :
    (declarationsUntil stop declaration bound).Accepts limit
      fun word first statements next rest => word.length < bound ∧
        Reads word first (.declarations statements) next ∧
          (rest = [] ∨ rest.head?.any stop = true) := by
  induction bound with
  | zero => exact fun _ _ _ _ _ _ read => absurd read.1 (Nat.not_lt_zero _)
  | succ bound inductionHypothesis =>
      rintro cursor rest word first statements next ⟨short, read, exit⟩ within bounded
      have noElse : rest.head?.any (Token.isKeyword .else) = false := by
        rcases exit with rfl | stops
        · rfl
        · cases rest with
          | nil => rfl
          | cons token rest => simpa using stopIsNoElse token (by simpa using stops)
      cases read with
      | noDeclaration =>
          refine then_of_ok (atEnd_moved) (then_of_ok (at?_moved _) ?_)
          have done : (([] ++ rest).isEmpty || ([] ++ rest).head?.any stop) = true := by
            rcases exit with rfl | stops
            · rfl
            · rw [List.nil_append, stops, Bool.or_true]
          rw [if_pos done]
          rfl
      | @nextDeclaration front back dangling statement statements _ middle _ oneRead othersRead =>
          obtain ⟨token, tail, rfl, starts⟩ := startsDeclaration_of_declaration oneRead
          simp only [List.length_append, List.length_cons] at short within bounded
          have closed : (back ++ rest).head?.any (Token.isKeyword .else) = false := by
            cases othersRead with
            | noDeclaration => exact noElse
            | nextDeclaration nextRead =>
                obtain ⟨_, _, rfl, starts⟩ := startsDeclaration_of_declaration nextRead
                simpa using isKeyword_of_startsDeclaration starts (by decide)
          have one := inside cursor (back ++ rest)
            ⟨statement, rfl, dangling, oneRead, fun _ => closed⟩
            (by simp only [List.length_cons]; omega)
            (by simp only [List.length_append, List.length_cons]; omega)
          have others := inductionHypothesis cursor rest
            ⟨by omega, othersRead, exit⟩ (by omega) (by omega)
          rw [List.append_assoc]
          refine then_of_ok (atEnd_moved) (then_of_ok (at?_moved _) ?_)
          simp only [List.cons_append, List.isEmpty_cons, List.head?_cons, Option.any_some,
            startsNot token starts, Bool.or_self, Bool.false_eq_true, ↓reduceIte]
          refine then_of_ok one ?_
          exact then_of_ok others rfl

theorem block_accepts (inside : declaration.Accepts limit readsFound) :
    (block declaration).Accepts (limit + 1) fun word first statements next _ =>
      ∃ inner closing, word = inner ++ [closing] ∧ closing.isSymbol .rightBrace ∧
        Reads inner first (.declarations statements) next := by
  rintro cursor rest _ first statements next ⟨inner, closing, rfl, isClose, read⟩ within bounded
  have split : inner ++ [closing] ++ rest = inner ++ closing :: rest := by simp
  simp only [List.length_append, List.length_singleton] at within bounded
  have accepted := declarationsUntil_accepts inside (Token.isSymbol .rightBrace)
    (fun token starts => isSymbol_of_startsDeclaration starts (by decide))
    (fun token stops => isKeyword_of_isSymbol stops _) cursor.bound cursor (closing :: rest)
    ⟨by omega, read, Or.inr (by simpa using isClose)⟩ (by omega)
    (by simp only [List.length_cons]; omega)
  rw [split]
  refine then_of_ok (get_apply _) ?_
  refine then_of_ok accepted ?_
  exact then_of_ok (require_cons .blockClose isClose) rfl

theorem parameters_accepts (limit : Nat) :
    (listUpTo .parametersClose (requireName .parameter) .tooManyParameters).Accepts limit
      fun word first result next _ => ∃ inner, word = inner ++ [result.2] ∧
        (next = first ∧ Reads inner first (.parameters result.1) first) ∧
          result.1.length ≤ maxItems ∧ result.2.isSymbol .rightParen := by
  have one : (requireName .parameter).Accepts limit fun word first name next (rest : List Token) =>
      (next = first ∧ word = [name] ∧ name.isIdentifier) ∧
        rest.head?.any (fun _ => false) = false := by
    rintro cursor rest _ first name _ ⟨⟨rfl, rfl, isName⟩, _⟩ _ _
    exact requireName_cons isName
  have accepted := listUpTo_accepts .parametersClose .tooManyParameters (fun _ => false)
    (fun word first name next => next = first ∧ word = [name] ∧ name.isIdentifier)
    (fun word first names next =>
      names ≠ [] ∧ next = first ∧ Reads word first (.parameters names) first)
    one ?splits (fun _ _ => rfl) (fun _ _ => rfl) (by decide) ?opens
  case splits =>
      rintro word first names _ ⟨nonempty, rfl, read⟩
      cases read with
      | noParameters => exact absurd rfl nonempty
      | lastParameter isName => exact Or.inl ⟨_, rfl, rfl, rfl, isName⟩
      | nextParameter isName isComma others =>
          exact Or.inr ⟨_, _, _, _, _, _, rfl, rfl, ⟨rfl, rfl, isName⟩, isComma,
            List.cons_ne_nil _ _, rfl, others⟩
  case opens =>
      rintro word first names _ ⟨nonempty, rfl, read⟩
      cases read with
      | noParameters => exact absurd rfl nonempty
      | lastParameter isName | nextParameter isName =>
          exact ⟨_, _, rfl, isSymbol_of_isIdentifier isName _⟩
  rintro cursor rest _ first ⟨names, closing⟩ _ ⟨inner, rfl, ⟨rfl, read⟩, few, isClose⟩
  refine accepted cursor rest ⟨inner, rfl, ?_, few, isClose⟩
  cases read with
  | noParameters => exact Or.inl ⟨rfl, rfl, rfl⟩
  | lastParameter isName => exact Or.inr ⟨List.cons_ne_nil _ _, rfl, Reads.lastParameter isName⟩
  | nextParameter isName isComma others =>
      exact Or.inr ⟨List.cons_ne_nil _ _, rfl, Reads.nextParameter isName isComma others⟩

theorem function_accepts (inside : declaration.Accepts limit readsFound) (role : FunctionRole) :
    (function declaration role).Accepts (limit + 1) fun word first function next _ =>
      Reads word first (.function function) next := by
  intro cursor rest word first declared next read within bounded
  cases read with
  | @function name left right opening closing names inner parameters body _ _ isName isLeft
      namesRead few isRight isOpening bodyRead isClosing =>
      have split : name :: left :: names ++ right :: opening :: inner ++ [closing] ++ rest =
          name :: left :: (names ++ [right] ++ opening :: (inner ++ [closing] ++ rest)) := by simp
      simp only [List.length_cons, List.length_append, List.length_nil] at within bounded
      have list : listUpTo .parametersClose (requireName .parameter) .tooManyParameters
          (cursor.moved (names ++ [right] ++ opening :: (inner ++ [closing] ++ rest)) first) =
            .ok (parameters, right)
              (cursor.moved (opening :: (inner ++ [closing] ++ rest)) first) :=
        parameters_accepts (names.length + 1) cursor (opening :: (inner ++ [closing] ++ rest))
        ⟨names, rfl, ⟨rfl, namesRead⟩, few, isRight⟩ (by simp)
        (by simp only [List.length_append, List.length_cons, List.length_nil]; omega)
      have statements := block_accepts inside cursor rest
        ⟨inner, closing, rfl, isClosing, bodyRead⟩
        (by simp only [List.length_append, List.length_singleton]; omega)
        (by simp only [List.length_append, List.length_singleton]; omega)
      rw [split]
      refine then_of_ok (requireName_cons isName) ?_
      refine then_of_ok (require_cons (.parametersOpen role) isLeft) ?_
      refine then_of_ok list ?_
      refine then_of_ok (require_cons (.bodyOpen role) isOpening) ?_
      exact then_of_ok statements rfl

theorem methodsFrom_accepts (inside : declaration.Accepts limit readsFound) (bound : Nat) :
    (methodsFrom declaration bound).Accepts (limit + 1) fun word first methods next rest =>
      word.length < bound ∧ Reads word first (.functions methods) next ∧
        rest.head?.any (Token.isSymbol .rightBrace) = true := by
  induction bound with
  | zero => exact fun _ _ _ _ _ _ read => absurd read.1 (Nat.not_lt_zero _)
  | succ bound inductionHypothesis =>
      rintro cursor rest word first methods next ⟨short, read, stops⟩ within bounded
      cases read with
      | noFunction =>
          refine then_of_ok (atEnd_moved) (then_of_ok (at?_moved _) ?_)
          rw [List.nil_append, stops, Bool.or_true, if_pos rfl]
          rfl
      | @nextFunction front back method methods _ middle _ oneRead othersRead =>
          simp only [List.length_append] at short within bounded
          have one := function_accepts inside .method cursor (back ++ rest)
            oneRead (by omega) (by simp only [List.length_append]; omega)
          cases oneRead with
          | @function name _ _ _ _ _ _ _ _ _ _ isName =>
              simp only [List.cons_append, List.length_cons] at short within bounded
              have others := inductionHypothesis cursor rest
                ⟨by omega, othersRead, stops⟩ (by omega) (by omega)
              rw [List.append_assoc]
              refine then_of_ok (atEnd_moved) (then_of_ok (at?_moved _) ?_)
              simp only [List.cons_append, List.isEmpty_cons, List.head?_cons, Option.any_some,
                isSymbol_of_isIdentifier isName, Bool.or_self, Bool.false_eq_true, ↓reduceIte]
              refine then_of_ok (by simpa using one) ?_
              exact then_of_ok others rfl

/-- A name, or an expression, starts neither with a keyword of declarations nor with one
of the other statements. -/
theorem declared_accepts {statement : Parser Statement}
    (inside : declaration.Accepts limit readsFound)
    (insideStatement : statement.Accepts (limit + 1) (readsClosed .statement)) :
    (declared declaration statement).Accepts (limit + 1) (readsClosed .declaration) := by
  rintro cursor rest word first value next ⟨dangling, read, closed⟩ within bounded
  cases read with
  | @classDeclaration keyword name opening closing inner methods _ _ isClass isName isOpening read
      isClosing =>
      have split : keyword :: name :: opening :: inner ++ [closing] ++ rest =
          keyword :: name :: opening :: (inner ++ closing :: rest) := by simp
      simp only [List.length_cons, List.length_append, List.length_nil] at within bounded
      have list := methodsFrom_accepts inside cursor.bound cursor (closing :: rest)
        ⟨by omega, read, by simpa using isClosing⟩ (by omega)
        (by simp only [List.length_cons]; omega)
      rw [split]
      refine then_of_ok (skipKeyword?_cons isClass) ?_
      refine then_of_ok (requireName_cons isName) ?_
      refine then_of_ok (require_cons .classOpen isOpening) ?_
      refine then_of_ok (get_apply _) ?_
      refine then_of_ok list ?_
      exact then_of_ok (require_cons .classClose isClosing) rfl
  | functionDeclaration isFun read =>
      simp only [List.length_cons] at within bounded
      have accepted := function_accepts inside .function cursor rest read
        (by omega) (by omega)
      refine then_of_ok (skipKeyword?_other (isKeyword_of_isKeyword isFun _)) ?_
      refine then_of_ok (skipKeyword?_cons isFun) ?_
      exact then_of_ok accepted rfl
  | variableDeclaration isVar read =>
      simp only [List.length_cons] at within bounded
      have accepted := varDeclaration_accepts limit cursor rest
        read (by omega) (by omega)
      refine then_of_ok (skipKeyword?_other (isKeyword_of_isKeyword isVar _)) ?_
      refine then_of_ok (skipKeyword?_other (isKeyword_of_isKeyword isVar _)) ?_
      exact then_of_ok (skipKeyword?_cons isVar) accepted
  | statement read =>
      have accepted := insideStatement cursor rest ⟨dangling, read, closed⟩ within bounded
      obtain ⟨token, tail, rfl, starts⟩ := startsStatement_of_statement read
      refine then_of_ok (skipKeyword?_other (isKeyword_of_startsStatement starts (by decide))) ?_
      refine then_of_ok (skipKeyword?_other (isKeyword_of_startsStatement starts (by decide))) ?_
      refine then_of_ok (skipKeyword?_other (isKeyword_of_startsStatement starts (by decide))) ?_
      exact accepted

theorem statementOf_accepts (insideDeclaration : declaration.Accepts limit readsFound)
    (inside : nested.Accepts limit (readsClosed .statement)) :
    (statementOf declaration nested).Accepts (limit + 1) (readsClosed .statement) := by
  rintro cursor rest word first value next ⟨dangling, read, closed⟩ within bounded
  cases read with
  | @«for» keyword left semicolon right word₁ word₂ word₃ word₄ _ _ _ _ _ _ _ _ _ _ isFor isLeft
      initializerRead conditionRead isEnd incrementRead isRight bodyRead =>
      have split : keyword :: left :: word₁ ++ word₂ ++ semicolon :: word₃ ++ right :: word₄ ++
            rest =
          keyword :: left ::
            (word₁ ++ (word₂ ++ semicolon :: (word₃ ++ right :: (word₄ ++ rest)))) := by simp
      simp only [List.length_cons, List.length_append] at within bounded
      rw [split]
      refine then_of_ok (skipKeyword?_cons isFor) ?_
      exact forStatement_of_for inside isLeft initializerRead conditionRead isEnd incrementRead
        isRight bodyRead closed (by omega) (by omega)
  | @«if» keyword left right word₁ word₂ condition _ body _ _ _ isIf isLeft conditionRead isRight
      bodyRead =>
      have split : keyword :: left :: word₁ ++ right :: word₂ ++ rest =
          keyword :: left :: (word₁ ++ right :: (word₂ ++ rest)) := by simp
      simp only [List.length_cons, List.length_append] at within bounded
      rw [split]
      refine then_of_ok (skipKeyword?_other (isKeyword_of_isKeyword isIf _)) ?_
      refine then_of_ok (skipKeyword?_cons isIf) ?_
      exact ifStatement_of_if inside isLeft conditionRead isRight bodyRead (closed rfl)
        (by omega) (by omega)
  | @ifElse keyword left right separator word₁ word₂ word₃ _ _ _ _ _ _ _ _ isIf isLeft conditionRead
      isRight thenRead isElse elseRead =>
      have split : keyword :: left :: word₁ ++ right :: word₂ ++ separator :: word₃ ++ rest =
          keyword :: left ::
            (word₁ ++ right :: (word₂ ++ separator :: (word₃ ++ rest))) := by simp
      simp only [List.length_cons, List.length_append] at within bounded
      rw [split]
      refine then_of_ok (skipKeyword?_other (isKeyword_of_isKeyword isIf _)) ?_
      refine then_of_ok (skipKeyword?_cons isIf) ?_
      exact ifStatement_of_ifElse inside isLeft conditionRead isRight thenRead isElse elseRead
        closed (by omega) (by omega)
  | @«while» keyword left right word₁ word₂ _ _ _ _ _ _ isWhile isLeft conditionRead isRight
      bodyRead =>
      have split : keyword :: left :: word₁ ++ right :: word₂ ++ rest =
          keyword :: left :: (word₁ ++ right :: (word₂ ++ rest)) := by simp
      simp only [List.length_cons, List.length_append] at within bounded
      rw [split]
      refine then_of_ok (skipKeyword?_other (isKeyword_of_isKeyword isWhile _)) ?_
      refine then_of_ok (skipKeyword?_other (isKeyword_of_isKeyword isWhile _)) ?_
      refine then_of_ok (skipKeyword?_cons isWhile) ?_
      exact whileStatement_of_while inside isLeft conditionRead isRight bodyRead closed
        (by omega) (by omega)
  | @«return» keyword semicolon inner value _ _ isReturn valueRead isEnd =>
      have split : keyword :: inner ++ [semicolon] ++ rest =
          keyword :: (inner ++ semicolon :: rest) := by simp
      simp only [List.length_cons, List.length_append, List.length_nil] at within bounded
      have accepted := optionalExpression_accepts inner.length .semicolon (by decide) cursor
        (semicolon :: rest) ⟨valueRead, by simpa using isEnd⟩ (Nat.le_refl _)
        (by simp only [List.length_cons]; omega)
      rw [split]
      refine then_of_ok (skipKeyword?_other (isKeyword_of_isKeyword isReturn _)) ?_
      refine then_of_ok (skipKeyword?_other (isKeyword_of_isKeyword isReturn _)) ?_
      refine then_of_ok (skipKeyword?_other (isKeyword_of_isKeyword isReturn _)) ?_
      refine then_of_ok (take?_cons isReturn) ?_
      refine then_of_ok accepted ?_
      exact then_of_ok (require_cons .returnEnd isEnd) rfl
  | @block left right inner statements _ _ isLeft read isRight =>
      have split : left :: inner ++ [right] ++ rest = left :: (inner ++ [right] ++ rest) := by simp
      simp only [List.length_cons, List.length_append, List.length_nil] at within bounded
      have accepted := block_accepts insideDeclaration cursor rest
        ⟨inner, right, rfl, isRight, read⟩
        (by simp only [List.length_append, List.length_singleton]; omega)
        (by simp only [List.length_append, List.length_singleton]; omega)
      rw [split]
      refine then_of_ok (skipKeyword?_other (isKeyword_of_isSymbol isLeft _)) ?_
      refine then_of_ok (skipKeyword?_other (isKeyword_of_isSymbol isLeft _)) ?_
      refine then_of_ok (skipKeyword?_other (isKeyword_of_isSymbol isLeft _)) ?_
      refine then_of_ok (take?_other (isKeyword_of_isSymbol isLeft _)) ?_
      refine then_of_ok (skip?_cons isLeft) ?_
      exact then_of_ok accepted rfl
  | @print keyword semicolon inner value _ _ isPrint valueRead isEnd =>
      simp only [List.length_cons, List.length_append, List.length_nil] at within bounded
      have accepted := expressionThen_accepts (inner.length + 1) .printEnd rfl
        Statement.print cursor rest
        ⟨inner, semicolon, value, rfl, rfl, isEnd, valueRead⟩ (by simp)
        (by simp only [List.length_append, List.length_singleton]; omega)
      refine then_of_ok (skipKeyword?_other (isKeyword_of_isKeyword isPrint _)) ?_
      refine then_of_ok (skipKeyword?_other (isKeyword_of_isKeyword isPrint _)) ?_
      refine then_of_ok (skipKeyword?_other (isKeyword_of_isKeyword isPrint _)) ?_
      refine then_of_ok (take?_other (isKeyword_of_isKeyword isPrint _)) ?_
      refine then_of_ok (skip?_other (isSymbol_of_isKeyword isPrint _)) ?_
      exact then_of_ok (skipKeyword?_cons isPrint) accepted
  | @expression inner semicolon value _ _ valueRead isEnd =>
      have accepted := expressionThen_accepts (limit + 1) .expressionEnd rfl
        Statement.expression cursor rest
        ⟨inner, semicolon, value, rfl, rfl, isEnd, valueRead⟩ within bounded
      obtain ⟨token, tail, rfl, starts⟩ := startsExpression_of_assignment valueRead
      have notKeyword {keyword : Keyword} (other : keyword ∉ expressionKeywords) :=
        isKeyword_of_startsExpression starts other
      refine then_of_ok (skipKeyword?_other (notKeyword (by decide))) ?_
      refine then_of_ok (skipKeyword?_other (notKeyword (by decide))) ?_
      refine then_of_ok (skipKeyword?_other (notKeyword (by decide))) ?_
      refine then_of_ok (take?_other (notKeyword (by decide))) ?_
      refine then_of_ok
        (skip?_other (isSymbol_of_startsExpression starts (by decide))) ?_
      exact then_of_ok (skipKeyword?_other (notKeyword (by decide))) accepted

end Nested

/-- By induction on how deep statements nest. -/
theorem within_accepts (depth : Nat) :
    (statementWithin depth).Accepts depth (readsClosed .statement) ∧
      (declarationWithin depth).Accepts depth readsFound := by
  induction depth with
  | zero =>
      refine ⟨?_, ?_⟩
      · rintro cursor rest word first value next ⟨_, read, _⟩ within
        obtain ⟨token, tail, rfl, _⟩ := startsStatement_of_statement read
        simp at within
      · rintro cursor rest word first value next ⟨_, _, _, read, _⟩ within
        obtain ⟨token, tail, rfl, _⟩ := startsDeclaration_of_declaration read
        simp at within
  | succ depth inductionHypothesis =>
      obtain ⟨statements, declarations⟩ := inductionHypothesis
      have inside := statementOf_accepts declarations statements
      refine ⟨inside, ?_⟩
      rintro cursor rest word first _ next ⟨statement, rfl, read⟩ within bounded
      exact recover_of_ok (declared_accepts declarations inside cursor rest read within bounded)

theorem program_accepts :
    program.Accepts limit fun word first statements next rest =>
      rest = [] ∧ Reads word first (.declarations statements) next := by
  rintro cursor _ word first statements next ⟨rfl, read⟩ within bounded
  refine then_of_ok (get_apply _) ?_
  exact declarationsUntil_accepts (within_accepts _).2 (fun _ => false) (fun _ _ => rfl) nofun
    cursor.bound cursor []
    ⟨by simpa using bounded, read, Or.inl rfl⟩ (Nat.le_of_lt (by simpa using bounded)) bounded

end Lox.Grammar
