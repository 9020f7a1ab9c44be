import Mathlib
import Lox.Proofs.Grammar.Program
import Lox.Proofs.Relabel.Grammar
import Lox.Proofs.Syntax.Printed

/-!
Contract: the source form of an expression reads as that expression.

Owns:
- that tokens which look like those of a source form read as the wrapped expression;
- what scanning and parsing the source form of an expression from a source gives.

Does not own: expressions that no source reads as.
-/

namespace Lox

open Grammar Source

/-! ### Tokens that look alike -/

/-- What does not depend on the place of a token is the same of tokens that look alike. -/
theorem alike {α : Type} {left right : Token} (same : left.unplaced = right.unplaced)
    {property : Token → α} (unplaced : ∀ token : Token, property token.unplaced = property token) :
    property left = property right := by
  rw [← unplaced, same, unplaced]

section Alike

variable {left right : Token} (same : left.unplaced = right.unplaced)
include same

theorem isSymbol_alike {symbol : Symbol} (is : right.isSymbol symbol) : left.isSymbol symbol :=
  (alike same fun token => Relabelling.unplaced.isSymbol_token token symbol).trans is

theorem isIdentifier_alike (is : right.isIdentifier) : left.isIdentifier :=
  (alike same Relabelling.unplaced.isIdentifier_token).trans is

theorem isOperator_alike {level : BinaryLevel} (is : level.isOperator right) :
    level.isOperator left :=
  (alike same fun token => Relabelling.unplaced.isOperator_token token level).trans is

end Alike

/-- The tokens of a word look like those among pieces. -/
def Looks (word : List Token) (found : List Piece) : Prop :=
  word.map Token.unplaced = found.filterMap Piece.token?

namespace Looks

variable {word : List Token} {found others : List Piece} {token : Token}

theorem nil_inv (looks : Looks word []) : word = [] :=
  List.map_eq_nil_iff.mp looks

theorem cons_inv (looks : Looks word (.ofToken token :: found)) :
    ∃ first rest, word = first :: rest ∧ first.unplaced = token.unplaced ∧ Looks rest found := by
  unfold Looks at looks
  rw [List.filterMap_cons_some (Piece.token?_ofToken token)] at looks
  exact List.map_eq_cons_iff.mp looks

theorem append_inv (looks : Looks word (found ++ others)) :
    ∃ front back, word = front ++ back ∧ Looks front found ∧ Looks back others := by
  unfold Looks at looks
  rw [List.filterMap_append] at looks
  exact List.map_eq_append_iff.mp looks

theorem single_inv (looks : Looks word [.ofToken token]) :
    ∃ only, word = [only] ∧ only.unplaced = token.unplaced := by
  obtain ⟨only, rest, rfl, same, none⟩ := looks.cons_inv
  exact ⟨only, by rw [none.nil_inv], same⟩

theorem enclosed_inv (looks : Looks word (enclosed found)) :
    ∃ left inner right, word = left :: inner ++ [right] ∧ left.isSymbol .leftParen ∧
      Looks inner found ∧ right.unplaced = (Token.mark .rightParen ')').unplaced := by
  obtain ⟨front, back, rfl, opening, closing⟩ := looks.append_inv
  obtain ⟨left, inner, rfl, isLeft, inside⟩ := opening.cons_inv
  obtain ⟨right, rfl, isRight⟩ := closing.single_inv
  exact ⟨left, inner, right, rfl, isSymbol_alike isLeft rfl, inside, isRight⟩

theorem assigning_inv (looks : Looks word (assigning ++ found)) :
    ∃ equals rest, word = equals :: rest ∧ equals.isSymbol .equal ∧ Looks rest found := by
  have visible : Looks word (.ofToken (.mark .equal '=') :: .blank :: found) := looks
  obtain ⟨equals, rest, rfl, isEqual, behind⟩ := visible.cons_inv
  exact ⟨equals, rest, rfl, isSymbol_alike isEqual rfl, behind⟩

theorem operation_inv
    (looks : Looks word (found ++ .blank :: .ofToken token :: .blank :: others)) :
    ∃ front operator back, word = front ++ operator :: back ∧ Looks front found ∧
      operator.unplaced = token.unplaced ∧ Looks back others := by
  obtain ⟨front, rest, rfl, before, behind⟩ := looks.append_inv
  have visible : Looks rest (.ofToken token :: .blank :: others) := behind
  obtain ⟨operator, back, rfl, same, behind⟩ := visible.cons_inv
  exact ⟨front, operator, back, rfl, before, same, behind⟩

end Looks

/-! ### Tokens of an expression -/

/-- A closing parenthesis is spelled in one way only. -/
theorem Token.Scanned.unplaced_paren {paren : Token} (scanned : paren.Scanned)
    (isParen : paren.isSymbol .rightParen) :
    paren.unplaced = (Token.mark .rightParen ')').unplaced := by
  have kind := isSymbol_iff.mp isParen
  unfold Token.Scanned at scanned
  rw [kind] at scanned
  have spelled : paren.lexeme = String.ofList [')'] := by
    rcases scanned.symbol_inv with ⟨c, stands, text⟩ | ⟨c, short, _, longer, _⟩
    · unfold Symbol.ofChar? at stands
      split at stands <;> first | cases stands; rw [← text, String.ofList_toList] | cases stands
    · cases short <;> cases longer
  unfold Token.unplaced Token.mark
  rw [kind, spelled]

theorem Token.Scanned.unplaced_this {keyword : Token} (scanned : keyword.Scanned)
    (isThis : keyword.isKeyword .this) :
    keyword.unplaced = (Token.reserved .this).unplaced := by
  have kind := isKeyword_iff.mp isThis
  have spelled := scanned.spelled.keyword .this kind
  unfold Token.unplaced Token.reserved
  rw [kind, spelled]

/-! ### Words -/

/-- From any number on, a word reads as an expression of a level, the same as a given one. -/
def ReadsLike (word : List Token) (level : Level) (target : Expression) : Prop :=
  ∀ first, ∃ value next, Reads word first (.expression level value) next ∧ value.Same target

namespace ReadsLike

variable {word front back : List Token} {target object : Expression}

theorem assignment (reads : ReadsLike word .call target) : ReadsLike word .assignment target :=
  fun first =>
    have ⟨value, next, read, same⟩ := reads first
    ⟨value, next, .notAssigned (disjunction_of_call read), same⟩

/-- A word in parentheses. -/
theorem enclosed {found : List Piece} (looks : Looks word (enclosed found)) (id : Nat)
    (inside : ∀ inner, Looks inner found → ReadsLike inner .assignment target) :
    ReadsLike word .call (.grouping id target) := by
  intro first
  obtain ⟨left, inner, right, rfl, isLeft, looks, isRight⟩ := looks.enclosed_inv
  obtain ⟨value, next, read, same⟩ := inside inner looks first
  refine ⟨_, _, call_of_primary (.grouping isLeft read (isSymbol_alike isRight rfl)), ?_⟩
  simpa [Expression.Same] using same

theorem operation {level : BinaryLevel} {operator original : Token}
    (same : operator.unplaced = original.unplaced) (isOperator : level.isOperator original)
    (id : Nat) (left : ReadsLike front .call object) (right : ReadsLike back .call target) :
    ReadsLike (front ++ operator :: back) .assignment (level.make id object original target) := by
  intro first
  obtain ⟨leftValue, middle, leftRead, leftSame⟩ := left first
  obtain ⟨rightValue, next, rightRead, rightSame⟩ := right middle
  have behind : Reads (operator :: back) middle (.operations level leftValue
      (level.make next leftValue operator rightValue)) (next + 1) := by
    simpa using Reads.operation (isOperator_alike same isOperator)
      (operand_of_call level rightRead) Reads.noOperation
  refine ⟨_, _, .notAssigned (disjunction_of_binary level
    (.binary (operand_of_call level leftRead) behind)), ?_⟩
  unfold Expression.Same at *
  simp [leftSame, rightSame, same]

theorem negation {operator original : Token} (same : operator.unplaced = original.unplaced)
    (isOperator : isUnaryOperator original) (id : Nat) (operand : ReadsLike word .call target) :
    ReadsLike (operator :: word) .assignment (.unary id original target) := by
  intro first
  obtain ⟨value, next, read, operandSame⟩ := operand first
  have negates : isUnaryOperator operator :=
    (alike same Relabelling.unplaced.isUnaryOperator_token).trans isOperator
  refine ⟨_, _, .notAssigned (disjunction_of_binary .factor
    (binary_of_operand .factor (.negated negates (.notNegated read)))), ?_⟩
  unfold Expression.Same at *
  simp [operandSame, same]

theorem assign {name original equals : Token} (same : name.unplaced = original.unplaced)
    (isName : original.isIdentifier) (isEqual : equals.isSymbol .equal) (id : Nat)
    (value : ReadsLike word .call target) :
    ReadsLike (name :: equals :: word) .assignment (.assign id original target) := by
  intro first
  obtain ⟨value, next, read, valueSame⟩ := value.assignment (first + 1)
  refine ⟨_, _, .assigned (isIdentifier_alike same isName) isEqual read, ?_⟩
  unfold Expression.Same at *
  simp [valueSame, same]

theorem access {dot name original : Token} (same : name.unplaced = original.unplaced)
    (isName : original.isIdentifier) (isDot : dot.isSymbol .dot) (id : Nat)
    (reads : ReadsLike word .call object) :
    ReadsLike (word ++ [dot, name]) .call (.get id object original) := by
  intro first
  obtain ⟨value, next, read, objectSame⟩ := reads first
  refine ⟨_, _, call_append read (.get isDot (isIdentifier_alike same isName) .noAccess), ?_⟩
  unfold Expression.Same at *
  simp [objectSame, same]

theorem propertyAssign {dot name original equals : Token}
    (same : name.unplaced = original.unplaced) (isName : original.isIdentifier)
    (isDot : dot.isSymbol .dot) (isEqual : equals.isSymbol .equal) (id : Nat)
    (reads : ReadsLike front .call object) (value : ReadsLike back .call target) :
    ReadsLike (front ++ dot :: name :: equals :: back) .assignment
      (.set id object original target) := by
  intro first
  obtain ⟨objectValue, middle, read, objectSame⟩ := reads first
  obtain ⟨value, next, valueRead, valueSame⟩ := value.assignment (middle + 1)
  refine ⟨_, _, .propertyAssigned read isDot (isIdentifier_alike same isName) isEqual valueRead,
    ?_⟩
  unfold Expression.Same at *
  simp [objectSame, valueSame, same]

end ReadsLike

/-! ### Expressions -/

theorem Literal.standsFor_token {value : Literal} (finite : value.isInfinite = false) :
    StandsFor value.token.kind value := by
  unfold Literal.token Literal.kind
  cases value with
  | boolean value => cases value <;> constructor
  | number value =>
      simp only [finite]
      constructor
  | _ => constructor

theorem Literal.token_of_isInfinite {value : Literal} (written : value.Written)
    (infinite : value.isInfinite = true) : value.token = infinityName := by
  cases value with
  | number value =>
      obtain ⟨bits, inside, rfl⟩ := written
      have beyond : bits = Number.infinityBits := by
        rw [← Number.magnitudeBits_ofMagnitudeBits inside]
        exact eq_of_beq infinite
      have text := Number.write_ofMagnitudeBits inside
      rw [if_pos beyond] at text
      have spelled : (Literal.number (Number.ofMagnitudeBits bits)).sourceForm = "inf" :=
        String.toList_inj.mp text
      unfold Literal.token infinityName
      rw [Literal.kind_ofMagnitudeBits inside, if_pos beyond, spelled]
  | _ => cases infinite

namespace Expression

theorem literal_reads (id : Nat) {value : Literal} (written : value.Written) {token : Token}
    (same : token.unplaced = value.token.unplaced) :
    ReadsLike [token] .call (wrapped (.literal id value)) := by
  intro first
  cases infinite : value.isInfinite with
  | true =>
      rw [Literal.token_of_isInfinite written infinite] at same
      refine ⟨_, _, call_of_primary (.name (isIdentifier_alike same rfl)), ?_⟩
      simp [Same, wrapped, infinite, same]
  | false =>
      have stands : StandsFor token.kind value := by
        rw [alike same Relabelling.unplaced.kind]
        exact Literal.standsFor_token infinite
      refine ⟨_, _, call_of_primary (.literal stands), ?_⟩
      simp [Same, wrapped, infinite]

/-- An operator between two operands. -/
theorem operation_reads {level : BinaryLevel} {operator : Token}
    (isOperator : level.isOperator operator) (id : Nat) {left right : Expression}
    (leftReads : ∀ {word}, Looks word left.layout → ReadsLike word .call left.wrapped)
    (rightReads : ∀ {word}, Looks word right.layout → ReadsLike word .call right.wrapped)
    {word : List Token} (looks : Looks word
      (enclosed (left.layout ++ .blank :: .ofToken operator :: .blank :: right.layout))) :
    ReadsLike word .call (.grouping id (level.make id left.wrapped operator right.wrapped)) := by
  refine .enclosed looks id fun _ looks => ?_
  obtain ⟨front, token, back, rfl, looksLeft, same, looksRight⟩ := looks.operation_inv
  exact .operation same isOperator id (leftReads looksLeft) (rightReads looksRight)

/-- From any number on, a word reads as expressions, the same as given ones. -/
def ReadsLikeAll (word : List Token) (phrase : List Expression → Phrase)
    (targets : List Expression) : Prop :=
  ∀ first, ∃ values next, Reads word first (phrase values) next ∧
    relabelAll .unplaced values = relabelAll .unplaced targets

theorem call_reads {callee : Expression} {arguments : List Expression} {paren : Token}
    (scanned : paren.Scanned) (isParen : paren.isSymbol .rightParen)
    (few : arguments.length ≤ maxEntries) (id : Nat)
    (calleeReads : ∀ {word}, Looks word callee.layout → ReadsLike word .call callee.wrapped)
    (argumentsRead : arguments ≠ [] → ∀ {word}, Looks word (layoutAll arguments) →
      ReadsLikeAll word .items (wrappedAll arguments))
    {word : List Token} (looks : Looks word (callee.layout ++ enclosed (layoutAll arguments))) :
    ReadsLike word .call (.call id callee.wrapped paren (wrappedAll arguments)) := by
  obtain ⟨front, back, rfl, looksCallee, looks⟩ := looks.append_inv
  obtain ⟨left, inner, right, rfl, isLeft, looks, isRight⟩ := looks.enclosed_inv
  have list : ReadsLikeAll inner .arguments (wrappedAll arguments) := by
    intro first
    cases arguments with
    | nil =>
        obtain rfl := looks.nil_inv
        exact ⟨[], first, .noArguments, rfl⟩
    | cons argument rest =>
        obtain ⟨values, next, read, same⟩ := argumentsRead (List.cons_ne_nil _ _) looks first
        exact ⟨values, next, .someArguments read, same⟩
  intro first
  obtain ⟨value, middle, read, same⟩ := calleeReads looksCallee first
  obtain ⟨values, next, listRead, listSame⟩ := list middle
  have count : values.length = arguments.length := by
    simpa using congrArg List.length listSame
  refine ⟨_, _, call_append read (.call isLeft listRead (by omega) (isSymbol_alike isRight rfl)
    .noAccess), ?_⟩
  rw [← scanned.unplaced_paren isParen] at isRight
  unfold Same at *
  simp [same, listSame, isRight]

mutual

/-- Tokens that look like those of the source form read as the wrapped expression. By induction
on the expression. -/
theorem layout_reads : (expression : Expression) → expression.Genuine Token.Scanned →
    expression.Written → ∀ {word : List Token}, Looks word expression.layout →
    ReadsLike word .call expression.wrapped
  | .literal id value, _, written, _, looks => by
      simp only [layout] at looks
      obtain ⟨token, rfl, same⟩ := looks.single_inv
      exact literal_reads id written same
  | .variable id name, genuine, _, _, looks => by
      simp only [layout] at looks
      obtain ⟨token, rfl, same⟩ := looks.single_inv
      intro first
      refine ⟨_, _, call_of_primary (.name (isIdentifier_alike same genuine.1)), ?_⟩
      simp [Same, wrapped, same]
  | .this id keyword, genuine, _, _, looks => by
      simp only [layout] at looks
      obtain ⟨token, rfl, same⟩ := looks.single_inv
      rw [← genuine.2.unplaced_this genuine.1] at same
      have isThis : token.isKeyword .this :=
        (alike same fun token => Relabelling.unplaced.isKeyword_token token .this).trans genuine.1
      intro first
      refine ⟨_, _, call_of_primary (.this isThis), ?_⟩
      simp [Same, wrapped, same]
  | .grouping id inner, genuine, written, _, looks => by
      simp only [layout] at looks
      simp only [wrapped]
      exact .enclosed looks id fun _ looks =>
        (layout_reads inner genuine written looks).assignment
  | .unary id operator operand, genuine, written, _, looks => by
      simp only [layout] at looks
      simp only [wrapped]
      refine .enclosed looks id fun _ looks => ?_
      obtain ⟨token, rest, rfl, same, looks⟩ := looks.cons_inv
      exact .negation same genuine.1.1 id (layout_reads operand genuine.2 written looks)
  | .binary id left operator right, ⟨⟨⟨level, isOperator, noOr, noAnd⟩, _⟩, genuine⟩, written, _,
    looks => by
      simp only [layout] at looks
      have make : level.make id left.wrapped operator right.wrapped =
          .binary id left.wrapped operator right.wrapped := by
        cases level <;> first | rfl | contradiction
      simp only [wrapped]
      rw [← make]
      exact operation_reads isOperator id (layout_reads left genuine.1 written.1)
        (layout_reads right genuine.2 written.2) looks
  | .logical id left operator right, ⟨⟨isOperator, _⟩, genuine⟩, written, _, looks => by
      simp only [layout] at looks
      obtain ⟨level, isOperator, make⟩ : ∃ level : BinaryLevel, level.isOperator operator ∧
          level.make = .logical :=
        isOperator.elim (fun isOr => ⟨.disjunction, isOr, rfl⟩)
          (fun isAnd => ⟨.conjunction, isAnd, rfl⟩)
      simp only [wrapped]
      rw [← make]
      exact operation_reads isOperator id (layout_reads left genuine.1 written.1)
        (layout_reads right genuine.2 written.2) looks
  | .assign id name value, genuine, written, _, looks => by
      simp only [layout] at looks
      simp only [wrapped]
      refine .enclosed looks id fun _ looks => ?_
      obtain ⟨token, rest, rfl, same, looks⟩ := Looks.cons_inv looks
      obtain ⟨equals, rest, rfl, isEqual, looks⟩ := looks.assigning_inv
      exact .assign same genuine.1.1 isEqual id (layout_reads value genuine.2 written looks)
  | .call id callee paren arguments, genuine, written, _, looks => by
      simp only [layout] at looks
      simp only [wrapped]
      exact call_reads genuine.1.2 genuine.1.1 written.1 id
        (layout_reads callee genuine.2.1 written.2.1)
        (fun _ => layoutAll_reads arguments genuine.2.2 written.2.2 ‹_›) looks
  | .get id object name, genuine, written, _, looks => by
      simp only [layout] at looks
      simp only [wrapped]
      obtain ⟨front, back, rfl, looksObject, looks⟩ := looks.append_inv
      obtain ⟨dot, rest, rfl, isDot, looks⟩ := looks.cons_inv
      obtain ⟨token, rfl, same⟩ := looks.single_inv
      exact .access same genuine.1.1 (isSymbol_alike isDot rfl) id
        (layout_reads object genuine.2 written looksObject)
  | .set id object name value, genuine, written, _, looks => by
      simp only [layout] at looks
      simp only [wrapped]
      refine .enclosed looks id fun _ looks => ?_
      rw [List.append_assoc] at looks
      obtain ⟨front, back, rfl, looksObject, looks⟩ := looks.append_inv
      obtain ⟨dot, rest, rfl, isDot, looks⟩ := Looks.cons_inv looks
      obtain ⟨token, rest, rfl, same, looks⟩ := Looks.cons_inv looks
      obtain ⟨equals, rest, rfl, isEqual, looks⟩ := looks.assigning_inv
      exact .propertyAssign same genuine.1.1 (isSymbol_alike isDot rfl) isEqual id
        (layout_reads object genuine.2.1 written.1 looksObject)
        (layout_reads value genuine.2.2 written.2 looks)

/-- The same for an argument list. -/
theorem layoutAll_reads : (expressions : List Expression) →
    Expression.AllGenuine Token.Scanned expressions → AllWritten expressions →
    expressions ≠ [] → ∀ {word : List Token}, Looks word (layoutAll expressions) →
    ReadsLikeAll word .items (wrappedAll expressions)
  | [], _, _, nonempty, _, _ => absurd rfl nonempty
  | [last], genuine, written, _, _, looks => by
      intro first
      obtain ⟨value, next, read, same⟩ :=
        (layout_reads last genuine.1 written.1 looks).assignment first
      refine ⟨[value], next, .lastItem read, ?_⟩
      simpa [Same, wrappedAll] using same
  | expression :: following :: others, genuine, written, _, _, looks => by
      obtain ⟨front, rest, rfl, looksFirst, looks⟩ := Looks.append_inv looks
      obtain ⟨comma, back, rfl, isComma, looks⟩ := looks.cons_inv
      intro first
      obtain ⟨value, middle, read, same⟩ :=
        (layout_reads expression genuine.1 written.1 looksFirst).assignment first
      obtain ⟨values, next, listRead, listSame⟩ :=
        layoutAll_reads (following :: others) genuine.2 written.2 (List.cons_ne_nil _ _) looks
          middle
      refine ⟨value :: values, next, .nextItem read (isSymbol_alike isComma rfl) listRead, ?_⟩
      unfold Same at same
      simp only [wrappedAll, relabelAll] at listSame ⊢
      rw [same, listSame]

end

mutual

theorem literals_written : (expression : Expression) → expression.Written →
    ∀ literal ∈ expression.literals, literal.Written
  | .literal _ value, written => by simpa [literals, Written] using written
  | .variable _ _, _ | .this _ _, _ => by simp [literals]
  | .grouping _ inner, written | .unary _ _ inner, written | .assign _ _ inner, written
  | .get _ inner _, written => literals_written inner written
  | .binary _ left _ right, written | .logical _ left _ right, written
  | .set _ left _ right, written =>
      List.forall_mem_append.mpr
        ⟨literals_written left written.1, literals_written right written.2⟩
  | .call _ callee _ arguments, written =>
      List.forall_mem_append.mpr
        ⟨literals_written callee written.2.1, literalsOfAll_written arguments written.2.2⟩

theorem literalsOfAll_written : (expressions : List Expression) → AllWritten expressions →
    ∀ literal ∈ literalsOfAll expressions, literal.Written
  | [], _ => by simp [literalsOfAll]
  | expression :: rest, written =>
      List.forall_mem_append.mpr
        ⟨literals_written expression written.1, literalsOfAll_written rest written.2⟩

end

/-- A number of a source is infinite or finite. -/
theorem finite_iff {expression : Expression} (written : expression.Written) :
    (∀ literal ∈ expression.literals, literal.isInfinite = false) ↔
      ∀ value, .number value ∈ expression.literals →
        Number.magnitudeBits value < Number.infinityBits := by
  constructor
  · intro finite value member
    obtain ⟨bits, inside, rfl⟩ := literals_written expression written _ member
    have other : Number.magnitudeBits _ ≠ _ := beq_eq_false_iff_ne.mp (finite _ member)
    rw [Number.magnitudeBits_ofMagnitudeBits inside] at other ⊢
    exact Nat.lt_of_le_of_ne inside other
  · intro finite literal member
    cases literal with
    | number value =>
        exact beq_eq_false_iff_ne.mpr (Nat.ne_of_lt (finite value member))
    | _ => rfl

end Expression

/-! ### Scanning and parsing the source form -/

theorem Token.Scanned.isEof {token : Token} (scanned : token.Scanned) : token.isEof = false := by
  unfold Token.Scanned at scanned
  unfold Token.isEof
  generalize token.kind = kind at scanned
  generalize token.lexeme.toList = text at scanned
  cases scanned with
  | @word first tail =>
      rcases nameKind_cases (first :: tail) with name | ⟨_, reserved⟩
      · rw [name]
      · rw [reserved]
  | _ => rfl

namespace Source.Laid

variable {found : List Piece}

theorem isEof {rest : List Char} (laid : Laid found rest) :
    ∀ token ∈ found.filterMap Piece.token?, token.isEof = false := by
  induction laid with
  | nil => nofun
  | blank _ inductionHypothesis => exact inductionHypothesis
  | token scanned _ _ inductionHypothesis =>
      rw [List.filterMap_cons_some (Piece.token?_ofToken _)]
      exact List.forall_mem_cons.mpr
        ⟨(Relabelling.unplaced.isEof_token _).trans scanned.isEof, inductionHypothesis⟩

/-- The word of a text that is laid out looks like its pieces. -/
theorem looks (laid : Laid found []) (line : Nat) :
    Looks (programWord (tokens (itemsFrom line found))) found := by
  have inside : ∀ token ∈ found.filterMap Piece.token?, (!token.isEof) = true := by
    simpa using laid.isEof
  have same : (fun token : Token => !token.isEof) ∘ Token.unplaced = fun token => !token.isEof :=
    funext fun token => congrArg not (Relabelling.unplaced.isEof_token token)
  unfold Looks programWord
  rw [← same, ← List.takeWhile_map, tokens_itemsFrom, List.takeWhile_append_of_pos inside]
  exact List.append_nil _

end Source.Laid

/-- The tokens of an expression from a source are scanned, and its literals are written. -/
theorem scanned_of_parsed {source : String} {first next : Nat} {expression : Expression}
    (parsed : parseExpression (tokens (scan source)) first = ⟨.ok expression, next⟩) :
    expression.Genuine Token.Scanned ∧ expression.Written := by
  have read := (parseExpression_eq_ok_iff ..).mp parsed
  have scanned : ∀ token ∈ programWord (tokens (scan source)), token.Scanned := by
    intro token member
    refine scan_scanned (List.takeWhile_subset _ member) ?_
    simpa using List.all_eq_true.mp List.all_takeWhile token member
  exact ⟨read.genuine scanned, read.written fun token member value stands =>
    (scanned token member).written stands⟩

/-- The source form of an expression scans without errors and parses to the wrapped expression,
if its tokens are scanned and its literals written. -/
theorem sourceForm_parses {expression : Expression} (genuine : expression.Genuine Token.Scanned)
    (written : expression.Written) :
    lexicalErrors (scan expression.sourceForm) = [] ∧
      ∀ second, ∃ again last,
        parseExpression (tokens (scan expression.sourceForm)) second = ⟨.ok again, last⟩ ∧
        again.Same expression.wrapped := by
  have laid : Laid expression.layout [] := Expression.layout_laid expression genuine written .nil
  rw [laid.scan (Expression.textOf_layout expression).symm]
  refine ⟨laid.lexicalErrors_itemsFrom 1, fun second => ?_⟩
  obtain ⟨again, last, read, same⟩ :=
    (Expression.layout_reads expression genuine written (laid.looks 1)).assignment second
  exact ⟨again, last, (parseExpression_eq_ok_iff ..).mpr read, same⟩

open Expression in
/-- The source form of an expression from a source scans without errors and parses to the
wrapped expression, wherever its numbers start. Up to parentheses that is the expression itself
exactly if all its numbers are finite. -/
theorem sourceForm_reads_back {source : String} {first next : Nat} {expression : Expression}
    (parsed : parseExpression (tokens (scan source)) first = ⟨.ok expression, next⟩) :
    lexicalErrors (scan expression.sourceForm) = [] ∧
      ∀ second, ∃ again last,
        parseExpression (tokens (scan expression.sourceForm)) second = ⟨.ok again, last⟩ ∧
        again.Same expression.wrapped ∧
        (again.ungrouped.Same expression.ungrouped ↔
          ∀ value, .number value ∈ expression.literals →
            Number.magnitudeBits value < Number.infinityBits) := by
  obtain ⟨genuine, written⟩ := scanned_of_parsed parsed
  obtain ⟨quiet, parses⟩ := sourceForm_parses genuine written
  refine ⟨quiet, fun second => ?_⟩
  obtain ⟨again, last, reparsed, same⟩ := parses second
  refine ⟨again, last, reparsed, same, ?_⟩
  rw [same.ungrouped_iff]
  exact finite_iff written

/-- The pieces of a negated call of a property, with a number in front of the point and a string
over two lines. -/
theorem scan_negated_call :
    scan "-1.5.x(\"a\nb\")" = itemsFrom 1
      [.ofToken (.mark .minus '-'),
        .ofToken ⟨.number (Number.Decimal.ofDigitChars ['1'] ['5']).toNumber, "1.5", 0⟩,
        .ofToken (.mark .dot '.'), .ofToken ⟨.identifier, "x", 0⟩,
        .ofToken (.mark .leftParen '('), .ofToken (Literal.string "a\nb").token,
        .ofToken (.mark .rightParen ')')] := by
  refine Laid.scan ?_ (by rfl)
  refine .token (Token.mark_scanned rfl) (by constructor <;> decide) ?_
  refine .token (@Lexeme.number '1' [] ['5'] rfl nofun (List.all_eq_true.mp rfl)) ?_ ?_
  · exact (Ends.access (by decide)).separate _
  refine .token (Token.mark_scanned rfl) (by constructor <;> decide) ?_
  refine .token (@Lexeme.word 'x' [] rfl nofun) (by rfl) ?_
  refine .token (Token.mark_scanned rfl) (by constructor <;> decide) ?_
  refine .token (@Lexeme.string ['a', '\n', 'b'] (by decide)) trivial ?_
  exact .single (Token.mark_scanned rfl) (by constructor <;> decide)

/-- A negated call whose callee is a property of a number. -/
theorem negated_call_reads_back :
    ∃ expression next,
      parseExpression (tokens (scan "-1.5.x(\"a\nb\")")) 0 = ⟨.ok expression, next⟩ ∧
      lexicalErrors (scan expression.sourceForm) = [] ∧
      ∀ second, ∃ again last,
        parseExpression (tokens (scan expression.sourceForm)) second = ⟨.ok again, last⟩ ∧
        again.Same expression.wrapped ∧
        (again.ungrouped.Same expression.ungrouped ↔
          ∀ value, .number value ∈ expression.literals →
            Number.magnitudeBits value < Number.infinityBits) := by
  have parsed (value : Float) : parseExpression (tokens (itemsFrom 1
      [.ofToken (.mark .minus '-'), .ofToken ⟨.number value, "1.5", 0⟩,
        .ofToken (.mark .dot '.'), .ofToken ⟨.identifier, "x", 0⟩,
        .ofToken (.mark .leftParen '('), .ofToken (Literal.string "a\nb").token,
        .ofToken (.mark .rightParen ')')])) 0 =
      ⟨.ok (.unary 4 ⟨.symbol .minus, "-", 1⟩
        (.call 3 (.get 1 (.literal 0 (.number value)) ⟨.identifier, "x", 1⟩)
          ⟨.symbol .rightParen, ")", 2⟩ [.literal 2 (.string "a\nb")])), 5⟩ := by
    cbv
  have read := parsed (Number.Decimal.ofDigitChars ['1'] ['5']).toNumber
  rw [← scan_negated_call] at read
  exact ⟨_, _, read, sourceForm_reads_back read⟩

end Lox
