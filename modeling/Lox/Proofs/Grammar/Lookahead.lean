import Lox.Proofs.Grammar.Cursor
import Lox.Proofs.Grammar.Trees

/-!
Contract: what the next token tells.

Owns:
- that the parser finds constants and makes loops as the grammar says;
- the tokens that start expressions, statements and declarations, and that whatever
  reads as one of these starts with such a token;
- the tokens that continue an expression of a level.

No keyword that decides between two statements starts an expression, and no operator
of a level continues an operand of that level.
-/

namespace Lox.Grammar

open Lox.Grammar.Parser

variable {token : Token}

/-! ### Kinds of tokens exclude each other -/

theorem isSymbol_iff {symbol : Symbol} : token.isSymbol symbol ↔ token.kind = .symbol symbol := by
  unfold Token.isSymbol
  split <;> simp_all

theorem isKeyword_iff {keyword : Keyword} :
    token.isKeyword keyword ↔ token.kind = .keyword keyword := by
  unfold Token.isKeyword
  split <;> simp_all

theorem isIdentifier_iff : token.isIdentifier ↔ token.kind = .identifier := by
  unfold Token.isIdentifier
  split <;> simp_all

/-- A token is one symbol at most. -/
theorem isSymbol_of_isSymbol {symbol : Symbol} (is : token.isSymbol symbol) (other : Symbol) :
    token.isSymbol other = (symbol == other) := by
  unfold Token.isSymbol
  rw [isSymbol_iff.mp is]

theorem isKeyword_of_isKeyword {keyword : Keyword} (is : token.isKeyword keyword)
    (other : Keyword) : token.isKeyword other = (keyword == other) := by
  unfold Token.isKeyword
  rw [isKeyword_iff.mp is]

theorem isKeyword_of_isSymbol {symbol : Symbol} (is : token.isSymbol symbol)
    (keyword : Keyword) : token.isKeyword keyword = false := by
  unfold Token.isKeyword
  rw [isSymbol_iff.mp is]

theorem isSymbol_of_isIdentifier (is : token.isIdentifier) (symbol : Symbol) :
    token.isSymbol symbol = false := by
  unfold Token.isSymbol
  rw [isIdentifier_iff.mp is]

theorem isSymbol_of_isKeyword {keyword : Keyword} (is : token.isKeyword keyword)
    (symbol : Symbol) : token.isSymbol symbol = false := by
  unfold Token.isSymbol
  rw [isKeyword_iff.mp is]

/-! ### Constants and loops -/

/-- The parser finds the constants that tokens stand for. -/
theorem literal?_eq_some_iff {value : Literal} :
    literal? token = some value ↔ StandsFor token.kind value := by
  unfold literal?
  constructor
  · intro found
    split at found
    case h_6 => cases found
    all_goals
      rename_i kind
      rw [kind]
      cases found
      constructor
  · intro stands
    cases kind : token.kind <;> rw [kind] at stands <;> cases stands <;> rfl

/-- The parser makes the tree of a `for` of its parts. -/
theorem forLoop_eq (initializer : Option Statement) (condition : Expression)
    (increment : Option Expression) (body : Statement) :
    forLoop initializer condition increment body =
      forScope initializer (.loop condition (forRound increment body)) :=
  rfl

/-! ### What starts with a token -/

/-- The keywords that start expressions. -/
def expressionKeywords : List Keyword := [.true, .false, .nil, .this]

/-- The keywords that start the other statements. -/
def statementKeywords : List Keyword := [.for, .if, .while, .return, .print]

/-- The keywords that start the other declarations. -/
def declarationKeywords : List Keyword := [.class, .fun, .var]

/-- Whether a token starts an operand of unary operators. -/
def startsCall (token : Token) : Bool :=
  match token.kind with
  | .symbol symbol => symbol == .leftParen
  | .keyword keyword => keyword ∈ expressionKeywords
  | .identifier | .string _ | .number _ => true
  | .eof => false

/-- Whether a token starts an expression. -/
def startsExpression (token : Token) : Bool :=
  isUnaryOperator token || startsCall token

/-- Whether a token starts a statement. -/
def startsStatement (token : Token) : Bool :=
  startsExpression token || token.isSymbol .leftBrace ||
    statementKeywords.any token.isKeyword

/-- Whether a token starts a declaration. -/
def startsDeclaration (token : Token) : Bool :=
  startsStatement token || declarationKeywords.any token.isKeyword

theorem startsCall_of_literal {value : Literal} (isLiteral : StandsFor token.kind value) :
    startsCall token := by
  unfold startsCall
  generalize token.kind = kind at isLiteral
  cases isLiteral <;> simp [expressionKeywords]

theorem startsCall_of_primary {word : List Token} {first next : Nat} {value : Expression}
    (read : Reads word first (.expression .primary value) next) :
    ∃ token rest, word = token :: rest ∧ startsCall token := by
  cases read with
  | literal isLiteral => exact ⟨_, _, rfl, startsCall_of_literal isLiteral⟩
  | this isThis =>
      exact ⟨_, _, rfl, by simp [startsCall, isKeyword_iff.mp isThis, expressionKeywords]⟩
  | name isName => exact ⟨_, _, rfl, by simp [startsCall, isIdentifier_iff.mp isName]⟩
  | grouping left => exact ⟨_, _, rfl, by simp [startsCall, isSymbol_iff.mp left]⟩

theorem startsCall_of_call {word : List Token} {first next : Nat} {value : Expression}
    (read : Reads word first (.expression .call value) next) :
    ∃ token rest, word = token :: rest ∧ startsCall token := by
  cases read with
  | accessed primary =>
      obtain ⟨token, rest, rfl, starts⟩ := startsCall_of_primary primary
      exact ⟨token, _, rfl, starts⟩

theorem startsExpression_of_call {word : List Token} {first next : Nat} {value : Expression}
    (read : Reads word first (.expression .call value) next) :
    ∃ token rest, word = token :: rest ∧ startsExpression token := by
  obtain ⟨token, rest, rfl, starts⟩ := startsCall_of_call read
  exact ⟨token, rest, rfl, by simp [startsExpression, starts]⟩

theorem startsExpression_of_unary {word : List Token} {first next : Nat} {value : Expression}
    (read : Reads word first (.expression .unary value) next) :
    ∃ token rest, word = token :: rest ∧ startsExpression token := by
  cases read with
  | notNegated operand => exact startsExpression_of_call operand
  | negated isOperator => exact ⟨_, _, rfl, by simp [startsExpression, isOperator]⟩

theorem startsExpression_of_binary {level : BinaryLevel} {word : List Token} {first next : Nat}
    {value : Expression} (read : Reads word first (.expression (.binary level) value) next)
    (inside : ∀ {word first next value}, Reads word first (.expression level.operand value) next →
      ∃ token rest, word = token :: rest ∧ startsExpression token) :
    ∃ token rest, word = token :: rest ∧ startsExpression token := by
  cases read with
  | binary operand =>
      obtain ⟨token, rest, rfl, starts⟩ := inside operand
      exact ⟨token, _, rfl, starts⟩

theorem startsExpression_of_assignment {word : List Token} {first next : Nat}
    {value : Expression} (read : Reads word first (.expression .assignment value) next) :
    ∃ token rest, word = token :: rest ∧ startsExpression token := by
  cases read with
  | assigned isName =>
      exact ⟨_, _, rfl, by simp [startsExpression, startsCall, isIdentifier_iff.mp isName]⟩
  | propertyAssigned object =>
      obtain ⟨token, rest, rfl, starts⟩ := startsExpression_of_call object
      exact ⟨token, _, rfl, starts⟩
  | notAssigned read =>
      refine startsExpression_of_binary read fun read => ?_
      refine startsExpression_of_binary read fun read => ?_
      refine startsExpression_of_binary read fun read => ?_
      refine startsExpression_of_binary read fun read => ?_
      refine startsExpression_of_binary read fun read => ?_
      exact startsExpression_of_binary read startsExpression_of_unary

theorem startsStatement_of_statement {dangling : Bool} {word : List Token} {first next : Nat}
    {statement : Statement} (read : Reads word first (.statement dangling statement) next) :
    ∃ token rest, word = token :: rest ∧ startsStatement token := by
  cases read with
  | expression value =>
      obtain ⟨token, rest, rfl, starts⟩ := startsExpression_of_assignment value
      exact ⟨token, _, rfl, by simp [startsStatement, starts]⟩
  | block opens => exact ⟨_, _, rfl, by simp [startsStatement, opens]⟩
  | «for» is | «if» is | ifElse is | print is | «return» is | «while» is =>
      exact ⟨_, _, rfl, by simp [startsStatement, statementKeywords, is]⟩

theorem startsDeclaration_of_declaration {dangling : Bool} {word : List Token}
    {first next : Nat} {statement : Statement}
    (read : Reads word first (.declaration dangling statement) next) :
    ∃ token rest, word = token :: rest ∧ startsDeclaration token := by
  cases read with
  | statement read =>
      obtain ⟨token, rest, rfl, starts⟩ := startsStatement_of_statement read
      exact ⟨token, _, rfl, by simp [startsDeclaration, starts]⟩
  | classDeclaration is | functionDeclaration is | variableDeclaration is =>
      exact ⟨_, _, rfl, by simp [startsDeclaration, declarationKeywords, is]⟩

/-! ### Starts exclude each other -/

theorem isSymbol_of_startsCall (starts : startsCall token) {symbol : Symbol}
    (other : symbol ≠ .leftParen) : token.isSymbol symbol = false := by
  refine Bool.eq_false_iff.mpr fun is => other ?_
  simpa [startsCall, isSymbol_iff.mp is] using starts

theorem isUnaryOperator_of_startsCall (starts : startsCall token) :
    isUnaryOperator token = false := by
  simp [isUnaryOperator, isSymbol_of_startsCall starts]

theorem isSymbol_of_startsExpression (starts : startsExpression token) {symbol : Symbol}
    (other : symbol ∉ [Symbol.bang, .minus, .leftParen]) : token.isSymbol symbol = false := by
  refine Bool.eq_false_iff.mpr fun is => other ?_
  simpa [startsExpression, startsCall, isUnaryOperator, isSymbol_of_isSymbol is,
    isSymbol_iff.mp is, or_assoc] using starts

theorem isKeyword_of_startsExpression (starts : startsExpression token) {keyword : Keyword}
    (other : keyword ∉ expressionKeywords) : token.isKeyword keyword = false := by
  refine Bool.eq_false_iff.mpr fun is => other ?_
  simpa [startsExpression, startsCall, isUnaryOperator, isKeyword_iff.mp is,
    isSymbol_of_isKeyword is] using starts

theorem isKeyword_of_startsStatement (starts : startsStatement token) {keyword : Keyword}
    (other : keyword ∉ expressionKeywords ++ statementKeywords) :
    token.isKeyword keyword = false := by
  refine Bool.eq_false_iff.mpr fun is => ?_
  rw [List.mem_append, not_or] at other
  have notExpression : startsExpression token = false := Bool.eq_false_iff.mpr fun starts => by
    rw [isKeyword_of_startsExpression starts other.1] at is
    cases is
  refine other.2 ?_
  simpa [startsStatement, notExpression, isSymbol_of_isKeyword is, isKeyword_of_isKeyword is]
    using starts

theorem isKeyword_of_startsDeclaration (starts : startsDeclaration token) {keyword : Keyword}
    (other : keyword ∉ expressionKeywords ++ statementKeywords ++ declarationKeywords) :
    token.isKeyword keyword = false := by
  refine Bool.eq_false_iff.mpr fun is => ?_
  rw [List.mem_append, not_or] at other
  have notStatement : startsStatement token = false := Bool.eq_false_iff.mpr fun starts => by
    rw [isKeyword_of_startsStatement starts other.1] at is
    cases is
  refine other.2 ?_
  simpa [startsDeclaration, notStatement, isKeyword_of_isKeyword is] using starts

theorem isSymbol_of_startsDeclaration (starts : startsDeclaration token) {symbol : Symbol}
    (other : symbol ∉ [Symbol.leftBrace, .bang, .minus, .leftParen]) :
    token.isSymbol symbol = false := by
  refine Bool.eq_false_iff.mpr fun is => ?_
  rw [List.mem_cons, not_or] at other
  have notExpression : startsExpression token = false := Bool.eq_false_iff.mpr fun starts => by
    rw [isSymbol_of_startsExpression starts other.2] at is
    cases is
  refine other.1 ?_
  simpa [startsDeclaration, startsStatement, notExpression, isSymbol_of_isSymbol is,
    isKeyword_of_isSymbol is] using starts

/-! ### What a token continues -/

/-- Whether a token continues an operand of unary operators. -/
def continuesCall (token : Token) : Bool :=
  [.leftParen, .dot].any (token.isSymbol ·)

/-- A level of binary operators and the ones inside it. -/
def BinaryLevel.inward : BinaryLevel → List BinaryLevel
  | disjunction => [disjunction, conjunction, equality, comparison, term, factor]
  | conjunction => [conjunction, equality, comparison, term, factor]
  | equality => [equality, comparison, term, factor]
  | comparison => [comparison, term, factor]
  | term => [term, factor]
  | factor => [factor]

/-- Whether a token continues an expression of a level of binary operators. -/
def BinaryLevel.continues (token : Token) (level : BinaryLevel) : Bool :=
  level.inward.any (·.isOperator token) || continuesCall token

/-- Whether a token continues an expression of a level. -/
def Level.continues (token : Token) : Level → Bool
  | primary => false
  | call | unary => continuesCall token
  | binary level => level.continues token
  | assignment => token.isSymbol .equal || BinaryLevel.disjunction.continues token

/-- A level is continued by its operators and by what continues its operands. -/
theorem BinaryLevel.continues_eq (level : BinaryLevel) (token : Token) :
    level.continues token = (level.isOperator token || level.operand.continues token) := by
  cases level <;> simp [Level.continues, BinaryLevel.continues, inward, operand, Bool.or_assoc]

/-- An operator does not continue the operand before it. -/
theorem BinaryLevel.operand_ends (level : BinaryLevel) (isOperator : level.isOperator token) :
    level.operand.continues token = false := by
  cases level with
  | disjunction | conjunction =>
      simp [Level.continues, BinaryLevel.continues, operand, inward, continuesCall,
        BinaryLevel.isOperator, isSymbol_of_isKeyword isOperator,
        isKeyword_of_isKeyword isOperator]
  | equality | term | factor =>
      simp only [BinaryLevel.isOperator, List.any_cons, List.any_nil, Bool.or_false,
        Bool.or_eq_true] at isOperator
      rcases isOperator with is | is <;>
        simp [Level.continues, BinaryLevel.continues, operand, inward, continuesCall,
          BinaryLevel.isOperator, isSymbol_of_isSymbol is]
  | comparison =>
      simp only [BinaryLevel.isOperator, List.any_cons, List.any_nil, Bool.or_false,
        Bool.or_eq_true] at isOperator
      rcases isOperator with is | is | is | is <;>
        simp [Level.continues, BinaryLevel.continues, operand, inward, continuesCall,
          BinaryLevel.isOperator, isSymbol_of_isSymbol is]

theorem disjunction_ends (isEqual : token.isSymbol .equal) :
    BinaryLevel.disjunction.continues token = false := by
  simp [BinaryLevel.continues, BinaryLevel.inward, continuesCall,
    BinaryLevel.isOperator, isSymbol_of_isSymbol isEqual, isKeyword_of_isSymbol isEqual]

/-- Expressions end before the symbols that the grammar puts behind them. -/
theorem assignment_ends {symbol : Symbol} (is : token.isSymbol symbol)
    (ends : symbol ∈ [Symbol.rightParen, .comma, .semicolon]) :
    Level.assignment.continues token = false := by
  have kind : symbol = .rightParen ∨ symbol = .comma ∨ symbol = .semicolon := by
    simpa using ends
  rcases kind with rfl | rfl | rfl <;>
    simp [Level.continues, BinaryLevel.continues, BinaryLevel.inward, continuesCall,
      BinaryLevel.isOperator, isSymbol_of_isSymbol is, isKeyword_of_isSymbol is]

/-! ### Readings with what lies behind them -/

/-- The reading of an expression that the token behind it does not continue. -/
def readsUpTo (level : Level) (word : List Token) (first : Nat) (value : Expression)
    (next : Nat) (rest : List Token) : Prop :=
  Reads word first (.expression level value) next ∧ rest.head?.any level.continues = false

/-- The reading of a statement or declaration. A dangling `if` at its end has no `else`
behind it. -/
def readsClosed (phrase : Bool → Statement → Phrase) (word : List Token) (first : Nat)
    (statement : Statement) (next : Nat) (rest : List Token) : Prop :=
  ∃ dangling, Reads word first (phrase dangling statement) next ∧
    (dangling = true → rest.head?.any (Token.isKeyword .else) = false)

/-- The reading of a declaration that may be left out. -/
def readsFound (word : List Token) (first : Nat) (found : Option Statement) (next : Nat)
    (rest : List Token) : Prop :=
  ∃ statement, found = some statement ∧ readsClosed .declaration word first statement next rest

end Lox.Grammar
