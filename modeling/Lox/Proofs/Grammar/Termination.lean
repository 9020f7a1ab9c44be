import Lox.Proofs.Grammar.Nesting
import Lox.Proofs.Grammar.Program
import Lox.Proofs.Grammar.Rounds
import Mathlib.Data.List.TakeWhile

/-!
Contract: parsing makes progress, stays in bounds and ends.

Owns:
- `closed`, the tokens with an end token behind them, and `Cursor.index`, where among them a
  cursor stands;
- `Rule` and `Loop`, the rules and the repetitions of the grammar as the parser uses them;
- `parsing_progresses`: what every cursor of every parse is subject to.

Does not own: what is read.
-/

namespace Lox.Grammar

open Lox.Grammar.Parser

/-! ### Where a cursor stands -/

/-- The tokens, ended by an end token on the line of the last one unless they end in one. -/
def closed (tokens : List Token) : List Token :=
  if tokens.getLast?.any Token.isEof then tokens
  else tokens ++ [⟨.eof, "", (tokens.getLast?.map Token.line).getD 1⟩]

/-- Where the first end token stands. -/
def firstEnd (tokens : List Token) : Nat :=
  (closed tokens).findIdx Token.isEof

/-- Where a cursor stands among the tokens: what is left to read ends at the first end token. -/
def Cursor.index (tokens : List Token) (cursor : Cursor) : Nat :=
  firstEnd tokens - cursor.rest.length

/-- The tokens before the first end token, and the end token there. -/
theorem closed_split (tokens : List Token) (firstId : Nat) :
    ∃ behind, closed tokens =
      programWord tokens ++ (Cursor.start tokens firstId).finish :: behind := by
  have split := List.takeWhile_append_dropWhile (p := (!·.isEof)) (l := tokens)
  have found := List.find?_eq_head?_dropWhile_not Token.isEof tokens
  unfold closed Cursor.start programWord
  cases left : tokens.dropWhile (!·.isEof) with
  | nil =>
      rw [left, List.append_nil] at split
      have none : tokens.find? Token.isEof = none := by rw [found, left, List.head?_nil]
      have last : tokens.getLast?.any Token.isEof = false := by
        rw [List.find?_eq_none] at none
        cases ending : tokens.getLast? with
        | none => rfl
        | some token => simpa using none token (List.mem_of_getLast? ending)
      rw [if_neg (by simp [last]), none, split]
      exact ⟨[], rfl⟩
  | cons token behind =>
      have some : tokens.find? Token.isEof = some token := by rw [found, left, List.head?_cons]
      rw [left] at split
      rw [some]
      simp only [Option.getD_some]
      split
      · exact ⟨behind, split.symm⟩
      · refine ⟨behind ++ [⟨.eof, "", (tokens.getLast?.map Token.line).getD 1⟩], ?_⟩
        rw [← List.cons_append, ← List.append_assoc, split]

theorem finish_isEof (tokens : List Token) (firstId : Nat) :
    (Cursor.start tokens firstId).finish.isEof := by
  unfold Cursor.start
  cases found : tokens.find? Token.isEof with
  | none => rfl
  | some token => exact List.find?_some found

theorem firstEnd_eq (tokens : List Token) : firstEnd tokens = (programWord tokens).length := by
  obtain ⟨behind, split⟩ := closed_split tokens 0
  have before : ∀ token ∈ programWord tokens, ¬ token.isEof := by
    intro token member
    simpa using List.mem_takeWhile_imp member
  unfold firstEnd
  rw [split, List.findIdx_append, if_neg (by simpa using before), List.findIdx_cons,
    finish_isEof]
  simp

/-- A cursor stands at the first end token or before it, and that one is among the tokens. From
the cursor up to there stand the tokens that are left to read. -/
structure Cursor.InRange (tokens : List Token) (cursor : Cursor) : Prop where
  end_lt : firstEnd tokens < (closed tokens).length
  index_le : cursor.index tokens ≤ firstEnd tokens
  peek : (closed tokens)[cursor.index tokens]? = some cursor.peek
  left : (closed tokens).drop (cursor.index tokens) =
    cursor.rest ++ (closed tokens).drop (firstEnd tokens)

section Reached

variable {tokens : List Token} {firstId : Nat} {cursor later : Cursor}

theorem Onward.index_add (reached : Onward (Cursor.start tokens firstId) cursor) :
    cursor.index tokens + cursor.rest.length = firstEnd tokens := by
  have fewer : cursor.rest.length ≤ (programWord tokens).length := reached.suffix.length_le
  have last := firstEnd_eq tokens
  unfold Cursor.index
  omega

theorem Onward.inRange (reached : Onward (Cursor.start tokens firstId) cursor) :
    cursor.InRange tokens := by
  obtain ⟨behind, split⟩ := closed_split tokens firstId
  obtain ⟨read, whole⟩ := reached.suffix
  have word : programWord tokens = read ++ cursor.rest := whole.symm
  have last : firstEnd tokens = (read ++ cursor.rest).length := by rw [firstEnd_eq, word]
  have here : cursor.index tokens = read.length := by
    have sum := reached.index_add
    rw [last, List.length_append] at sum
    omega
  have finish := reached.finish
  rw [word, ← finish] at split
  have left : (closed tokens).drop (cursor.index tokens) =
      cursor.rest ++ cursor.finish :: behind := by
    rw [split, here, List.append_assoc, List.drop_left]
  refine ⟨?_, ?_, ?_, ?_⟩
  · rw [last, split]
    simp only [List.length_append, List.length_cons]
    omega
  · rw [← reached.index_add]
    omega
  · have first : (closed tokens)[cursor.index tokens]? =
        ((closed tokens).drop (cursor.index tokens)).head? := by
      rw [List.head?_drop]
    rw [first, left]
    unfold Cursor.peek
    cases cursor.rest <;> rfl
  · rw [left, last, split, List.drop_left]

theorem Onward.index_le (reached : Onward (Cursor.start tokens firstId) cursor)
    (onward : Onward cursor later) : cursor.index tokens ≤ later.index tokens := by
  have here := reached.index_add
  have there := (reached.trans onward).index_add
  have fewer := onward.suffix.length_le
  omega

theorem Onward.index_lt (reached : Onward (Cursor.start tokens firstId) cursor)
    (onward : Onward cursor later) (shorter : later.rest.length < cursor.rest.length) :
    cursor.index tokens < later.index tokens := by
  have here := reached.index_add
  have there := (reached.trans onward).index_add
  omega

theorem Onward.rest_ne_nil (reached : Onward (Cursor.start tokens firstId) cursor)
    (inside : cursor.index tokens < firstEnd tokens) : cursor.rest ≠ [] := by
  have here := reached.index_add
  apply List.ne_nil_of_length_pos
  omega

theorem Onward.bounded (reached : Onward (Cursor.start tokens firstId) cursor) :
    cursor.rest.length < cursor.bound := by
  have fewer : cursor.rest.length ≤ (programWord tokens).length := reached.suffix.length_le
  have bounded := programWord_bounded tokens firstId
  have bound := reached.bound
  omega

end Reached

/-! ### The rules and the repetitions of the grammar -/

/-- The rules of the grammar as the parser uses them, at any depth of nesting. -/
inductive Rule : {α : Type} → Parser α → Prop where
  | take? (condition : Token → Bool) : Rule (take? condition)
  | takeAll (condition : Token → Bool) : Rule (takeAll condition)
  | require (mark : Mark) : Rule (require mark)
  | requireName (role : NameRole) : Rule (requireName role)
  | arguments {nested : Parser Expression} (inside : Rule nested) :
      Rule (listUpTo .argumentsClose nested .tooManyArguments)
  | parameters :
      Rule (listUpTo .parametersClose (Parser.requireName .parameter) .tooManyParameters)
  | primary {nested : Parser Expression} (inside : Rule nested) : Rule (primary nested)
  | call {nested : Parser Expression} (inside : Rule nested) : Rule (call nested)
  | unary {nested : Parser Expression} (inside : Rule nested) : Rule (unary nested)
  | leftAssociative {operand : Parser Expression} (inside : Rule operand)
      (isOperator : Token → Bool)
      (make : Nat → Expression → Token → Expression → Expression) :
      Rule (leftAssociative isOperator make operand)
  | assignment {nested : Parser Expression} (inside : Rule nested) : Rule (assignment nested)
  | expressionWithin (depth : Nat) : Rule (expressionWithin depth)
  | expression : Rule expression
  | optionalExpression (absent : Symbol) : Rule (optionalExpression absent)
  | varDeclaration : Rule varDeclaration
  | expressionStatement : Rule expressionStatement
  | printStatement : Rule printStatement
  | returnStatement (keyword : Token) : Rule (returnStatement keyword)
  | block (depth : Nat) : Rule (block (declarationWithin depth))
  | function (depth : Nat) (role : FunctionRole) : Rule (function (declarationWithin depth) role)
  | classDeclaration (depth : Nat) : Rule (classDeclaration (declarationWithin depth))
  | ifStatement (depth : Nat) : Rule (ifStatement (statementWithin depth))
  | whileStatement (depth : Nat) : Rule (whileStatement (statementWithin depth))
  | forInitializer : Rule forInitializer
  | forStatement (depth : Nat) : Rule (forStatement (statementWithin depth))
  | statementWithin (depth : Nat) : Rule (statementWithin depth)
  | declarationWithin (depth : Nat) : Rule (declarationWithin depth)
  | program : Rule program
  | soleExpression : Rule soleExpression

theorem Rule.advances {α : Type} {parser : Parser α} (rule : Rule parser) : parser.Advances := by
  induction rule with
  | take? condition => exact Advances.take? condition
  | takeAll condition => exact Advances.takeAll condition
  | require mark => exact Advances.require mark
  | requireName role => exact Advances.requireName role
  | arguments _ inside => exact Advances.listUpTo _ inside _
  | parameters => exact Advances.listUpTo _ (Advances.requireName _) _
  | primary _ inside => exact primary_advances inside
  | call _ inside => exact call_advances inside
  | unary _ inside => exact unary_advances inside
  | leftAssociative _ _ _ inside => exact leftAssociative_advances inside _ _
  | assignment _ inside => exact assignment_advances inside
  | expressionWithin depth => exact expressionWithin_advances depth
  | expression => exact expression_advances
  | optionalExpression absent => exact optionalExpression_advances absent
  | varDeclaration => exact varDeclaration_advances
  | expressionStatement => exact expressionStatement_advances
  | printStatement => exact printStatement_advances
  | returnStatement keyword => exact returnStatement_advances keyword
  | block depth => exact block_advances (within_advances depth).1
  | function depth role => exact function_advances (within_advances depth).1 role
  | classDeclaration depth => exact classDeclaration_advances (within_advances depth).1
  | ifStatement depth => exact ifStatement_advances (within_advances depth).2
  | whileStatement depth => exact whileStatement_advances (within_advances depth).2
  | forInitializer => exact forInitializer_advances
  | forStatement depth => exact forStatement_advances (within_advances depth).2
  | statementWithin depth => exact (within_advances depth).2
  | declarationWithin depth => exact (within_advances depth).1
  | program => exact program_advances
  | soleExpression => exact soleExpression_advances

/-- The repetitions of the grammar with their rounds, at any depth of nesting: calls and property
accesses, operators, arguments, parameters, methods, and the declarations of a block or of the
program. -/
inductive Loop : {State α : Type} → (State → Parser (Round State α)) →
    (Nat → State → Parser α) → Prop where
  | calls (depth : Nat) :
      Loop (callRound (expressionWithin depth)) (callsFrom (expressionWithin depth))
  | operators {operand : Parser Expression} (inside : Rule operand) (isOperator : Token → Bool)
      (make : Nat → Expression → Token → Expression → Expression) :
      Loop (operatorRound isOperator make operand) (leftAssociativeFrom isOperator make operand)
  | arguments (depth : Nat) :
      Loop (itemRound (expressionWithin depth) .tooManyArguments)
        fun bound count => itemsFrom (expressionWithin depth) .tooManyArguments count bound
  | parameters :
      Loop (itemRound (requireName .parameter) .tooManyParameters)
        fun bound count => itemsFrom (requireName .parameter) .tooManyParameters count bound
  | methods (depth : Nat) :
      Loop (methodRound (declarationWithin depth))
        fun bound _ => methodsFrom (declarationWithin depth) bound
  | declarations (stop : Token → Bool) (depth : Nat) :
      Loop (declarationRound stop (declarationWithin depth))
        fun bound _ => declarationsUntil stop (declarationWithin depth) bound

theorem Loop.repeats {State α : Type} {round : State → Parser (Round State α)}
    {loop : Nat → State → Parser α} (isLoop : Loop round loop) : Repeats round loop := by
  cases isLoop with
  | calls depth => exact callRound_repeats (expressionWithin_advances depth)
  | operators inside isOperator make => exact operatorRound_repeats inside.advances _ _
  | arguments depth =>
      exact itemRound_repeats (expressionWithin_advances depth) (expressionWithin_consumes depth) _
  | parameters =>
      exact itemRound_repeats (Advances.requireName _) (Shortens.requireName _) _
  | methods depth => exact methodRound_repeats (within_advances depth).1
  | declarations stop depth => exact declarationRound_repeats stop depth

/-! ### The parser -/

/-- Whatever the tokens are, each cursor that a parse comes to stands among them, at the first end
token or before it.
- A rule leaves the cursor where it stands or further on.
- A declaration that is met before the end leaves it further on, also one that is given up.
- A round that does not leave its repetition leaves it further on, and each repetition, the
  program among them, is a run of finitely many rounds, however many its bound would allow.
- Fewer tokens are in front of it than rules may nest inside themselves: how deeply they may, and
  what would be read at the innermost level, makes no difference. -/
theorem parsing_progresses (tokens : List Token) (firstId : Nat) (cursor : Cursor)
    (reached : Onward (Cursor.start tokens firstId) cursor) :
    cursor.InRange tokens ∧
    (∀ (α : Type) (rule : Parser α), Rule rule →
      Onward cursor (left (rule cursor)) ∧
        cursor.index tokens ≤ (left (rule cursor)).index tokens) ∧
    (∀ depth, cursor.index tokens < firstEnd tokens →
      cursor.index tokens < (left (declarationWithin depth cursor)).index tokens) ∧
    (∀ (State α : Type) (round : State → Parser (Round State α)) (loop : Nat → State → Parser α),
      Loop round loop → ∀ state,
        (∀ next add later, round state cursor = .ok (.again next add) later →
          Onward cursor later ∧ cursor.index tokens < later.index tokens) ∧
        ∀ bound, cursor.rest.length < bound →
          Runs round state cursor (loop bound state cursor)) ∧
    Runs (declarationRound (fun _ => false) (declarationWithin cursor.bound)) () cursor
      (program cursor) ∧
    cursor.rest.length < cursor.bound ∧
    ∀ depth, cursor.rest.length < depth →
      (∀ bottom, (assignment^[depth] bottom) cursor = expression cursor) ∧
      ∀ bottom,
        (nesting^[depth] bottom).1 cursor = declarationWithin cursor.bound cursor ∧
        (nesting^[depth] bottom).2 cursor = statementWithin cursor.bound cursor := by
  refine ⟨reached.inRange, ?rules, ?declarations, ?loops, ?program, reached.bounded, ?nesting⟩
  case rules =>
    intro α rule isRule
    have onward := isRule.advances cursor
    exact ⟨onward, reached.index_le onward⟩
  case declarations =>
    intro depth inside
    have onward := (within_advances depth).1 cursor
    exact reached.index_lt onward (declarationWithin_shortens depth (reached.rest_ne_nil inside))
  case loops =>
    intro State α round loop isLoop state
    refine ⟨fun next add later goesOn => ?_, fun bound bounded => ?_⟩
    · have onward := isLoop.repeats.advances state cursor
      rw [goesOn] at onward
      exact ⟨onward, reached.index_lt onward (isLoop.repeats.shortens state goesOn trivial)⟩
    · exact isLoop.repeats.runs bounded state
  case program =>
    exact (declarationRound_repeats (fun _ => false) cursor.bound).runs reached.bounded ()
  case nesting =>
    intro depth deep
    constructor
    · exact iterate_assignment_eq_expression reached.bounded deep
    · exact iterate_nesting_eq_within reached.bounded deep

/-- The tokens of `{ ) ; }`, with an end token inside the block. -/
def brokenBlock : List Token :=
  [⟨.symbol .leftBrace, "\x7b", 1⟩, ⟨.symbol .rightParen, ")", 1⟩, ⟨.symbol .semicolon, ";", 1⟩,
    ⟨.eof, "", 1⟩, ⟨.symbol .rightBrace, "\x7d", 1⟩]

theorem broken_block_is_left :
    Onward (Cursor.start brokenBlock 0) (Cursor.start brokenBlock 0) ∧
    (Cursor.start brokenBlock 0).index brokenBlock = 0 ∧ firstEnd brokenBlock = 3 ∧
    0 < (left (declarationWithin 4 (Cursor.start brokenBlock 0))).index brokenBlock ∧
    Runs (declarationRound (fun _ => false) (declarationWithin 6)) ()
      (Cursor.start brokenBlock 0) (program (Cursor.start brokenBlock 0)) := by
  obtain ⟨-, -, declarations, -, whole, -, -⟩ :=
    parsing_progresses brokenBlock 0 _ (Onward.refl _)
  exact ⟨Onward.refl _, by decide, by decide, declarations 4 (by decide), whole⟩

end Lox.Grammar
