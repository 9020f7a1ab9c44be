import Lox.Proofs.Grammar.Progress
import Mathlib.Logic.Function.Iterate

/-!
Contract: a rule that is used inside itself is used further on.

Owns:
- `Parser.Alike`, that two parsers do the same wherever few enough tokens are left, with a rule
  for each step and each rule of the grammar: a rule does the same with other rules inside it if
  those do the same wherever fewer tokens are left;
- `expressionWithin_eq_iterate` and `nestingWithin_eq_iterate`: nesting ends before the tokens
  do, whatever would be done at the innermost level.

Does not own: repetitions.
-/

namespace Lox.Grammar

namespace Parser

variable {α β : Type} {limit : Nat}

/-- Two parsers do the same wherever fewer tokens are left than the limit. -/
def Alike (limit : Nat) (parser other : Parser α) : Prop :=
  ∀ ⦃start : Cursor⦄, start.rest.length < limit → parser start = other start

namespace Alike

/-! ### Steps -/

theorem refl (limit : Nat) (parser : Parser α) : Alike limit parser parser :=
  fun _ _ => rfl

theorem mono {parser other : Parser α} (same : Alike (limit + 1) parser other) :
    Alike limit parser other :=
  fun _ below => same (Nat.lt_succ_of_lt below)

theorem bind {first another : Parser α} {second other : α → Parser β}
    (advances : first.Advances) (same : Alike limit first another)
    (following : ∀ value, Alike limit (second value) (other value)) :
    Alike limit (first >>= second) (another >>= other) := by
  intro start below
  have onward := advances start
  simp only [Bind.bind, EStateM.bind, ← same below]
  generalize first start = result at onward ⊢
  cases result with
  | error => rfl
  | ok value middle =>
      exact following value (Nat.lt_of_le_of_lt onward.suffix.length_le below)

theorem map (transform : α → β) {parser other : Parser α} (same : Alike limit parser other) :
    Alike limit (transform <$> parser) (transform <$> other) := by
  intro start below
  simp only [Functor.map, EStateM.map, same below]

theorem seq {first : Parser α} {second other : α → Parser β} (advances : first.Advances)
    (following : ∀ value, Alike limit (second value) (other value)) :
    Alike limit (first >>= second) (first >>= other) :=
  bind advances (refl limit first) following

/-- Behind a token that was read, fewer tokens are left. -/
theorem behind (kind : α → Prop) {first : Parser α} {second other : α → Parser β}
    (advances : first.Advances) (reads : first.Shortens kind)
    (found : ∀ value, kind value → Alike limit (second value) (other value))
    (missing : ∀ value, ¬ kind value → Alike (limit + 1) (second value) (other value)) :
    Alike (limit + 1) (first >>= second) (first >>= other) := by
  intro start below
  have onward := advances start
  simp only [Bind.bind, EStateM.bind]
  cases accepted : first start with
  | error => rfl
  | ok value middle =>
      rw [accepted] at onward
      by_cases isKind : kind value
      · exact found value isKind
          (Nat.lt_of_lt_of_le (reads accepted isKind) (Nat.le_of_lt_succ below))
      · exact missing value isKind (Nat.lt_of_le_of_lt onward.suffix.length_le below)

theorem ifTaken {condition : Token → Bool} {second other : Option Token → Parser β}
    (found : ∀ token, Alike limit (second (some token)) (other (some token)))
    (missing : Alike (limit + 1) (second none) (other none)) :
    Alike (limit + 1) (Parser.take? condition >>= second) (Parser.take? condition >>= other) := by
  refine behind _ (Advances.take? _) (Shortens.take? _) (fun value isSome => ?_) ?_
  · obtain ⟨token, rfl⟩ := Option.isSome_iff_exists.mp isSome
    exact found token
  · rintro (_ | token) isNone
    · exact missing
    · exact absurd rfl isNone

theorem ite {condition : Bool} {found another missing other : Parser α}
    (behind : Alike limit found another) (otherwise : Alike limit missing other) :
    Alike limit (if condition then found else missing)
      (if condition then another else other) := by
  split
  · exact behind
  · exact otherwise

theorem ifSymbol {symbol : Symbol} {found another missing other : Parser α}
    (behind : Alike limit found another) (otherwise : Alike (limit + 1) missing other) :
    Alike (limit + 1)
      (Parser.skip? symbol >>= fun skipped => if skipped then found else missing)
      (Parser.skip? symbol >>= fun skipped => if skipped then another else other) := by
  refine Alike.behind (· = true) (Advances.skip? _) (Shortens.skip? _) ?_ ?_
  · rintro _ rfl
    exact behind
  · rintro (_ | _) missed
    · exact otherwise
    · exact absurd rfl missed

theorem ifKeyword {keyword : Keyword} {found another missing other : Parser α}
    (behind : Alike limit found another) (otherwise : Alike (limit + 1) missing other) :
    Alike (limit + 1)
      (Parser.skipKeyword? keyword >>= fun skipped => if skipped then found else missing)
      (Parser.skipKeyword? keyword >>= fun skipped => if skipped then another else other) := by
  refine Alike.behind (· = true) (Advances.skipKeyword? _) (Shortens.skipKeyword? _) ?_ ?_
  · rintro _ rfl
    exact behind
  · rintro (_ | _) missed
    · exact otherwise
    · exact absurd rfl missed

theorem recover {parser other : Parser α} (same : Alike limit parser other) :
    Alike limit (Parser.recover parser) (Parser.recover other) := by
  intro start below
  simp only [Parser.recover, same below]

theorem itemsFrom {item other : Parser α} (advances : item.Advances)
    (same : Alike limit item other) (tooMany : SyntaxFault) (count bound : Nat) :
    Alike limit (Parser.itemsFrom item tooMany count bound)
      (Parser.itemsFrom other tooMany count bound) := by
  induction bound generalizing count with
  | zero => exact refl _ _
  | succ bound inductionHypothesis =>
      have rest : ∀ first, Alike limit
          (do
            if ← Parser.skip? .comma then
              return first :: (← Parser.itemsFrom item tooMany (count + 1) bound)
            else
              return [first] : Parser (List α))
          (do
            if ← Parser.skip? .comma then
              return first :: (← Parser.itemsFrom other tooMany (count + 1) bound)
            else
              return [first]) := fun first =>
        seq (Advances.skip? _) fun _ => ite
          (bind (Advances.itemsFrom advances _ _ _) (inductionHypothesis (count + 1))
            fun _ => refl _ _)
          (refl _ _)
      unfold Parser.itemsFrom
      split
      · exact seq Advances.get fun _ => seq (Advances.report _ _) fun _ => bind advances same rest
      · exact bind advances same rest

theorem listUpTo (close : Mark) {item other : Parser α} (advances : item.Advances)
    (same : Alike limit item other) (tooMany : SyntaxFault) :
    Alike limit (Parser.listUpTo close item tooMany) (Parser.listUpTo close other tooMany) := by
  refine seq (Advances.at? _) fun _ => ite (refl _ _) (seq Advances.get fun _ => ?_)
  exact bind (Advances.itemsFrom advances _ _ _) (same.itemsFrom advances _ _ _) fun _ => refl _ _

end Alike

end Parser

open Lox.Grammar.Parser (Advances Shortens Alike)

variable {limit : Nat}

/-! ### Expressions -/

section Expressions

variable {nested other : Parser Expression}

theorem primary_alike (inside : nested.Advances) (same : Alike limit nested other) :
    Alike (limit + 1) (primary nested) (primary other) :=
  Alike.ifSymbol (Alike.bind inside same fun _ => Alike.refl _ _) (Alike.refl _ _)

theorem callsFrom_alike (inside : nested.Advances) (same : Alike limit nested other) (bound : Nat)
    (callee : Expression) :
    Alike (limit + 1) (callsFrom nested bound callee) (callsFrom other bound callee) := by
  induction bound generalizing callee with
  | zero => exact Alike.refl _ _
  | succ bound inductionHypothesis =>
      refine Alike.ifSymbol ?_ (Alike.ifSymbol ?_ (Alike.refl _ _))
      · exact Alike.bind (Advances.listUpTo _ inside _) (same.listUpTo _ inside _) fun _ =>
          Alike.seq (Advances.node _) fun callee => (inductionHypothesis callee).mono
      · exact Alike.seq (Advances.requireName _) fun _ =>
          Alike.seq (Advances.node _) fun callee => (inductionHypothesis callee).mono

theorem call_alike (inside : nested.Advances) (same : Alike limit nested other) :
    Alike (limit + 1) (call nested) (call other) :=
  Alike.seq Advances.get fun _ =>
    Alike.bind (primary_advances inside) (primary_alike inside same) fun _ =>
      callsFrom_alike inside same _ _

theorem unary_alike (inside : nested.Advances) (same : Alike limit nested other) :
    Alike (limit + 1) (unary nested) (unary other) :=
  Alike.seq (Advances.takeAll _) fun _ =>
    Alike.bind (call_advances inside) (call_alike inside same) fun _ => Alike.refl _ _

theorem leftAssociativeFrom_alike (inside : nested.Advances) (same : Alike limit nested other)
    (isOperator : Token → Bool) (make : Nat → Expression → Token → Expression → Expression)
    (bound : Nat) (left : Expression) :
    Alike limit (leftAssociativeFrom isOperator make nested bound left)
      (leftAssociativeFrom isOperator make other bound left) := by
  induction bound generalizing left with
  | zero => exact Alike.refl _ _
  | succ bound inductionHypothesis =>
      refine Alike.seq (Advances.take? _) fun operator => ?_
      cases operator with
      | none => exact Alike.refl _ _
      | some operator =>
          exact Alike.bind inside same fun _ => Alike.seq (Advances.node _) inductionHypothesis

theorem leftAssociative_alike (inside : nested.Advances) (same : Alike limit nested other)
    (isOperator : Token → Bool) (make : Nat → Expression → Token → Expression → Expression) :
    Alike limit (leftAssociative isOperator make nested) (leftAssociative isOperator make other) :=
  Alike.bind inside same fun _ => Alike.seq Advances.get fun _ =>
    leftAssociativeFrom_alike inside same _ _ _ _

theorem disjunction_alike (inside : nested.Advances) (same : Alike limit nested other) :
    Alike (limit + 1) (disjunction nested) (disjunction other) := by
  have factors := leftAssociative_alike (unary_advances inside) (unary_alike inside same)
  have terms := leftAssociative_alike (factor_advances inside) (factors _ _)
  have comparisons := leftAssociative_alike (term_advances inside) (terms _ _)
  have equalities := leftAssociative_alike (comparison_advances inside) (comparisons _ _)
  have conjunctions := leftAssociative_alike (equality_advances inside) (equalities _ _)
  exact leftAssociative_alike (conjunction_advances inside) (conjunctions _ _) _ _

theorem assignment_alike (inside : nested.Advances) (same : Alike limit nested other) :
    Alike (limit + 1) (assignment nested) (assignment other) :=
  Alike.bind (disjunction_advances inside) (disjunction_alike inside same) fun _ =>
    Alike.ifTaken (fun _ => Alike.bind inside same fun _ => Alike.refl _ _) (Alike.refl _ _)

theorem iterate_assignment_alike (depth : Nat) (bottom : Parser Expression) :
    Alike depth (expressionWithin depth) (assignment^[depth] bottom) := by
  induction depth with
  | zero => exact fun _ below => absurd below (Nat.not_lt_zero _)
  | succ depth inductionHypothesis =>
      rw [Function.iterate_succ_apply']
      exact assignment_alike (expressionWithin_advances depth) inductionHypothesis

theorem expressionWithin_eq (depth : Nat) :
    expressionWithin depth = assignment^[depth] (Parser.failHere .missingExpression) := by
  induction depth with
  | zero => rfl
  | succ depth inductionHypothesis =>
      rw [Function.iterate_succ_apply', ← inductionHypothesis, expressionWithin]

/-- Expressions nest less deeply than there are tokens, so that it makes no difference how
deeply they may nest, and what would be read at the innermost level. -/
theorem iterate_assignment_eq {start : Cursor} {depth : Nat} (deep : start.rest.length < depth)
    (bottom : Parser Expression) :
    (assignment^[depth] bottom) start = expressionWithin (start.rest.length + 1) start := by
  obtain ⟨more, rfl⟩ := Nat.exists_eq_add_of_le deep
  rw [Function.iterate_add_apply]
  exact (iterate_assignment_alike _ _ (Nat.lt_succ_self _)).symm

theorem iterate_assignment_eq_expression {start : Cursor} {depth : Nat}
    (bounded : start.rest.length < start.bound) (deep : start.rest.length < depth)
    (bottom : Parser Expression) : (assignment^[depth] bottom) start = expression start := by
  show _ = expressionWithin start.bound start
  rw [iterate_assignment_eq deep, expressionWithin_eq start.bound, iterate_assignment_eq bounded]

end Expressions

/-! ### Statements -/

section Statements

variable {declaration another : Parser (Option Statement)} {nested other : Parser Statement}

theorem declarationsUntil_alike (inside : declaration.Advances)
    (same : Alike limit declaration another) (stop : Token → Bool) (bound : Nat) :
    Alike limit (declarationsUntil stop declaration bound)
      (declarationsUntil stop another bound) := by
  induction bound with
  | zero => exact Alike.refl _ _
  | succ bound inductionHypothesis =>
      refine Alike.seq Advances.atEnd fun _ => Alike.seq (Advances.at? _) fun _ => ?_
      refine Alike.ite (Alike.refl _ _) (Alike.bind inside same fun _ => ?_)
      exact Alike.bind (declarationsUntil_advances inside _ _) inductionHypothesis fun _ =>
        Alike.refl _ _

theorem block_alike (inside : declaration.Advances) (same : Alike limit declaration another) :
    Alike limit (block declaration) (block another) :=
  Alike.seq Advances.get fun _ => Alike.bind (declarationsUntil_advances inside _ _)
    (declarationsUntil_alike inside same _ _) fun _ => Alike.refl _ _

theorem function_alike (inside : declaration.Advances) (same : Alike limit declaration another)
    (role : FunctionRole) : Alike limit (function declaration role) (function another role) := by
  refine Alike.seq (Advances.requireName _) fun _ => Alike.seq (Advances.require _) fun _ => ?_
  refine Alike.seq (Advances.listUpTo _ (Advances.requireName _) _) fun _ => ?_
  exact Alike.seq (Advances.require _) fun _ =>
    Alike.bind (block_advances inside) (block_alike inside same) fun _ => Alike.refl _ _

theorem methodsFrom_alike (inside : declaration.Advances) (same : Alike limit declaration another)
    (bound : Nat) : Alike limit (methodsFrom declaration bound) (methodsFrom another bound) := by
  induction bound with
  | zero => exact Alike.refl _ _
  | succ bound inductionHypothesis =>
      refine Alike.seq Advances.atEnd fun _ => Alike.seq (Advances.at? _) fun _ => ?_
      refine Alike.ite (Alike.refl _ _) ?_
      refine Alike.bind (function_advances inside _) (function_alike inside same _) fun _ => ?_
      exact Alike.bind (methodsFrom_advances inside _) inductionHypothesis fun _ => Alike.refl _ _

theorem classDeclaration_alike (inside : declaration.Advances)
    (same : Alike limit declaration another) :
    Alike limit (classDeclaration declaration) (classDeclaration another) := by
  refine Alike.seq (Advances.requireName _) fun _ => Alike.seq (Advances.require _) fun _ => ?_
  exact Alike.seq Advances.get fun _ => Alike.bind (methodsFrom_advances inside _)
    (methodsFrom_alike inside same _) fun _ => Alike.refl _ _

theorem declared_alike (inside : declaration.Advances) (same : Alike limit declaration another)
    (statements : Alike (limit + 1) nested other) :
    Alike (limit + 1) (declared declaration nested) (declared another other) := by
  refine Alike.ifKeyword (classDeclaration_alike inside same) (Alike.ifKeyword ?_ ?_)
  · exact Alike.bind (function_advances inside _) (function_alike inside same _) fun _ =>
      Alike.refl _ _
  · exact Alike.ifKeyword (Alike.refl _ _) statements

theorem ifStatement_alike (inside : nested.Advances) (same : Alike limit nested other) :
    Alike limit (ifStatement nested) (ifStatement other) := by
  refine Alike.seq (Advances.require _) fun _ => Alike.seq expression_advances fun _ => ?_
  refine Alike.seq (Advances.require _) fun _ => Alike.bind inside same fun _ => ?_
  refine Alike.seq (Advances.skipKeyword? _) fun _ => Alike.ite ?_ (Alike.refl _ _)
  exact Alike.bind (Advances.map some inside) (Alike.map some same) fun _ => Alike.refl _ _

theorem whileStatement_alike (inside : nested.Advances) (same : Alike limit nested other) :
    Alike limit (whileStatement nested) (whileStatement other) := by
  refine Alike.seq (Advances.require _) fun _ => Alike.seq expression_advances fun _ => ?_
  exact Alike.seq (Advances.require _) fun _ => Alike.bind inside same fun _ => Alike.refl _ _

theorem forStatement_alike (inside : nested.Advances) (same : Alike limit nested other) :
    Alike limit (forStatement nested) (forStatement other) := by
  refine Alike.seq (Advances.require _) fun _ => Alike.seq forInitializer_advances fun _ => ?_
  refine Alike.seq (optionalExpression_advances _) fun _ => ?_
  refine Alike.seq (Advances.require _) fun _ => ?_
  refine Alike.seq (optionalExpression_advances _) fun _ => ?_
  exact Alike.seq (Advances.require _) fun _ => Alike.bind inside same fun _ => Alike.refl _ _

theorem statementOf_alike (declarations : declaration.Advances) (statements : nested.Advances)
    (sameDeclaration : Alike limit declaration another) (same : Alike limit nested other) :
    Alike (limit + 1) (statementOf declaration nested) (statementOf another other) := by
  refine Alike.ifKeyword (forStatement_alike statements same) ?_
  refine Alike.ifKeyword (ifStatement_alike statements same) ?_
  refine Alike.ifKeyword (whileStatement_alike statements same) ?_
  refine Alike.ifTaken (fun _ => Alike.refl _ _) (Alike.ifSymbol ?_ (Alike.refl _ _))
  exact Alike.bind (block_advances declarations) (block_alike declarations sameDeclaration)
    fun _ => Alike.refl _ _

/-- The rules for declarations and for statements, given those for the ones inside them. -/
def nesting (inside : Parser (Option Statement) × Parser Statement) :
    Parser (Option Statement) × Parser Statement :=
  (Parser.recover (declared inside.1 (statementOf inside.1 inside.2)),
    statementOf inside.1 inside.2)

theorem iterate_nesting_alike (depth : Nat)
    (bottom : Parser (Option Statement) × Parser Statement) :
    Alike depth (declarationWithin depth) (nesting^[depth] bottom).1 ∧
      Alike depth (statementWithin depth) (nesting^[depth] bottom).2 := by
  induction depth with
  | zero =>
      exact ⟨fun _ below => absurd below (Nat.not_lt_zero _),
        fun _ below => absurd below (Nat.not_lt_zero _)⟩
  | succ depth inductionHypothesis =>
      rw [Function.iterate_succ_apply']
      obtain ⟨advancesDeclaration, advances⟩ := within_advances depth
      obtain ⟨sameDeclaration, same⟩ := inductionHypothesis
      have statements := statementOf_alike advancesDeclaration advances sameDeclaration same
      exact ⟨(declared_alike advancesDeclaration sameDeclaration statements).recover, statements⟩

theorem within_eq (depth : Nat) :
    (declarationWithin depth, statementWithin depth) =
      nesting^[depth] (Parser.recover (Parser.failHere .missingExpression),
        Parser.failHere .missingExpression) := by
  induction depth with
  | zero => rfl
  | succ depth inductionHypothesis =>
      rw [Function.iterate_succ_apply', ← inductionHypothesis]
      rfl

/-- Statements nest less deeply than there are tokens as well. -/
theorem iterate_nesting_eq {start : Cursor} {depth : Nat} (deep : start.rest.length < depth)
    (bottom : Parser (Option Statement) × Parser Statement) :
    (nesting^[depth] bottom).1 start = declarationWithin (start.rest.length + 1) start ∧
      (nesting^[depth] bottom).2 start = statementWithin (start.rest.length + 1) start := by
  obtain ⟨more, rfl⟩ := Nat.exists_eq_add_of_le deep
  rw [Function.iterate_add_apply]
  obtain ⟨declarations, statements⟩ := iterate_nesting_alike (start.rest.length + 1)
    (nesting^[more] bottom)
  exact ⟨(declarations (Nat.lt_succ_self _)).symm, (statements (Nat.lt_succ_self _)).symm⟩

theorem iterate_nesting_eq_within {start : Cursor} {depth deeper : Nat}
    (bounded : start.rest.length < depth) (deep : start.rest.length < deeper)
    (bottom : Parser (Option Statement) × Parser Statement) :
    (nesting^[deeper] bottom).1 start = declarationWithin depth start ∧
      (nesting^[deeper] bottom).2 start = statementWithin depth start := by
  have here := iterate_nesting_eq deep bottom
  have there := iterate_nesting_eq bounded (Parser.recover (Parser.failHere .missingExpression),
    Parser.failHere .missingExpression)
  rw [← within_eq] at there
  exact ⟨here.1.trans there.1.symm, here.2.trans there.2.symm⟩

end Statements

end Lox.Grammar
