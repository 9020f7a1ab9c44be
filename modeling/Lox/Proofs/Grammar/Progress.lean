import Lox.Proofs.Grammar.Onward

/-!
Contract: a rule of the grammar that gives a result has read a token, and so has a
declaration that was given up.

Owns:
- `Parser.Shortens`, that a parser has read a token whenever its result is of some kind, with
  a rule for each step and each rule of the grammar that reads something;
- `declarationWithin_shortens`: a declaration is left with fewer tokens than it was met with.

Does not own: how often a rule is repeated.
-/

namespace Lox.Grammar

namespace Parser

variable {α β : Type} {kind : α → Prop} {other : β → Prop}

/-- Fewer tokens are left behind a parser whenever its result is of some kind. -/
def Shortens (parser : Parser α) (kind : α → Prop) : Prop :=
  ∀ ⦃start value final⦄, parser start = .ok value final → kind value →
    final.rest.length < start.rest.length

/-- Fewer tokens are left behind a parser whenever it gives a result. -/
abbrev Consumes (parser : Parser α) : Prop :=
  parser.Shortens fun _ => True

namespace Shortens

/-! ### Steps -/

theorem pure {value : α} (different : ¬ kind value) :
    (Pure.pure value : Parser α).Shortens kind := by
  rintro start _ _ ⟨⟩ same
  exact absurd same different

theorem failHere (fault : SyntaxFault) : (Parser.failHere fault : Parser α).Shortens kind := by
  rintro _ _ _ ⟨⟩

/-- Either the first part reads a token, or the second one does. -/
theorem bind (kind : α → Prop) {first : Parser α} {second : α → Parser β}
    (advances : first.Advances) (reads : first.Shortens kind)
    (behind : ∀ value, kind value → (second value).Advances)
    (otherwise : ∀ value, ¬ kind value → (second value).Shortens other) :
    (first >>= second).Shortens other := by
  intro start result final read same
  have onward := advances start
  simp only [Bind.bind, EStateM.bind] at read
  split at read
  case h_2 => cases read
  case h_1 value middle accepted =>
      rw [accepted] at onward
      by_cases isKind : kind value
      · have following := behind value isKind middle
        rw [read] at following
        exact Nat.lt_of_le_of_lt following.suffix.length_le (reads accepted isKind)
      · exact Nat.lt_of_lt_of_le (otherwise value isKind read same) onward.suffix.length_le

theorem first {first : Parser α} {second : α → Parser β} (advances : first.Advances)
    (consumes : first.Consumes) (behind : ∀ value, (second value).Advances) :
    (first >>= second).Shortens other :=
  bind _ advances consumes (fun value _ => behind value) fun _ never => absurd trivial never

theorem second {first : Parser α} {second : α → Parser β} (advances : first.Advances)
    (consumes : ∀ value, (second value).Shortens other) : (first >>= second).Shortens other :=
  bind (fun _ => False) advances (fun _ _ _ _ never => never.elim)
    (fun _ never => never.elim) fun value _ => consumes value

theorem take? (condition : Token → Bool) :
    (Parser.take? condition).Shortens fun found => found.isSome := by
  intro start found final read isSome
  have here : start = start.moved start.rest start.nextId := rfl
  rw [here] at read ⊢
  cases tokens : start.rest with
  | nil =>
      rw [tokens, take?_stop rfl] at read
      cases read
      cases isSome
  | cons token rest =>
      by_cases holds : condition token
      · rw [tokens, take?_cons holds] at read
        cases read
        exact Nat.lt_succ_self _
      · rw [tokens, take?_stop (by simpa using holds)] at read
        cases read
        cases isSome

/-- A branch behind a token that was read, and another one where it is missing. -/
theorem ifTaken {condition : Token → Bool} {second : Option Token → Parser β}
    (found : ∀ token, (second (some token)).Advances)
    (missing : (second none).Shortens other) :
    (Parser.take? condition >>= second).Shortens other := by
  refine bind _ (Advances.take? condition) (take? condition) (fun value isSome => ?_) ?_
  · obtain ⟨token, rfl⟩ := Option.isSome_iff_exists.mp isSome
    exact found token
  · rintro (_ | token) isNone
    · exact missing
    · exact absurd rfl isNone

theorem skip? (symbol : Symbol) : (Parser.skip? symbol).Shortens fun skipped => skipped = true :=
  ifTaken (fun _ => Advances.pure _) (pure Bool.false_ne_true)

theorem skipKeyword? (keyword : Keyword) :
    (Parser.skipKeyword? keyword).Shortens fun skipped => skipped = true :=
  ifTaken (fun _ => Advances.pure _) (pure Bool.false_ne_true)

theorem ifSymbol {symbol : Symbol} {behind otherwise : Parser β} (found : behind.Advances)
    (missing : otherwise.Shortens other) :
    (Parser.skip? symbol >>= fun skipped => if skipped then behind else otherwise).Shortens
      other := by
  refine bind (· = true) (Advances.skip? symbol) (skip? symbol) ?_ ?_
  · rintro _ rfl
    exact found
  · rintro (_ | _) missed
    · exact missing
    · exact absurd rfl missed

theorem ifKeyword {keyword : Keyword} {behind otherwise : Parser β} (found : behind.Advances)
    (missing : otherwise.Shortens other) :
    (Parser.skipKeyword? keyword >>= fun skipped =>
      if skipped then behind else otherwise).Shortens other := by
  refine bind (· = true) (Advances.skipKeyword? keyword) (skipKeyword? keyword) ?_ ?_
  · rintro _ rfl
    exact found
  · rintro (_ | _) missed
    · exact missing
    · exact absurd rfl missed

theorem requireName (role : NameRole) : (Parser.requireName role).Consumes :=
  ifTaken (fun token => Advances.pure token) (failHere _)

end Shortens

end Parser

open Lox.Grammar.Parser (Advances Shortens)

/-! ### Expressions -/

section Expressions

variable {nested : Parser Expression}

theorem primary_consumes (inside : nested.Advances) : (primary nested).Consumes := by
  refine Shortens.ifSymbol ?_ (Shortens.ifTaken (fun _ => Advances.node _) ?_)
  · exact inside.bind fun _ => (Advances.require _).bind fun _ => Advances.node _
  · refine Shortens.ifTaken (fun _ => Advances.node _) ?_
    exact Shortens.ifTaken (fun _ => Advances.node _) (Shortens.failHere _)

theorem call_consumes (inside : nested.Advances) : (call nested).Consumes :=
  Shortens.second Advances.get fun _ =>
    (primary_consumes inside).first (primary_advances inside) fun _ =>
      callsFrom_advances inside _ _

theorem unary_consumes (inside : nested.Advances) : (unary nested).Consumes :=
  Shortens.second (Advances.takeAll _) fun operators =>
    (call_consumes inside).first (call_advances inside) (unaryNodes_advances operators)

theorem leftAssociative_consumes {operand : Parser Expression} (inside : operand.Advances)
    (consumes : operand.Consumes) (isOperator : Token → Bool)
    (make : Nat → Expression → Token → Expression → Expression) :
    (leftAssociative isOperator make operand).Consumes :=
  consumes.first inside fun _ => Advances.get.bind fun _ =>
    leftAssociativeFrom_advances inside _ _ _ _

theorem disjunction_consumes (inside : nested.Advances) : (disjunction nested).Consumes := by
  have factors := leftAssociative_consumes (unary_advances inside) (unary_consumes inside)
  have terms := leftAssociative_consumes (factor_advances inside) (factors _ _)
  have comparisons := leftAssociative_consumes (term_advances inside) (terms _ _)
  have equalities := leftAssociative_consumes (comparison_advances inside) (comparisons _ _)
  have conjunctions := leftAssociative_consumes (equality_advances inside) (equalities _ _)
  exact leftAssociative_consumes (conjunction_advances inside) (conjunctions _ _) _ _

theorem assignment_consumes (inside : nested.Advances) : (assignment nested).Consumes :=
  (disjunction_consumes inside).first (disjunction_advances inside) (assigned_advances inside)

theorem expressionWithin_consumes (depth : Nat) : (expressionWithin depth).Consumes := by
  cases depth with
  | zero => exact Shortens.failHere _
  | succ depth => exact assignment_consumes (expressionWithin_advances depth)

theorem expression_consumes : expression.Consumes :=
  Shortens.second Advances.get fun _ => expressionWithin_consumes _

end Expressions

/-! ### Statements -/

section Statements

variable {declaration : Parser (Option Statement)} {nested : Parser Statement}

theorem expressionStatement_consumes : expressionStatement.Consumes :=
  expression_consumes.first expression_advances fun _ =>
    (Advances.require _).bind fun _ => Advances.pure _

theorem function_consumes (inside : declaration.Advances) (role : FunctionRole) :
    (function declaration role).Consumes :=
  (Shortens.requireName _).first (Advances.requireName _) fun _ => signature_advances inside _ _

theorem statementOf_consumes (insideDeclaration : declaration.Advances)
    (inside : nested.Advances) : (statementOf declaration nested).Consumes := by
  refine Shortens.ifKeyword (forStatement_advances inside) ?_
  refine Shortens.ifKeyword (ifStatement_advances inside) ?_
  refine Shortens.ifKeyword (whileStatement_advances inside) ?_
  refine Shortens.ifTaken returnStatement_advances (Shortens.ifSymbol ?_ ?_)
  · exact (block_advances insideDeclaration).bind fun _ => Advances.pure _
  · exact Shortens.ifKeyword printStatement_advances expressionStatement_consumes

theorem declared_consumes (insideDeclaration : declaration.Advances) (consumes : nested.Consumes) :
    (declared declaration nested).Consumes := by
  refine Shortens.ifKeyword (classDeclaration_advances insideDeclaration) ?_
  refine Shortens.ifKeyword ?_ (Shortens.ifKeyword varDeclaration_advances consumes)
  exact (function_advances insideDeclaration _).bind fun _ => Advances.pure _

end Statements

/-! ### Declarations -/

theorem Cursor.synchronize_shortens {cursor : Cursor} (inside : cursor.rest ≠ []) :
    cursor.synchronize.rest.length < cursor.rest.length := by
  unfold Cursor.synchronize
  split
  case h_1 ended => exact absurd ended inside
  case h_2 token rest left =>
      rw [left]
      exact Nat.lt_succ_of_le (Cursor.nextStatement_suffix token rest).length_le

/-- Whether it gives a result or is given up, a token is gone: what is given up skips one. -/
theorem recover_shortens {α : Type} {parser : Parser α} (advances : parser.Advances)
    (consumes : parser.Consumes) {start : Cursor} (inside : start.rest ≠ []) :
    (Parser.left (Parser.recover parser start)).rest.length < start.rest.length := by
  have onward := advances start
  unfold Parser.recover
  cases result : parser start with
  | ok value final => exact consumes result trivial
  | error error final =>
      rw [result] at onward
      have fewer : final.rest.length ≤ start.rest.length := onward.suffix.length_le
      show (final.report error).synchronize.rest.length < start.rest.length
      by_cases ended : final.rest = []
      · have stays : (final.report error).synchronize.rest = [] := by
          have suffix := (Onward.synchronize (final.report error)).suffix
          exact List.suffix_nil.mp (ended ▸ suffix)
        rw [stays]
        exact List.length_pos_iff.mpr inside
      · have inside : (final.report error).rest ≠ [] := ended
        exact Nat.lt_of_lt_of_le (Cursor.synchronize_shortens inside) fewer

/-- A declaration that is met before the end reads a token, also one that is given up. -/
theorem declarationWithin_shortens (depth : Nat) {start : Cursor} (inside : start.rest ≠ []) :
    (Parser.left (declarationWithin depth start)).rest.length < start.rest.length := by
  cases depth with
  | zero => exact recover_shortens (Advances.failHere _) (Shortens.failHere _) inside
  | succ depth =>
      obtain ⟨declarations, statements⟩ := within_advances depth
      have advances := statementOf_advances declarations statements
      have consumes := statementOf_consumes declarations statements
      exact recover_shortens (declared_advances declarations advances)
        (declared_consumes declarations consumes) inside

end Lox.Grammar
