import Lox.Proofs.Grammar.Cursor

/-!
Contract: a parser only goes on, whether it gives a result or stops at an error.

Owns:
- `Onward`: fewer tokens are left, no number is given out again, and no error is forgotten;
- `Parser.Advances`, that a parser goes on, with a rule for each step and each rule of the
  grammar.

Does not own: what a parser has read.
-/

namespace Lox.Grammar

/-- A cursor that has been reached from another one. -/
structure Onward (start final : Cursor) : Prop where
  suffix : final.rest <:+ start.rest
  nextId : start.nextId ≤ final.nextId
  errors : start.errors <+: final.errors
  bound : final.bound = start.bound
  finish : final.finish = start.finish

namespace Onward

variable {start middle final : Cursor}

theorem refl (start : Cursor) : Onward start start where
  suffix := List.suffix_refl _
  nextId := Nat.le_refl _
  errors := List.prefix_refl _
  bound := rfl
  finish := rfl

theorem trans (first : Onward start middle) (second : Onward middle final) :
    Onward start final where
  suffix := second.suffix.trans first.suffix
  nextId := Nat.le_trans first.nextId second.nextId
  errors := first.errors.trans second.errors
  bound := second.bound.trans first.bound
  finish := second.finish.trans first.finish

theorem drop (start : Cursor) {rest : List Token} (suffix : rest <:+ start.rest) :
    Onward start { start with rest := rest } :=
  { refl start with suffix := suffix }

theorem report (start : Cursor) (error : SyntaxError) : Onward start (start.report error) :=
  { refl start with errors := List.prefix_append _ _ }

end Onward

theorem Cursor.nextStatement_suffix (previous : Token) (tokens : List Token) :
    Cursor.nextStatement previous tokens <:+ tokens := by
  induction tokens generalizing previous with
  | nil => exact List.suffix_refl _
  | cons token rest inductionHypothesis =>
      unfold Cursor.nextStatement
      split
      · exact List.suffix_refl _
      · exact (inductionHypothesis token).trans (List.suffix_cons token rest)

theorem Onward.synchronize (start : Cursor) : Onward start start.synchronize := by
  unfold Cursor.synchronize
  split
  · exact Onward.refl start
  case h_2 token rest left =>
      refine Onward.drop start ?_
      rw [left]
      exact (Cursor.nextStatement_suffix token rest).trans (List.suffix_cons token rest)

namespace Parser

variable {α β : Type}

/-- The cursor that a parser leaves. -/
def left : EStateM.Result SyntaxError Cursor α → Cursor
  | .ok _ final => final
  | .error _ final => final

/-- A parser goes on from wherever it starts. -/
def Advances (parser : Parser α) : Prop :=
  ∀ start, Onward start (left (parser start))

namespace Advances

/-! ### Steps -/

theorem pure (value : α) : (Pure.pure value : Parser α).Advances :=
  fun start => Onward.refl start

theorem get : (MonadState.get : Parser Cursor).Advances :=
  fun start => Onward.refl start

theorem failHere (fault : SyntaxFault) : (Parser.failHere fault : Parser α).Advances :=
  fun start => Onward.refl start

theorem bind {first : Parser α} {second : α → Parser β} (advances : first.Advances)
    (following : ∀ value, (second value).Advances) : (first >>= second).Advances := by
  intro start
  show Onward start (left (EStateM.bind first second start))
  have before := advances start
  unfold EStateM.bind
  generalize first start = result at before ⊢
  cases result with
  | ok value middle => exact before.trans (following value middle)
  | error => exact before

theorem map (transform : α → β) {parser : Parser α} (advances : parser.Advances) :
    (transform <$> parser).Advances := by
  intro start
  show Onward start (left (EStateM.map transform parser start))
  have before := advances start
  unfold EStateM.map
  generalize parser start = result at before ⊢
  cases result <;> exact before

theorem report (token : Token) (fault : SyntaxFault) : (Parser.report token fault).Advances :=
  fun start => Onward.report start _

theorem at? (condition : Token → Bool) : (Parser.at? condition).Advances :=
  fun start => Onward.refl start

theorem atEnd : Parser.atEnd.Advances :=
  fun start => Onward.refl start

theorem take? (condition : Token → Bool) : (Parser.take? condition).Advances := by
  intro start
  have here : start = start.moved start.rest start.nextId := rfl
  rw [here]
  cases tokens : start.rest with
  | nil =>
      rw [take?_stop rfl]
      exact Onward.refl _
  | cons token rest =>
      by_cases holds : condition token
      · rw [take?_cons holds]
        exact Onward.drop (start.moved (token :: rest) start.nextId) (List.suffix_cons token rest)
      · rw [take?_stop (by simpa using holds)]
        exact Onward.refl _

theorem takeAll (condition : Token → Bool) : (Parser.takeAll condition).Advances :=
  fun start => Onward.drop start (List.drop_suffix _ _)

theorem skip? (symbol : Symbol) : (Parser.skip? symbol).Advances :=
  (take? _).bind fun _ => pure _

theorem skipKeyword? (keyword : Keyword) : (Parser.skipKeyword? keyword).Advances :=
  (take? _).bind fun _ => pure _

theorem require (mark : Mark) : (Parser.require mark).Advances := by
  refine (take? _).bind fun found => ?_
  cases found with
  | none => exact failHere _
  | some token => exact pure token

theorem requireName (role : NameRole) : (Parser.requireName role).Advances := by
  refine (take? _).bind fun found => ?_
  cases found with
  | none => exact failHere _
  | some token => exact pure token

theorem node (make : Nat → Expression) : (Parser.node make).Advances :=
  fun start => { Onward.refl start with nextId := Nat.le_succ _ }

theorem ite {condition : Bool} {behind otherwise : Parser α} (found : behind.Advances)
    (missing : otherwise.Advances) : (if condition then behind else otherwise).Advances := by
  split
  · exact found
  · exact missing

theorem recover {parser : Parser α} (advances : parser.Advances) :
    (Parser.recover parser).Advances := by
  intro start
  have before := advances start
  unfold Parser.recover
  generalize parser start = result at before ⊢
  cases result with
  | ok value final => exact before
  | error error final =>
      exact (before.trans (Onward.report final error)).trans (Onward.synchronize _)

theorem itemsFrom {item : Parser α} (advances : item.Advances) (tooMany : SyntaxFault)
    (count bound : Nat) : (Parser.itemsFrom item tooMany count bound).Advances := by
  induction bound generalizing count with
  | zero => exact pure _
  | succ bound inductionHypothesis =>
      have rest : ∀ first, (do
          if ← Parser.skip? .comma then
            return first :: (← Parser.itemsFrom item tooMany (count + 1) bound)
          else
            return [first] : Parser (List α)).Advances := fun first =>
        (skip? _).bind fun _ =>
          ite ((inductionHypothesis (count + 1)).bind fun _ => pure _) (pure _)
      unfold Parser.itemsFrom
      split
      · exact get.bind fun _ => (report _ _).bind fun _ => advances.bind rest
      · exact advances.bind rest

theorem listUpTo (close : Mark) {item : Parser α} (advances : item.Advances)
    (tooMany : SyntaxFault) : (Parser.listUpTo close item tooMany).Advances := by
  refine (at? _).bind fun _ => ite ((require close).bind fun _ => pure _) ?_
  exact get.bind fun _ => (itemsFrom advances tooMany 0 _).bind fun _ =>
    (require close).bind fun _ => pure _

end Advances

end Parser

open Lox.Grammar.Parser (Advances)

/-! ### Expressions -/

section Expressions

variable {nested : Parser Expression}

theorem primary_advances (inside : nested.Advances) : (primary nested).Advances := by
  refine (Advances.skip? _).bind fun _ => Advances.ite ?_ ?_
  · exact inside.bind fun _ => (Advances.require _).bind fun _ => Advances.node _
  · refine (Advances.take? _).bind fun literal => ?_
    split
    · exact Advances.node _
    · refine (Advances.take? _).bind fun keyword => ?_
      split
      · exact Advances.node _
      · refine (Advances.take? _).bind fun name => ?_
        split
        · exact Advances.node _
        · exact Advances.failHere _

theorem callsFrom_advances (inside : nested.Advances) (bound : Nat) (callee : Expression) :
    (callsFrom nested bound callee).Advances := by
  induction bound generalizing callee with
  | zero => exact Advances.pure _
  | succ bound inductionHypothesis =>
      refine (Advances.skip? _).bind fun _ => Advances.ite ?_ ?_
      · exact (Advances.listUpTo _ inside _).bind fun _ =>
          (Advances.node _).bind inductionHypothesis
      · refine (Advances.skip? _).bind fun _ => Advances.ite ?_ (Advances.pure _)
        exact (Advances.requireName _).bind fun _ => (Advances.node _).bind inductionHypothesis

theorem call_advances (inside : nested.Advances) : (call nested).Advances :=
  Advances.get.bind fun _ => (primary_advances inside).bind fun _ => callsFrom_advances inside _ _

theorem unaryNodes_advances (operators : List Token) (operand : Expression) :
    (operators.foldrM (fun operator operand => Parser.node (.unary · operator operand))
      operand).Advances := by
  induction operators with
  | nil => exact Advances.pure operand
  | cons operator operators inductionHypothesis =>
      rw [List.foldrM_cons]
      exact inductionHypothesis.bind fun _ => Advances.node _

theorem unary_advances (inside : nested.Advances) : (unary nested).Advances :=
  (Advances.takeAll _).bind fun operators => (call_advances inside).bind
    (unaryNodes_advances operators)

theorem leftAssociativeFrom_advances {operand : Parser Expression} (inside : operand.Advances)
    (isOperator : Token → Bool) (make : Nat → Expression → Token → Expression → Expression)
    (bound : Nat) (first : Expression) :
    (leftAssociativeFrom isOperator make operand bound first).Advances := by
  induction bound generalizing first with
  | zero => exact Advances.pure _
  | succ bound inductionHypothesis =>
      refine (Advances.take? _).bind fun operator => ?_
      cases operator with
      | none => exact Advances.pure _
      | some operator => exact inside.bind fun _ => (Advances.node _).bind inductionHypothesis

theorem leftAssociative_advances {operand : Parser Expression} (inside : operand.Advances)
    (isOperator : Token → Bool) (make : Nat → Expression → Token → Expression → Expression) :
    (leftAssociative isOperator make operand).Advances :=
  inside.bind fun _ => Advances.get.bind fun _ => leftAssociativeFrom_advances inside _ _ _ _

theorem factor_advances (inside : nested.Advances) : (factor nested).Advances :=
  leftAssociative_advances (unary_advances inside) _ _

theorem term_advances (inside : nested.Advances) : (term nested).Advances :=
  leftAssociative_advances (factor_advances inside) _ _

theorem comparison_advances (inside : nested.Advances) : (comparison nested).Advances :=
  leftAssociative_advances (term_advances inside) _ _

theorem equality_advances (inside : nested.Advances) : (equality nested).Advances :=
  leftAssociative_advances (comparison_advances inside) _ _

theorem conjunction_advances (inside : nested.Advances) : (conjunction nested).Advances :=
  leftAssociative_advances (equality_advances inside) _ _

theorem disjunction_advances (inside : nested.Advances) : (disjunction nested).Advances :=
  leftAssociative_advances (conjunction_advances inside) _ _

/-- What may follow the target of an assignment. -/
theorem assigned_advances (inside : nested.Advances) (target : Expression) :
    (do
      match ← Parser.take? (Token.isSymbol .equal) with
      | none => return target
      | some equals =>
          let value ← nested
          match target with
          | .variable _ name => Parser.node (.assign · name value)
          | .get _ object name => Parser.node (.set · object name value)
          | _ =>
              Parser.report equals .invalidTarget
              return target : Parser Expression).Advances := by
  refine (Advances.take? _).bind fun equals => ?_
  cases equals with
  | none => exact Advances.pure _
  | some equals =>
      refine inside.bind fun value => ?_
      split
      · exact Advances.node _
      · exact Advances.node _
      · exact (Advances.report _ _).bind fun _ => Advances.pure _

theorem assignment_advances (inside : nested.Advances) : (assignment nested).Advances :=
  (disjunction_advances inside).bind (assigned_advances inside)

theorem expressionWithin_advances (depth : Nat) : (expressionWithin depth).Advances := by
  induction depth with
  | zero => exact Advances.failHere _
  | succ depth inductionHypothesis => exact assignment_advances inductionHypothesis

theorem expression_advances : expression.Advances :=
  Advances.get.bind fun _ => expressionWithin_advances _

end Expressions

/-! ### Statements -/

theorem optionalExpression_advances (absent : Symbol) : (optionalExpression absent).Advances :=
  (Advances.at? _).bind fun _ => Advances.ite (Advances.pure _)
    (expression_advances.bind fun _ => Advances.pure _)

theorem varDeclaration_advances : varDeclaration.Advances := by
  have rest : ∀ name initializer, (do
      let _ ← Parser.require .varEnd
      return .var name initializer : Parser Statement).Advances := fun _ _ =>
    (Advances.require _).bind fun _ => Advances.pure _
  refine (Advances.requireName _).bind fun name => (Advances.skip? _).bind fun _ => ?_
  refine Advances.ite ?_ ?_
  · exact (Advances.map some expression_advances).bind (rest name)
  · exact (Advances.pure none).bind (rest name)

theorem expressionStatement_advances : expressionStatement.Advances :=
  expression_advances.bind fun _ => (Advances.require _).bind fun _ => Advances.pure _

theorem printStatement_advances : printStatement.Advances :=
  expression_advances.bind fun _ => (Advances.require _).bind fun _ => Advances.pure _

theorem returnStatement_advances (keyword : Token) : (returnStatement keyword).Advances :=
  (optionalExpression_advances _).bind fun _ => (Advances.require _).bind fun _ => Advances.pure _

section Statements

variable {declaration : Parser (Option Statement)} {nested : Parser Statement}

theorem declarationsUntil_advances (inside : declaration.Advances) (stop : Token → Bool)
    (bound : Nat) : (declarationsUntil stop declaration bound).Advances := by
  induction bound with
  | zero => exact Advances.pure _
  | succ bound inductionHypothesis =>
      refine Advances.atEnd.bind fun _ => (Advances.at? _).bind fun _ => ?_
      refine Advances.ite (Advances.pure _) ?_
      exact inside.bind fun _ => inductionHypothesis.bind fun _ => Advances.pure _

theorem block_advances (inside : declaration.Advances) : (block declaration).Advances :=
  Advances.get.bind fun _ => (declarationsUntil_advances inside _ _).bind fun _ =>
    (Advances.require _).bind fun _ => Advances.pure _

/-- What follows the name of a function or method. -/
theorem signature_advances (inside : declaration.Advances) (role : FunctionRole) (name : Token) :
    (do
      let _ ← Parser.require (.parametersOpen role)
      let (parameters, _) ←
        Parser.listUpTo .parametersClose (Parser.requireName .parameter) .tooManyParameters
      let _ ← Parser.require (.bodyOpen role)
      return ⟨name, parameters, ← block declaration⟩ : Parser FunctionDeclaration).Advances := by
  refine (Advances.require _).bind fun _ => ?_
  refine (Advances.listUpTo _ (Advances.requireName _) _).bind fun _ => ?_
  exact (Advances.require _).bind fun _ => (block_advances inside).bind fun _ => Advances.pure _

theorem function_advances (inside : declaration.Advances) (role : FunctionRole) :
    (function declaration role).Advances :=
  (Advances.requireName _).bind (signature_advances inside role)

theorem methodsFrom_advances (inside : declaration.Advances) (bound : Nat) :
    (methodsFrom declaration bound).Advances := by
  induction bound with
  | zero => exact Advances.pure _
  | succ bound inductionHypothesis =>
      refine Advances.atEnd.bind fun _ => (Advances.at? _).bind fun _ => ?_
      refine Advances.ite (Advances.pure _) ?_
      exact (function_advances inside _).bind fun _ => inductionHypothesis.bind fun _ =>
        Advances.pure _

theorem classDeclaration_advances (inside : declaration.Advances) :
    (classDeclaration declaration).Advances := by
  refine (Advances.requireName _).bind fun _ => (Advances.require _).bind fun _ => ?_
  refine Advances.get.bind fun _ => (methodsFrom_advances inside _).bind fun _ => ?_
  exact (Advances.require _).bind fun _ => Advances.pure _

theorem declared_advances (insideDeclaration : declaration.Advances) (inside : nested.Advances) :
    (declared declaration nested).Advances := by
  refine (Advances.skipKeyword? _).bind fun _ => Advances.ite ?_ ?_
  · exact classDeclaration_advances insideDeclaration
  · refine (Advances.skipKeyword? _).bind fun _ => Advances.ite ?_ ?_
    · exact (function_advances insideDeclaration _).bind fun _ => Advances.pure _
    · refine (Advances.skipKeyword? _).bind fun _ => Advances.ite ?_ inside
      exact varDeclaration_advances

theorem ifStatement_advances (inside : nested.Advances) : (ifStatement nested).Advances := by
  refine (Advances.require _).bind fun _ => expression_advances.bind fun _ => ?_
  refine (Advances.require _).bind fun _ => inside.bind fun _ => ?_
  refine (Advances.skipKeyword? _).bind fun _ => Advances.ite ?_ ?_
  · exact (Advances.map some inside).bind fun _ => Advances.pure _
  · exact (Advances.pure none).bind fun _ => Advances.pure _

theorem whileStatement_advances (inside : nested.Advances) : (whileStatement nested).Advances := by
  refine (Advances.require _).bind fun _ => expression_advances.bind fun _ => ?_
  exact (Advances.require _).bind fun _ => inside.bind fun _ => Advances.pure _

theorem forInitializer_advances : forInitializer.Advances := by
  refine (Advances.skip? _).bind fun _ => Advances.ite (Advances.pure _) ?_
  refine (Advances.skipKeyword? _).bind fun _ => Advances.ite ?_ ?_
  · exact varDeclaration_advances.bind fun _ => Advances.pure _
  · exact expressionStatement_advances.bind fun _ => Advances.pure _

theorem forStatement_advances (inside : nested.Advances) : (forStatement nested).Advances := by
  refine (Advances.require _).bind fun _ => forInitializer_advances.bind fun _ => ?_
  refine (optionalExpression_advances _).bind fun condition => (Advances.require _).bind fun _ => ?_
  refine (optionalExpression_advances _).bind fun _ => (Advances.require _).bind fun _ => ?_
  refine inside.bind fun _ => ?_
  cases condition with
  | none => exact (Advances.node _).bind fun _ => Advances.pure _
  | some condition => exact Advances.pure _

theorem statementOf_advances (insideDeclaration : declaration.Advances)
    (inside : nested.Advances) : (statementOf declaration nested).Advances := by
  refine (Advances.skipKeyword? _).bind fun _ => Advances.ite (forStatement_advances inside) ?_
  refine (Advances.skipKeyword? _).bind fun _ => Advances.ite (ifStatement_advances inside) ?_
  refine (Advances.skipKeyword? _).bind fun _ => Advances.ite (whileStatement_advances inside) ?_
  refine (Advances.take? _).bind fun keyword => ?_
  cases keyword with
  | some keyword => exact returnStatement_advances keyword
  | none =>
      refine (Advances.skip? _).bind fun _ => Advances.ite ?_ ?_
      · exact (block_advances insideDeclaration).bind fun _ => Advances.pure _
      · refine (Advances.skipKeyword? _).bind fun _ => Advances.ite ?_ ?_
        · exact printStatement_advances
        · exact expressionStatement_advances

end Statements

theorem within_advances (depth : Nat) :
    (declarationWithin depth).Advances ∧ (statementWithin depth).Advances := by
  induction depth with
  | zero => exact ⟨Advances.recover (Advances.failHere _), Advances.failHere _⟩
  | succ depth inductionHypothesis =>
      obtain ⟨declarations, statements⟩ := inductionHypothesis
      have statement := statementOf_advances declarations statements
      exact ⟨Advances.recover (declared_advances declarations statement), statement⟩

theorem program_advances : program.Advances :=
  Advances.get.bind fun _ => declarationsUntil_advances (within_advances _).1 _ _

theorem soleExpression_advances : soleExpression.Advances :=
  expression_advances.bind fun _ => Advances.atEnd.bind fun _ =>
    Advances.ite (Advances.pure _) (Advances.failHere _)

/-- No number is given out twice, whatever the tokens are. -/
theorem parseProgram_nextId (tokens : List Token) (firstId : Nat) :
    firstId ≤ (parseProgram tokens firstId).nextId := by
  have onward := program_advances (Cursor.start tokens firstId)
  unfold parseProgram Parser.run
  generalize program (Cursor.start tokens firstId) = result at onward ⊢
  cases result <;> exact onward.nextId

end Lox.Grammar
