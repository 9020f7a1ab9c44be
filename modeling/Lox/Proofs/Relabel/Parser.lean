import Lox.Grammar.Program
import Lox.Proofs.Relabel.Grammar
import Lox.Proofs.Relabel.Numbers

/-!
Contract: a parser that numbers nodes from elsewhere.

Owns:
- `Follows`, that a parser does the same as another one with greater numbers, with a rule for
  each step and each rule of the grammar;
- `parseProgram_ahead`: where the numbers of a unit start makes no difference to its errors,
  and none but in its numbers to its tree.

Does not own: what is read.
-/

namespace Lox.Grammar

variable (offset : Nat)

/-- The same place, with greater numbers to come. -/
def Cursor.ahead (cursor : Cursor) : Cursor :=
  { cursor with nextId := offset + cursor.nextId }

/-- The same answer of a parser, with greater numbers. -/
def answerAhead {α β : Type} (change : α → β) :
    EStateM.Result SyntaxError Cursor α → EStateM.Result SyntaxError Cursor β
  | .ok value final => .ok (change value) (final.ahead offset)
  | .error error final => .error error (final.ahead offset)

/-- A parser does the same as another one when it starts with greater numbers. Its results are
changed accordingly. -/
def Follows {α β : Type} (change : α → β) (parser : Parser α) (other : Parser β) : Prop :=
  ∀ start : Cursor, other (start.ahead offset) = answerAhead offset change (parser start)

/-- An expression with greater numbers. -/
abbrev renumber : Expression → Expression :=
  Expression.relabel (.renumbered offset)

variable {offset} {α β γ δ : Type}

theorem Cursor.synchronize_ahead (cursor : Cursor) :
    (cursor.ahead offset).synchronize = cursor.synchronize.ahead offset := by
  obtain ⟨rest, finish, bound, nextId, errors⟩ := cursor
  cases rest <;> rfl

namespace Follows

/-! ### Steps -/

theorem pure (change : α → β) (value : α) :
    Follows offset change (Pure.pure value) (Pure.pure (change value)) :=
  fun _ => rfl

theorem get : Follows offset (Cursor.ahead offset) (MonadState.get : Parser Cursor)
    MonadState.get :=
  fun _ => rfl

theorem failHere (change : α → β) (fault : SyntaxFault) :
    Follows offset change (Parser.failHere fault) (Parser.failHere fault) :=
  fun _ => rfl

theorem report (token : Token) (fault : SyntaxFault) :
    Follows offset id (Parser.report token fault) (Parser.report token fault) :=
  fun _ => rfl

theorem at? (condition : Token → Bool) :
    Follows offset id (Parser.at? condition) (Parser.at? condition) :=
  fun _ => rfl

theorem atEnd : Follows offset id Parser.atEnd Parser.atEnd :=
  fun _ => rfl

theorem takeAll (condition : Token → Bool) :
    Follows offset id (Parser.takeAll condition) (Parser.takeAll condition) :=
  fun _ => rfl

theorem take? (condition : Token → Bool) :
    Follows offset id (Parser.take? condition) (Parser.take? condition) := by
  rintro ⟨rest, finish, bound, nextId, errors⟩
  cases rest with
  | nil => rfl
  | cons token rest =>
      show (if condition token then _ else _ : Parser (Option Token)) _ =
        answerAhead offset id ((if condition token then _ else _ : Parser (Option Token)) _)
      split <;> rfl

theorem node {make other : Nat → Expression}
    (same : ∀ id, other (offset + id) = renumber offset (make id)) :
    Follows offset (renumber offset) (Parser.node make) (Parser.node other) :=
  fun start => congrArg (EStateM.Result.ok · _) (same start.nextId)

/-- One after the other. -/
theorem bind {change : α → β} {after : γ → δ} {first : Parser α} {other : Parser β}
    {second : α → Parser γ} {another : β → Parser δ} (follows : Follows offset change first other)
    (following : ∀ value, Follows offset after (second value) (another (change value))) :
    Follows offset after (first >>= second) (other >>= another) := by
  intro start
  show EStateM.bind other another _ = answerAhead offset after (EStateM.bind first second start)
  unfold EStateM.bind
  rw [follows start]
  cases first start with
  | ok value middle => exact following value middle
  | error => rfl

/-- One after the other, where the result of the first does not change. -/
theorem seq {after : γ → δ} {first : Parser α} {second : α → Parser γ} {another : α → Parser δ}
    (follows : Follows offset id first first)
    (following : ∀ value, Follows offset after (second value) (another value)) :
    Follows offset after (first >>= second) (first >>= another) :=
  follows.bind following

theorem map (into : γ → δ) {change : α → β} {transform : α → γ} {another : β → δ}
    {parser : Parser α} {other : Parser β} (follows : Follows offset change parser other)
    (commutes : ∀ value, another (change value) = into (transform value)) :
    Follows offset into (transform <$> parser) (another <$> other) := by
  intro start
  show EStateM.map another other _ = answerAhead offset into (EStateM.map transform parser start)
  unfold EStateM.map
  rw [follows start]
  cases parser start with
  | ok value middle => exact congrArg (EStateM.Result.ok · _) (commutes value)
  | error => rfl

theorem ite {change : α → β} {condition : Bool} {behind otherwise : Parser α}
    {another different : Parser β} (found : Follows offset change behind another)
    (missing : Follows offset change otherwise different) :
    Follows offset change (if condition then behind else otherwise)
      (if condition then another else different) := by
  split
  · exact found
  · exact missing

theorem skip? (symbol : Symbol) :
    Follows offset id (Parser.skip? symbol) (Parser.skip? symbol) :=
  (take? _).seq fun _ => pure id _

theorem skipKeyword? (keyword : Keyword) :
    Follows offset id (Parser.skipKeyword? keyword) (Parser.skipKeyword? keyword) :=
  (take? _).seq fun _ => pure id _

theorem require (mark : Mark) :
    Follows offset id (Parser.require mark) (Parser.require mark) := by
  refine (take? _).seq fun found => ?_
  cases found with
  | none => exact failHere _ _
  | some token => exact pure _ token

theorem requireName (role : NameRole) :
    Follows offset id (Parser.requireName role) (Parser.requireName role) := by
  refine (take? _).seq fun found => ?_
  cases found with
  | none => exact failHere _ _
  | some token => exact pure _ token

theorem recover {change : α → β} {parser : Parser α} {other : Parser β}
    (follows : Follows offset change parser other) :
    Follows offset (Option.map change) (Parser.recover parser) (Parser.recover other) := by
  intro start
  unfold Parser.recover
  rw [follows start]
  cases parser start with
  | ok value final => rfl
  | error error final =>
      exact congrArg (EStateM.Result.ok none) (Cursor.synchronize_ahead (final.report error))

theorem itemsFrom {change : α → β} {item : Parser α} {other : Parser β}
    (follows : Follows offset change item other) (tooMany : SyntaxFault) (count bound : Nat) :
    Follows offset (List.map change) (Parser.itemsFrom item tooMany count bound)
      (Parser.itemsFrom other tooMany count bound) := by
  induction bound generalizing count with
  | zero => exact pure _ []
  | succ bound inductionHypothesis =>
      have rest : ∀ first, Follows offset (List.map change)
          (do
            if ← Parser.skip? .comma then
              return first :: (← Parser.itemsFrom item tooMany (count + 1) bound)
            else
              return [first] : Parser (List α))
          (do
            if ← Parser.skip? .comma then
              return change first :: (← Parser.itemsFrom other tooMany (count + 1) bound)
            else
              return [change first]) := fun first =>
        (skip? _).seq fun _ => ite
          ((inductionHypothesis (count + 1)).bind fun values => pure (List.map change) _)
          (pure (List.map change) [first])
      unfold Parser.itemsFrom
      split
      · exact get.bind fun _ => (report _ _).seq fun _ => follows.bind rest
      · exact follows.bind rest

theorem listUpTo {change : α → β} (close : Mark) {item : Parser α} {other : Parser β}
    (follows : Follows offset change item other) (tooMany : SyntaxFault) :
    Follows offset (Prod.map (List.map change) id) (Parser.listUpTo close item tooMany)
      (Parser.listUpTo close other tooMany) := by
  refine (at? _).seq fun _ => ite ((require close).seq fun token => ?_) ?_
  · exact pure (Prod.map (List.map change) id) ([], token)
  · exact get.bind fun _ => (follows.itemsFrom tooMany 0 _).bind fun values =>
      (require close).seq fun token => pure (Prod.map (List.map change) id) (values, token)

end Follows

/-! ### Expressions -/

section Expressions

variable {nested : Parser Expression}

theorem primary_follows (inside : Follows offset (renumber offset) nested nested) :
    Follows offset (renumber offset) (primary nested) (primary nested) := by
  refine (Follows.skip? _).seq fun _ => Follows.ite ?_ ?_
  · exact inside.bind fun _ => (Follows.require _).seq fun _ => Follows.node fun _ => rfl
  · refine (Follows.take? _).seq fun literal => ?_
    split
    · exact Follows.node fun _ => rfl
    · refine (Follows.take? _).seq fun keyword => ?_
      split
      · exact Follows.node fun _ => rfl
      · refine (Follows.take? _).seq fun name => ?_
        split
        · exact Follows.node fun _ => rfl
        · exact Follows.failHere _ _

theorem callsFrom_follows (inside : Follows offset (renumber offset) nested nested) (bound : Nat)
    (callee : Expression) :
    Follows offset (renumber offset) (callsFrom nested bound callee)
      (callsFrom nested bound (renumber offset callee)) := by
  induction bound generalizing callee with
  | zero => exact Follows.pure _ callee
  | succ bound inductionHypothesis =>
      refine (Follows.skip? _).seq fun _ => Follows.ite ?_ ?_
      · refine (Follows.listUpTo _ inside _).bind fun ⟨values, paren⟩ => ?_
        refine (Follows.node fun id => ?_).bind inductionHypothesis
        simp only [Expression.relabel, Expression.relabelAll_eq_map]
        rfl
      · refine (Follows.skip? _).seq fun _ => Follows.ite ?_ (Follows.pure _ callee)
        exact (Follows.requireName _).seq fun _ =>
          (Follows.node fun _ => rfl).bind inductionHypothesis

theorem call_follows (inside : Follows offset (renumber offset) nested nested) :
    Follows offset (renumber offset) (call nested) (call nested) :=
  Follows.get.bind fun _ => (primary_follows inside).bind fun callee =>
    callsFrom_follows inside _ callee

theorem unary_follows (inside : Follows offset (renumber offset) nested nested) :
    Follows offset (renumber offset) (unary nested) (unary nested) := by
  refine (Follows.takeAll _).seq fun operators => (call_follows inside).bind fun operand => ?_
  induction operators with
  | nil => exact Follows.pure _ operand
  | cons operator operators inductionHypothesis =>
      rw [List.foldrM_cons, List.foldrM_cons]
      exact inductionHypothesis.bind fun _ => Follows.node fun _ => rfl

section LeftAssociative

variable {operand : Parser Expression}
  {make : Nat → Expression → Token → Expression → Expression}
  (inside : Follows offset (renumber offset) operand operand)
  (made : ∀ id left operator right, make (offset + id) (renumber offset left) operator
    (renumber offset right) = renumber offset (make id left operator right))

include inside made

theorem leftAssociativeFrom_follows (isOperator : Token → Bool) (bound : Nat)
    (first : Expression) :
    Follows offset (renumber offset) (leftAssociativeFrom isOperator make operand bound first)
      (leftAssociativeFrom isOperator make operand bound (renumber offset first)) := by
  induction bound generalizing first with
  | zero => exact Follows.pure _ first
  | succ bound inductionHypothesis =>
      refine (Follows.take? _).seq fun operator => ?_
      cases operator with
      | none => exact Follows.pure _ first
      | some operator =>
          exact inside.bind fun right =>
            (Follows.node fun id => made id first operator right).bind inductionHypothesis

theorem leftAssociative_follows (isOperator : Token → Bool) :
    Follows offset (renumber offset) (leftAssociative isOperator make operand)
      (leftAssociative isOperator make operand) :=
  inside.bind fun first => Follows.get.bind fun _ =>
    leftAssociativeFrom_follows inside made isOperator _ first

end LeftAssociative

theorem disjunction_follows (inside : Follows offset (renumber offset) nested nested) :
    Follows offset (renumber offset) (disjunction nested) (disjunction nested) := by
  have binary : ∀ id left operator right, Expression.binary (offset + id) (renumber offset left)
      operator (renumber offset right) =
        renumber offset (.binary id left operator right) := fun _ _ _ _ => rfl
  have logical : ∀ id left operator right, Expression.logical (offset + id)
      (renumber offset left) operator (renumber offset right) =
        renumber offset (.logical id left operator right) := fun _ _ _ _ => rfl
  have factors := leftAssociative_follows (unary_follows inside) binary (isOneOf [.star, .slash])
  have terms := leftAssociative_follows factors binary (isOneOf [.minus, .plus])
  have comparisons := leftAssociative_follows terms binary
    (isOneOf [.greater, .greaterEqual, .less, .lessEqual])
  have equalities := leftAssociative_follows comparisons binary
    (isOneOf [.bangEqual, .equalEqual])
  have conjunctions := leftAssociative_follows equalities logical (Token.isKeyword .and)
  exact leftAssociative_follows conjunctions logical (Token.isKeyword .or)

theorem assignment_follows (inside : Follows offset (renumber offset) nested nested) :
    Follows offset (renumber offset) (assignment nested) (assignment nested) := by
  refine (disjunction_follows inside).bind fun target => (Follows.take? _).seq fun equals => ?_
  cases equals with
  | none => exact Follows.pure _ target
  | some equals =>
      refine inside.bind fun value => ?_
      cases target with
      | «variable» | get => exact Follows.node fun _ => rfl
      | _ => exact (Follows.report _ _).seq fun _ => Follows.pure (renumber offset) _

theorem expressionWithin_follows (depth : Nat) :
    Follows offset (renumber offset) (expressionWithin depth) (expressionWithin depth) := by
  induction depth with
  | zero => exact Follows.failHere _ _
  | succ depth inductionHypothesis => exact assignment_follows inductionHypothesis

theorem expression_follows : Follows offset (renumber offset) expression expression :=
  Follows.get.bind fun _ => expressionWithin_follows _

end Expressions

/-! ### Statements -/

/-- A statement with greater numbers. -/
abbrev renumberStatement (offset : Nat) : Statement → Statement :=
  Statement.relabel (.renumbered offset)

/-- A function with greater numbers. -/
abbrev renumberFunction (offset : Nat) : FunctionDeclaration → FunctionDeclaration :=
  Statement.relabelFunction (.renumbered offset)

theorem optionalExpression_follows (absent : Symbol) :
    Follows offset (Option.map (renumber offset)) (optionalExpression absent)
      (optionalExpression absent) :=
  (Follows.at? _).seq fun _ => Follows.ite (Follows.pure _ none)
    (expression_follows.bind fun value => Follows.pure (Option.map (renumber offset)) (some value))

theorem varDeclaration_follows :
    Follows offset (renumberStatement offset) varDeclaration varDeclaration := by
  have rest : ∀ name initializer, Follows offset (renumberStatement offset)
      (do
        let _ ← Parser.require .varEnd
        return .var name initializer)
      (do
        let _ ← Parser.require .varEnd
        return .var name (initializer.map (renumber offset))) := fun name initializer =>
    (Follows.require _).seq fun _ =>
      Follows.pure (renumberStatement offset) (.var name initializer)
  refine (Follows.requireName _).seq fun name => (Follows.skip? _).seq fun _ => ?_
  refine Follows.ite ?_ ?_
  · exact (expression_follows.map (Option.map (renumber offset)) fun _ => rfl).bind (rest name)
  · exact (Follows.pure (Option.map (renumber offset)) none).bind (rest name)

theorem expressionStatement_follows :
    Follows offset (renumberStatement offset) expressionStatement expressionStatement :=
  expression_follows.bind fun value => (Follows.require _).seq fun _ =>
    Follows.pure (renumberStatement offset) (.expression value)

theorem printStatement_follows :
    Follows offset (renumberStatement offset) printStatement printStatement :=
  expression_follows.bind fun value => (Follows.require _).seq fun _ =>
    Follows.pure (renumberStatement offset) (.print value)

theorem returnStatement_follows (keyword : Token) :
    Follows offset (renumberStatement offset) (returnStatement keyword)
      (returnStatement keyword) :=
  (optionalExpression_follows _).bind fun value => (Follows.require _).seq fun _ =>
    Follows.pure (renumberStatement offset) (.return keyword value)

section Statements

variable {declaration : Parser (Option Statement)} {nested : Parser Statement}

section Declarations

variable (inside : Follows offset (Option.map (renumberStatement offset)) declaration declaration)

include inside

theorem declarationsUntil_follows (stop : Token → Bool) (bound : Nat) :
    Follows offset (List.map (renumberStatement offset))
      (declarationsUntil stop declaration bound) (declarationsUntil stop declaration bound) := by
  induction bound with
  | zero => exact Follows.pure _ []
  | succ bound inductionHypothesis =>
      refine Follows.atEnd.seq fun _ => (Follows.at? _).seq fun _ => ?_
      refine Follows.ite (Follows.pure _ []) ?_
      refine inside.bind fun found => inductionHypothesis.bind fun following => ?_
      cases found with
      | none => exact Follows.pure _ following
      | some found => exact Follows.pure (List.map (renumberStatement offset)) (found :: following)

theorem block_follows :
    Follows offset (List.map (renumberStatement offset)) (block declaration)
      (block declaration) :=
  Follows.get.bind fun _ => (declarationsUntil_follows inside _ _).bind fun statements =>
    (Follows.require _).seq fun _ => Follows.pure (List.map (renumberStatement offset)) statements

theorem function_follows (role : FunctionRole) :
    Follows offset (renumberFunction offset) (function declaration role)
      (function declaration role) := by
  refine (Follows.requireName _).seq fun name => (Follows.require _).seq fun _ => ?_
  refine ((Follows.requireName _).listUpTo _ _).bind fun ⟨parameters, _⟩ => ?_
  refine (Follows.require _).seq fun _ => (block_follows inside).bind fun body => ?_
  have same : renumberFunction offset ⟨name, parameters, body⟩ =
      ⟨name, parameters.map id, body.map (renumberStatement offset)⟩ :=
    congrArg (FunctionOf.mk name _) (Statement.relabelAll_eq_map _ body)
  exact same ▸ Follows.pure (renumberFunction offset) ⟨name, parameters, body⟩

theorem methodsFrom_follows (bound : Nat) :
    Follows offset (List.map (renumberFunction offset)) (methodsFrom declaration bound)
      (methodsFrom declaration bound) := by
  induction bound with
  | zero => exact Follows.pure _ []
  | succ bound inductionHypothesis =>
      refine Follows.atEnd.seq fun _ => (Follows.at? _).seq fun _ => ?_
      refine Follows.ite (Follows.pure _ []) ?_
      exact (function_follows inside _).bind fun method => inductionHypothesis.bind fun methods =>
        Follows.pure (List.map (renumberFunction offset)) (method :: methods)

theorem classDeclaration_follows :
    Follows offset (renumberStatement offset) (classDeclaration declaration)
      (classDeclaration declaration) := by
  refine (Follows.requireName _).seq fun name => (Follows.require _).seq fun _ => ?_
  refine Follows.get.bind fun _ => (methodsFrom_follows inside _).bind fun methods => ?_
  have same : renumberStatement offset (.class name methods) =
      .class name (methods.map (renumberFunction offset)) :=
    congrArg (Statement.class name) (Statement.relabelFunctions_eq_map _ methods)
  exact (Follows.require _).seq fun _ =>
    same ▸ Follows.pure (renumberStatement offset) (.class name methods)

end Declarations

theorem declared_follows
    (insideDeclaration : Follows offset (Option.map (renumberStatement offset)) declaration
      declaration)
    (inside : Follows offset (renumberStatement offset) nested nested) :
    Follows offset (renumberStatement offset) (declared declaration nested)
      (declared declaration nested) := by
  refine (Follows.skipKeyword? _).seq fun _ => Follows.ite ?_ ?_
  · exact classDeclaration_follows insideDeclaration
  · refine (Follows.skipKeyword? _).seq fun _ => Follows.ite ?_ ?_
    · exact (function_follows insideDeclaration _).bind fun function =>
        Follows.pure (renumberStatement offset) (.function function)
    · exact (Follows.skipKeyword? _).seq fun _ => Follows.ite varDeclaration_follows inside

section Nested

variable (inside : Follows offset (renumberStatement offset) nested nested)

include inside

theorem ifStatement_follows :
    Follows offset (renumberStatement offset) (ifStatement nested) (ifStatement nested) := by
  refine (Follows.require _).seq fun _ => expression_follows.bind fun condition => ?_
  refine (Follows.require _).seq fun _ => inside.bind fun thenBranch => ?_
  have whole : ∀ elseBranch, Follows offset (renumberStatement offset)
      (Pure.pure (.conditional condition thenBranch elseBranch))
      (Pure.pure (.conditional (renumber offset condition) (renumberStatement offset thenBranch)
        (elseBranch.map (renumberStatement offset)))) := by
    rintro (_ | elseBranch) <;> exact Follows.pure (renumberStatement offset) (.conditional _ _ _)
  refine (Follows.skipKeyword? _).seq fun _ => Follows.ite ?_ ?_
  · exact (inside.map (Option.map (renumberStatement offset)) fun _ => rfl).bind whole
  · exact (Follows.pure (Option.map (renumberStatement offset)) none).bind whole

theorem whileStatement_follows :
    Follows offset (renumberStatement offset) (whileStatement nested) (whileStatement nested) := by
  refine (Follows.require _).seq fun _ => expression_follows.bind fun condition => ?_
  exact (Follows.require _).seq fun _ => inside.bind fun body =>
    Follows.pure (renumberStatement offset) (.loop condition body)

end Nested

theorem forInitializer_follows :
    Follows offset (Option.map (renumberStatement offset)) forInitializer forInitializer := by
  refine (Follows.skip? _).seq fun _ => Follows.ite (Follows.pure _ none) ?_
  refine (Follows.skipKeyword? _).seq fun _ => Follows.ite ?_ ?_
  · exact varDeclaration_follows.bind fun declared =>
      Follows.pure (Option.map (renumberStatement offset)) (some declared)
  · exact expressionStatement_follows.bind fun statement =>
      Follows.pure (Option.map (renumberStatement offset)) (some statement)

theorem forLoop_relabel (labels : Relabelling) (initializer : Option Statement)
    (condition : Expression) (increment : Option Expression) (body : Statement) :
    (forLoop initializer condition increment body).relabel labels =
      forLoop (initializer.map (Statement.relabel labels)) (condition.relabel labels)
        (increment.map (Expression.relabel labels)) (body.relabel labels) := by
  cases initializer <;> cases increment <;> rfl

theorem forStatement_follows (inside : Follows offset (renumberStatement offset) nested nested) :
    Follows offset (renumberStatement offset) (forStatement nested) (forStatement nested) := by
  refine (Follows.require _).seq fun _ => forInitializer_follows.bind fun initializer => ?_
  refine (optionalExpression_follows _).bind fun condition => (Follows.require _).seq fun _ => ?_
  refine (optionalExpression_follows _).bind fun increment => (Follows.require _).seq fun _ => ?_
  refine inside.bind fun body => ?_
  have whole : ∀ condition, Follows offset (renumberStatement offset)
      (Pure.pure (forLoop initializer condition increment body))
      (Pure.pure (forLoop (initializer.map (renumberStatement offset)) (renumber offset condition)
        (increment.map (renumber offset)) (renumberStatement offset body))) := fun condition =>
    forLoop_relabel (.renumbered offset) initializer condition increment body ▸
      Follows.pure (renumberStatement offset) (forLoop initializer condition increment body)
  cases condition with
  | none => exact (Follows.node fun _ => rfl).bind whole
  | some condition => exact whole condition

theorem statementOf_follows
    (insideDeclaration : Follows offset (Option.map (renumberStatement offset)) declaration
      declaration)
    (inside : Follows offset (renumberStatement offset) nested nested) :
    Follows offset (renumberStatement offset) (statementOf declaration nested)
      (statementOf declaration nested) := by
  refine (Follows.skipKeyword? _).seq fun _ => Follows.ite (forStatement_follows inside) ?_
  refine (Follows.skipKeyword? _).seq fun _ => Follows.ite (ifStatement_follows inside) ?_
  refine (Follows.skipKeyword? _).seq fun _ => Follows.ite (whileStatement_follows inside) ?_
  refine (Follows.take? _).seq fun keyword => ?_
  cases keyword with
  | some keyword => exact returnStatement_follows keyword
  | none =>
      refine (Follows.skip? _).seq fun _ => Follows.ite ?_ ?_
      · refine (block_follows insideDeclaration).bind fun statements => ?_
        have same : renumberStatement offset (.block statements) =
            .block (statements.map (renumberStatement offset)) :=
          congrArg Statement.block (Statement.relabelAll_eq_map _ statements)
        exact same ▸ Follows.pure (renumberStatement offset) (.block statements)
      · refine (Follows.skipKeyword? _).seq fun _ => Follows.ite ?_ ?_
        · exact printStatement_follows
        · exact expressionStatement_follows

end Statements

/-- By induction on how deep statements nest. -/
theorem within_follows (depth : Nat) :
    Follows offset (Option.map (renumberStatement offset)) (declarationWithin depth)
        (declarationWithin depth) ∧
      Follows offset (renumberStatement offset) (statementWithin depth)
        (statementWithin depth) := by
  induction depth with
  | zero => exact ⟨(Follows.failHere (renumberStatement offset) _).recover, Follows.failHere _ _⟩
  | succ depth inductionHypothesis =>
      obtain ⟨declarations, statements⟩ := inductionHypothesis
      have statement := statementOf_follows declarations statements
      exact ⟨(declared_follows declarations statement).recover, statement⟩

theorem program_follows :
    Follows offset (Statement.relabelAll (.renumbered offset)) program program := by
  have same : Statement.relabelAll (.renumbered offset) =
      List.map (renumberStatement offset) :=
    funext fun statements => Statement.relabelAll_eq_map _ statements
  rw [same]
  exact Follows.get.bind fun _ => declarationsUntil_follows (within_follows _).1 _ _

/-- The numbers of a unit may start elsewhere. Its errors are the same, and its tree has the
same nodes with greater numbers. -/
theorem parseProgram_ahead (tokens : List Token) (firstId : Nat) :
    parseProgram tokens (offset + firstId) =
      ⟨(parseProgram tokens firstId).result.map (Statement.relabelAll (.renumbered offset)),
        offset + (parseProgram tokens firstId).nextId⟩ := by
  have follows := @program_follows offset (Cursor.start tokens firstId)
  unfold parseProgram Parser.run
  have start : Cursor.start tokens (offset + firstId) =
      (Cursor.start tokens firstId).ahead offset := rfl
  rw [start, follows]
  cases program (Cursor.start tokens firstId) with
  | ok value final =>
      show Parsed.mk (if final.errors.isEmpty then _ else _) _ = _
      dsimp only
      split <;> rfl
  | error error final => rfl

end Lox.Grammar
