import Lox.Proofs.Grammar.Genuine
import Lox.Proofs.Grammar.Numbering

/-!
Contract: code with other tokens and other node numbers.

Owns:
- `Relabelling`, which replaces the tokens and the numbers of some code, and says which ones
  occur there;
- `Statement.relabel` and its companions, the code that comes out;
- `Statement.Within` and its companions: no other tokens and numbers occur.

Does not own: what happens when the code is checked or runs.
-/

namespace Lox

/-- How the tokens and the node numbers of some code are replaced. Tokens keep their kind and
their text. -/
structure Relabelling where
  token : Token → Token
  number : Nat → Nat
  /-- The tokens that may occur in the code. -/
  among : Token → Prop
  /-- The numbers that nodes with a name may have. -/
  numbered : Nat → Prop
  kind : ∀ original, (token original).kind = original.kind
  lexeme : ∀ original, (token original).lexeme = original.lexeme

variable (labels : Relabelling)

mutual

/-- An expression with other tokens and numbers. -/
@[simp] def Expression.relabel : Expression → Expression
  | .literal id value => .literal (labels.number id) value
  | .grouping id inner => .grouping (labels.number id) inner.relabel
  | .unary id operator operand =>
      .unary (labels.number id) (labels.token operator) operand.relabel
  | .binary id left operator right =>
      .binary (labels.number id) left.relabel (labels.token operator) right.relabel
  | .logical id left operator right =>
      .logical (labels.number id) left.relabel (labels.token operator) right.relabel
  | .variable id name => .variable (labels.number id) (labels.token name)
  | .this id keyword => .this (labels.number id) (labels.token keyword)
  | .assign id name value => .assign (labels.number id) (labels.token name) value.relabel
  | .call id callee paren arguments =>
      .call (labels.number id) callee.relabel (labels.token paren)
        (Expression.relabelAll arguments)
  | .get id object name => .get (labels.number id) object.relabel (labels.token name)
  | .set id object name value =>
      .set (labels.number id) object.relabel (labels.token name) value.relabel

/-- The same for several expressions. -/
@[simp] def Expression.relabelAll : List Expression → List Expression
  | [] => []
  | expression :: rest => expression.relabel :: Expression.relabelAll rest

end

mutual

/-- A statement with other tokens and numbers. -/
@[simp] def Statement.relabel : Statement → Statement
  | .expression value => .expression (value.relabel labels)
  | .print value => .print (value.relabel labels)
  | .var name initializer =>
      .var (labels.token name) (initializer.map (Expression.relabel labels))
  | .block statements => .block (Statement.relabelAll statements)
  | .conditional condition thenBranch none =>
      .conditional (condition.relabel labels) thenBranch.relabel none
  | .conditional condition thenBranch (some elseBranch) =>
      .conditional (condition.relabel labels) thenBranch.relabel (some elseBranch.relabel)
  | .loop condition body => .loop (condition.relabel labels) body.relabel
  | .function declaration => .function (Statement.relabelFunction declaration)
  | .return keyword value =>
      .return (labels.token keyword) (value.map (Expression.relabel labels))
  | .class name methods => .class (labels.token name) (Statement.relabelFunctions methods)

/-- The same for several statements. -/
@[simp] def Statement.relabelAll : List Statement → List Statement
  | [] => []
  | statement :: rest => statement.relabel :: Statement.relabelAll rest

/-- The same for a function. -/
@[simp] def Statement.relabelFunction : FunctionOf Statement → FunctionOf Statement
  | ⟨name, parameters, body⟩ =>
      ⟨labels.token name, parameters.map labels.token, Statement.relabelAll body⟩

/-- The same for several functions. -/
@[simp] def Statement.relabelFunctions : List (FunctionOf Statement) → List (FunctionOf Statement)
  | [] => []
  | declaration :: rest =>
      Statement.relabelFunction declaration :: Statement.relabelFunctions rest

end

section Function

variable (declaration : FunctionOf Statement)

theorem Statement.relabelFunction_name :
    (Statement.relabelFunction labels declaration).name = labels.token declaration.name := by
  cases declaration
  rfl

theorem Statement.relabelFunction_parameters :
    (Statement.relabelFunction labels declaration).parameters =
      declaration.parameters.map labels.token := by
  cases declaration
  rfl

theorem Statement.relabelFunction_body :
    (Statement.relabelFunction labels declaration).body =
      Statement.relabelAll labels declaration.body := by
  cases declaration
  rfl

end Function

/-! ### Lists of code -/

theorem Expression.relabelAll_eq_map (expressions : List Expression) :
    Expression.relabelAll labels expressions = expressions.map (Expression.relabel labels) := by
  induction expressions with
  | nil => rfl
  | cons expression rest inductionHypothesis => simp [relabelAll, inductionHypothesis]

@[simp] theorem Expression.length_relabelAll (expressions : List Expression) :
    (Expression.relabelAll labels expressions).length = expressions.length := by
  rw [relabelAll_eq_map, List.length_map]

theorem Statement.relabelAll_eq_map (statements : List Statement) :
    Statement.relabelAll labels statements = statements.map (Statement.relabel labels) := by
  induction statements with
  | nil => rfl
  | cons statement rest inductionHypothesis => simp [relabelAll, inductionHypothesis]

theorem Statement.relabelFunctions_eq_map (declarations : List (FunctionOf Statement)) :
    Statement.relabelFunctions labels declarations =
      declarations.map (Statement.relabelFunction labels) := by
  induction declarations with
  | nil => rfl
  | cons declaration rest inductionHypothesis => simp [relabelFunctions, inductionHypothesis]

/-! ### What occurs in code -/

/-- An occurrence of a name may be replaced. -/
def Relabelling.Covers (id : Nat) (name : Token) : Prop :=
  labels.numbered id ∧ labels.among name

mutual

/-- No other tokens occur in an expression, and nodes with a name have no other numbers. -/
def Expression.Within : Expression → Prop
  | .literal _ _ => True
  | .grouping _ inner => inner.Within
  | .unary _ operator operand => labels.among operator ∧ operand.Within
  | .binary _ left operator right | .logical _ left operator right =>
      labels.among operator ∧ left.Within ∧ right.Within
  | .variable id name | .this id name => labels.Covers id name
  | .assign id name value => labels.Covers id name ∧ value.Within
  | .call _ callee paren arguments =>
      labels.among paren ∧ callee.Within ∧ Expression.AllWithin arguments
  | .get _ object name => labels.among name ∧ object.Within
  | .set _ object name value => labels.among name ∧ object.Within ∧ value.Within

/-- The same for several expressions. -/
def Expression.AllWithin : List Expression → Prop
  | [] => True
  | expression :: rest => expression.Within ∧ Expression.AllWithin rest

end

/-- The same for an expression that may be absent. -/
def Expression.OptionWithin : Option Expression → Prop
  | none => True
  | some expression => expression.Within labels

mutual

/-- No other tokens and numbers occur in a statement. -/
def Statement.Within : Statement → Prop
  | .expression value | .print value => value.Within labels
  | .var name initializer => labels.among name ∧ Expression.OptionWithin labels initializer
  | .block statements => Statement.AllWithin statements
  | .conditional condition thenBranch none => condition.Within labels ∧ thenBranch.Within
  | .conditional condition thenBranch (some elseBranch) =>
      condition.Within labels ∧ thenBranch.Within ∧ elseBranch.Within
  | .loop condition body => condition.Within labels ∧ body.Within
  | .function declaration => Statement.FunctionWithin declaration
  | .return keyword value => labels.among keyword ∧ Expression.OptionWithin labels value
  | .class name methods => labels.among name ∧ Statement.FunctionsWithin methods

/-- The same for several statements. -/
def Statement.AllWithin : List Statement → Prop
  | [] => True
  | statement :: rest => statement.Within ∧ Statement.AllWithin rest

/-- The same for a function. -/
def Statement.FunctionWithin : FunctionOf Statement → Prop
  | ⟨name, parameters, body⟩ =>
      labels.among name ∧ (∀ parameter ∈ parameters, labels.among parameter) ∧
        Statement.AllWithin body

/-- The same for several functions. -/
def Statement.FunctionsWithin : List (FunctionOf Statement) → Prop
  | [] => True
  | declaration :: rest =>
      Statement.FunctionWithin declaration ∧ Statement.FunctionsWithin rest

end

theorem Statement.functionWithin_iff {declaration : FunctionOf Statement} :
    Statement.FunctionWithin labels declaration ↔
      labels.among declaration.name ∧
        (∀ parameter ∈ declaration.parameters, labels.among parameter) ∧
        Statement.AllWithin labels declaration.body := by
  cases declaration
  exact Iff.rfl

variable {labels}

mutual

/-- The tokens in an expression are in their places, and so are the numbers. -/
theorem Expression.Genuine.within : {expression : Expression} →
    expression.Genuine labels.among → (∀ id ∈ expression.numbers, labels.numbered id) →
    expression.Within labels
  | .literal _ _, _, _ => trivial
  | .grouping _ inner, genuine, numbered => by
      simp only [Expression.numbers, List.forall_mem_append] at numbered
      show inner.Within labels
      exact Expression.Genuine.within genuine numbered.1
  | .unary _ _ _, genuine, numbered => by
      simp only [Expression.numbers, List.forall_mem_append] at numbered
      exact ⟨genuine.1.2, Expression.Genuine.within genuine.2 numbered.1⟩
  | .binary _ _ _ _, genuine, numbered | .logical _ _ _ _, genuine, numbered => by
      simp only [Expression.numbers, List.forall_mem_append] at numbered
      exact ⟨genuine.1.2, Expression.Genuine.within genuine.2.1 numbered.1.1,
        Expression.Genuine.within genuine.2.2 numbered.1.2⟩
  | .variable _ _, genuine, numbered => ⟨numbered _ (List.mem_singleton_self _), genuine.2⟩
  | .this _ _, genuine, numbered => ⟨numbered _ (List.mem_singleton_self _), genuine.2⟩
  | .assign _ _ _, genuine, numbered => by
      simp only [Expression.numbers, List.forall_mem_append] at numbered
      exact ⟨⟨numbered.2 _ (List.mem_singleton_self _), genuine.1.2⟩,
        Expression.Genuine.within genuine.2 numbered.1⟩
  | .call _ _ _ _, genuine, numbered => by
      simp only [Expression.numbers, List.forall_mem_append] at numbered
      exact ⟨genuine.1.2, Expression.Genuine.within genuine.2.1 numbered.1.1,
        Expression.AllGenuine.within genuine.2.2 numbered.1.2⟩
  | .get _ _ _, genuine, numbered => by
      simp only [Expression.numbers, List.forall_mem_append] at numbered
      exact ⟨genuine.1.2, Expression.Genuine.within genuine.2 numbered.1⟩
  | .set _ _ _ _, genuine, numbered => by
      simp only [Expression.numbers, List.forall_mem_append] at numbered
      exact ⟨genuine.1.2, Expression.Genuine.within genuine.2.1 numbered.1.1,
        Expression.Genuine.within genuine.2.2 numbered.1.2⟩

theorem Expression.AllGenuine.within : {expressions : List Expression} →
    Expression.AllGenuine labels.among expressions →
    (∀ id ∈ Expression.numbersOfAll expressions, labels.numbered id) →
    Expression.AllWithin labels expressions
  | [], _, _ => trivial
  | _ :: _, genuine, numbered => by
      simp only [Expression.numbersOfAll, List.forall_mem_append] at numbered
      exact ⟨Expression.Genuine.within genuine.1 numbered.1,
        Expression.AllGenuine.within genuine.2 numbered.2⟩

end

theorem Expression.OptionGenuine.within {expression : Option Expression}
    (genuine : Expression.OptionGenuine labels.among expression)
    (numbered : ∀ id ∈ Expression.numbersOfOptional expression, labels.numbered id) :
    Expression.OptionWithin labels expression := by
  cases expression with
  | none => trivial
  | some expression => exact Expression.Genuine.within genuine numbered

mutual

/-- The tokens in a statement are in their places, and so are the numbers. -/
theorem Statement.Genuine.within : {statement : Statement} →
    statement.Genuine labels.among → (∀ id ∈ statement.numbers, labels.numbered id) →
    statement.Within labels
  | .expression _, genuine, numbered | .print _, genuine, numbered =>
      Expression.Genuine.within genuine numbered
  | .var _ _, genuine, numbered =>
      ⟨genuine.1.2, Expression.OptionGenuine.within genuine.2 numbered⟩
  | .block _, genuine, numbered => Statement.AllGenuine.within genuine numbered
  | .conditional _ _ none, genuine, numbered => by
      simp only [Statement.numbers, List.forall_mem_append] at numbered
      exact ⟨Expression.Genuine.within genuine.1 numbered.1,
        Statement.Genuine.within genuine.2 numbered.2⟩
  | .conditional _ _ (some _), genuine, numbered => by
      simp only [Statement.numbers, List.forall_mem_append] at numbered
      exact ⟨Expression.Genuine.within genuine.1 numbered.1.1,
        Statement.Genuine.within genuine.2.1 numbered.1.2,
        Statement.Genuine.within genuine.2.2 numbered.2⟩
  | .loop _ _, genuine, numbered => by
      simp only [Statement.numbers, List.forall_mem_append] at numbered
      exact ⟨Expression.Genuine.within genuine.1 numbered.1,
        Statement.Genuine.within genuine.2 numbered.2⟩
  | .function _, genuine, numbered => Statement.FunctionGenuine.within genuine numbered
  | .return _ _, genuine, numbered =>
      ⟨genuine.1.2, Expression.OptionGenuine.within genuine.2 numbered⟩
  | .class _ _, genuine, numbered =>
      ⟨genuine.1.2, Statement.FunctionsGenuine.within genuine.2 numbered⟩

theorem Statement.AllGenuine.within : {statements : List Statement} →
    Statement.AllGenuine labels.among statements →
    (∀ id ∈ Statement.numbersOfAll statements, labels.numbered id) →
    Statement.AllWithin labels statements
  | [], _, _ => trivial
  | _ :: _, genuine, numbered => by
      simp only [Statement.numbersOfAll, List.forall_mem_append] at numbered
      exact ⟨Statement.Genuine.within genuine.1 numbered.1,
        Statement.AllGenuine.within genuine.2 numbered.2⟩

theorem Statement.FunctionGenuine.within : {declaration : FunctionOf Statement} →
    Statement.FunctionGenuine labels.among declaration →
    (∀ id ∈ Statement.numbersOfFunction declaration, labels.numbered id) →
    Statement.FunctionWithin labels declaration
  | ⟨_, _, _⟩, genuine, numbered =>
      ⟨genuine.1.2, fun parameter member => (genuine.2.1 parameter member).2,
        Statement.AllGenuine.within genuine.2.2 numbered⟩

theorem Statement.FunctionsGenuine.within : {declarations : List (FunctionOf Statement)} →
    Statement.FunctionsGenuine labels.among declarations →
    (∀ id ∈ Statement.numbersOfFunctions declarations, labels.numbered id) →
    Statement.FunctionsWithin labels declarations
  | [], _, _ => trivial
  | _ :: _, genuine, numbered => by
      simp only [Statement.numbersOfFunctions, List.forall_mem_append] at numbered
      exact ⟨Statement.FunctionGenuine.within genuine.1 numbered.1,
        Statement.FunctionsGenuine.within genuine.2 numbered.2⟩

end

end Lox
