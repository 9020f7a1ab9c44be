import Lox.Proofs.Relabel.Trees

/-!
Contract: code with other node numbers and the same tokens.

Owns:
- `Relabelling.renumbered`, which moves all numbers up, and `Relabelling.gap`, which moves
  those up that are not below a bound;
- that code depends on its own numbers only, so that both come to the same for code whose
  numbers are all on one side of the bound.
-/

namespace Lox

/-- The same tokens with other numbers. -/
def Relabelling.renumbered (firstId : Nat) : Relabelling where
  token := id
  number id := firstId + id
  among _ := True
  numbered _ := True
  kind _ := rfl
  lexeme _ := rfl

/-- Numbers from a bound on are moved up, which leaves some numbers at the bound unused. -/
def Relabelling.gap (bound width : Nat) : Relabelling where
  token := id
  number id := if id < bound then id else width + id
  among _ := True
  numbered _ := True
  kind _ := rfl
  lexeme _ := rfl

/-- No two numbers become the same, and their order stays. -/
theorem Relabelling.gap_number_lt (bound width : Nat) {less more : Nat} (ordered : less < more) :
    (gap bound width).number less < (gap bound width).number more := by
  simp only [gap]
  split <;> split <;> omega

section Congruence

variable {labels others : Relabelling}

mutual

theorem Expression.relabel_congr (tokens : labels.token = others.token) :
    (expression : Expression) →
    (∀ id ∈ expression.numbers, labels.number id = others.number id) →
    expression.relabel labels = expression.relabel others
  | .literal _ _, numbers | .variable _ _, numbers | .this _ _, numbers => by
      simp [tokens, numbers _ (List.mem_singleton_self _)]
  | .grouping _ inner, numbers | .unary _ _ inner, numbers | .assign _ _ inner, numbers
  | .get _ inner _, numbers => by
      simp only [Expression.numbers, List.forall_mem_append, List.forall_mem_singleton] at numbers
      simp [tokens, numbers.2, Expression.relabel_congr tokens inner numbers.1]
  | .binary _ left _ right, numbers | .logical _ left _ right, numbers
  | .set _ left _ right, numbers => by
      simp only [Expression.numbers, List.forall_mem_append, List.forall_mem_singleton] at numbers
      simp [tokens, numbers.2, Expression.relabel_congr tokens left numbers.1.1,
        Expression.relabel_congr tokens right numbers.1.2]
  | .call _ callee _ arguments, numbers => by
      simp only [Expression.numbers, List.forall_mem_append, List.forall_mem_singleton] at numbers
      simp [tokens, numbers.2, Expression.relabel_congr tokens callee numbers.1.1,
        Expression.relabelAll_congr tokens arguments numbers.1.2]

theorem Expression.relabelAll_congr (tokens : labels.token = others.token) :
    (expressions : List Expression) →
    (∀ id ∈ Expression.numbersOfAll expressions, labels.number id = others.number id) →
    Expression.relabelAll labels expressions = Expression.relabelAll others expressions
  | [], _ => rfl
  | expression :: rest, numbers => by
      simp only [Expression.numbersOfAll, List.forall_mem_append] at numbers
      simp [Expression.relabel_congr tokens expression numbers.1,
        Expression.relabelAll_congr tokens rest numbers.2]

end

theorem Expression.optionRelabel_congr (tokens : labels.token = others.token)
    (expression : Option Expression)
    (numbers : ∀ id ∈ Expression.numbersOfOptional expression,
      labels.number id = others.number id) :
    expression.map (Expression.relabel labels) = expression.map (Expression.relabel others) := by
  cases expression with
  | none => rfl
  | some expression => exact congrArg some (Expression.relabel_congr tokens expression numbers)

mutual

theorem Statement.relabel_congr (tokens : labels.token = others.token) :
    (statement : Statement) →
    (∀ id ∈ statement.numbers, labels.number id = others.number id) →
    statement.relabel labels = statement.relabel others
  | .expression value, numbers | .print value, numbers => by
      simp only [Statement.relabel, Expression.relabel_congr tokens value numbers]
  | .var _ value, numbers | .return _ value, numbers => by
      simp only [Statement.relabel, tokens, Expression.optionRelabel_congr tokens value numbers]
  | .block statements, numbers => by
      simp only [Statement.relabel, Statement.relabelAll_congr tokens statements numbers]
  | .conditional condition thenBranch none, numbers => by
      simp only [Statement.numbers, List.forall_mem_append] at numbers
      simp only [Statement.relabel, Expression.relabel_congr tokens condition numbers.1,
        Statement.relabel_congr tokens thenBranch numbers.2]
  | .conditional condition thenBranch (some elseBranch), numbers => by
      simp only [Statement.numbers, List.forall_mem_append] at numbers
      simp only [Statement.relabel, Expression.relabel_congr tokens condition numbers.1.1,
        Statement.relabel_congr tokens thenBranch numbers.1.2,
        Statement.relabel_congr tokens elseBranch numbers.2]
  | .loop condition body, numbers => by
      simp only [Statement.numbers, List.forall_mem_append] at numbers
      simp only [Statement.relabel, Expression.relabel_congr tokens condition numbers.1,
        Statement.relabel_congr tokens body numbers.2]
  | .function declaration, numbers => by
      simp only [Statement.relabel, Statement.relabelFunction_congr tokens declaration numbers]
  | .class _ methods, numbers => by
      simp only [Statement.relabel, tokens, Statement.relabelFunctions_congr tokens methods numbers]

/-- Code is relabelled alike if its numbers are. -/
theorem Statement.relabelAll_congr (tokens : labels.token = others.token) :
    (statements : List Statement) →
    (∀ id ∈ Statement.numbersOfAll statements, labels.number id = others.number id) →
    Statement.relabelAll labels statements = Statement.relabelAll others statements
  | [], _ => rfl
  | statement :: rest, numbers => by
      simp only [Statement.numbersOfAll, List.forall_mem_append] at numbers
      simp only [Statement.relabelAll, Statement.relabel_congr tokens statement numbers.1,
        Statement.relabelAll_congr tokens rest numbers.2]

theorem Statement.relabelFunction_congr (tokens : labels.token = others.token) :
    (declaration : FunctionOf Statement) →
    (∀ id ∈ Statement.numbersOfFunction declaration, labels.number id = others.number id) →
    Statement.relabelFunction labels declaration = Statement.relabelFunction others declaration
  | ⟨_, _, body⟩, numbers => by
      simp only [Statement.relabelFunction, tokens, Statement.relabelAll_congr tokens body numbers]

theorem Statement.relabelFunctions_congr (tokens : labels.token = others.token) :
    (declarations : List (FunctionOf Statement)) →
    (∀ id ∈ Statement.numbersOfFunctions declarations, labels.number id = others.number id) →
    Statement.relabelFunctions labels declarations =
      Statement.relabelFunctions others declarations
  | [], _ => rfl
  | declaration :: rest, numbers => by
      simp only [Statement.numbersOfFunctions, List.forall_mem_append] at numbers
      simp only [Statement.relabelFunctions,
        Statement.relabelFunction_congr tokens declaration numbers.1,
        Statement.relabelFunctions_congr tokens rest numbers.2]

end

end Congruence

end Lox
