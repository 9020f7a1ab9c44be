import Lox.Number.Binary64
import Lox.Proofs.Relabel.Trees
import Lox.Proofs.Source.Layout

/-!
Contract: expressions that differ in where they stand and in parentheses only.

Owns:
- `Expression.Same`: equal but for the numbers of nodes and the lines of tokens;
- `Expression.wrapped`, in which operators and assignments are in parentheses and `inf`
  stands for each infinite number;
- `Expression.ungrouped`, without any parentheses, and when the two come to the same;
- `Relabelling.uniform`, which gives all nodes one number.

Does not own: written forms.
-/

namespace Lox

/-- All nodes have one number, and all tokens stand on one line. -/
def Relabelling.unplaced : Relabelling where
  token := Token.unplaced
  number _ := 0
  among _ := True
  numbered _ := True
  kind _ := rfl
  lexeme _ := rfl

@[simp] theorem Relabelling.unplaced_token (token : Token) :
    Relabelling.unplaced.token token = token.unplaced :=
  rfl

@[simp] theorem Relabelling.unplaced_number (id : Nat) : Relabelling.unplaced.number id = 0 :=
  rfl

/-- Expressions are equal but for the numbers of nodes and the lines of tokens. -/
def Expression.Same (left right : Expression) : Prop :=
  left.relabel .unplaced = right.relabel .unplaced

/-- Whether a constant is a number beyond all finite ones. -/
def Literal.isInfinite : Literal → Bool
  | .number value => Number.magnitudeBits value == Number.infinityBits
  | _ => false

/-- The name that is written for an infinite number. -/
def infinityName : Token :=
  ⟨.identifier, "inf", 0⟩

namespace Expression

mutual

/-- Parentheses are put around operators and assignments, and a name in the place of each
infinite number. -/
def wrapped : Expression → Expression
  | .literal id value =>
      if value.isInfinite then .variable id infinityName else .literal id value
  | .grouping id inner => .grouping id inner.wrapped
  | .unary id operator operand => .grouping id (.unary id operator operand.wrapped)
  | .binary id left operator right =>
      .grouping id (.binary id left.wrapped operator right.wrapped)
  | .logical id left operator right =>
      .grouping id (.logical id left.wrapped operator right.wrapped)
  | .variable id name => .variable id name
  | .this id keyword => .this id keyword
  | .assign id name value => .grouping id (.assign id name value.wrapped)
  | .call id callee paren arguments => .call id callee.wrapped paren (wrappedAll arguments)
  | .get id object name => .get id object.wrapped name
  | .set id object name value => .grouping id (.set id object.wrapped name value.wrapped)

/-- The same for several expressions. -/
def wrappedAll : List Expression → List Expression
  | [] => []
  | expression :: rest => expression.wrapped :: wrappedAll rest

end

@[simp] theorem length_wrappedAll (expressions : List Expression) :
    (wrappedAll expressions).length = expressions.length := by
  induction expressions with
  | nil => rfl
  | cons expression rest inductionHypothesis => simp [wrappedAll, inductionHypothesis]

mutual

/-- All parentheses are left out. -/
def ungrouped : Expression → Expression
  | .grouping _ inner => inner.ungrouped
  | .literal id value => .literal id value
  | .unary id operator operand => .unary id operator operand.ungrouped
  | .binary id left operator right => .binary id left.ungrouped operator right.ungrouped
  | .logical id left operator right => .logical id left.ungrouped operator right.ungrouped
  | .variable id name => .variable id name
  | .this id keyword => .this id keyword
  | .assign id name value => .assign id name value.ungrouped
  | .call id callee paren arguments => .call id callee.ungrouped paren (ungroupedAll arguments)
  | .get id object name => .get id object.ungrouped name
  | .set id object name value => .set id object.ungrouped name value.ungrouped

/-- The same for several expressions. -/
def ungroupedAll : List Expression → List Expression
  | [] => []
  | expression :: rest => expression.ungrouped :: ungroupedAll rest

end

mutual

/-- The constants of an expression. -/
def literals : Expression → List Literal
  | .literal _ value => [value]
  | .variable _ _ | .this _ _ => []
  | .grouping _ inner | .unary _ _ inner | .assign _ _ inner | .get _ inner _ => inner.literals
  | .binary _ left _ right | .logical _ left _ right | .set _ left _ right =>
      left.literals ++ right.literals
  | .call _ callee _ arguments => callee.literals ++ literalsOfAll arguments

/-- The same for several expressions. -/
def literalsOfAll : List Expression → List Literal
  | [] => []
  | expression :: rest => expression.literals ++ literalsOfAll rest

end

/-! ### Constants -/

section Constants

variable (labels : Relabelling)

mutual

theorem literals_relabel : (expression : Expression) →
    (expression.relabel labels).literals = expression.literals
  | .literal _ _ | .variable _ _ | .this _ _ => by simp [literals]
  | .grouping _ inner | .unary _ _ inner | .assign _ _ inner | .get _ inner _ => by
      simp [literals, literals_relabel inner]
  | .binary _ left _ right | .logical _ left _ right | .set _ left _ right => by
      simp [literals, literals_relabel left, literals_relabel right]
  | .call _ callee _ arguments => by
      simp [literals, literals_relabel callee, literalsOfAll_relabel arguments]

theorem literalsOfAll_relabel : (expressions : List Expression) →
    literalsOfAll (relabelAll labels expressions) = literalsOfAll expressions
  | [] => rfl
  | expression :: rest => by
      simp [literalsOfAll, literals_relabel expression, literalsOfAll_relabel rest]

end

end Constants

mutual

theorem literals_ungrouped : (expression : Expression) →
    expression.ungrouped.literals = expression.literals
  | .literal _ _ | .variable _ _ | .this _ _ => by simp [ungrouped, literals]
  | .grouping _ inner | .unary _ _ inner | .assign _ _ inner | .get _ inner _ => by
      simp [ungrouped, literals, literals_ungrouped inner]
  | .binary _ left _ right | .logical _ left _ right | .set _ left _ right => by
      simp [ungrouped, literals, literals_ungrouped left, literals_ungrouped right]
  | .call _ callee _ arguments => by
      simp [ungrouped, literals, literals_ungrouped callee, literalsOfAll_ungrouped arguments]

theorem literalsOfAll_ungrouped : (expressions : List Expression) →
    literalsOfAll (ungroupedAll expressions) = literalsOfAll expressions
  | [] => rfl
  | expression :: rest => by
      simp [ungroupedAll, literalsOfAll, literals_ungrouped expression,
        literalsOfAll_ungrouped rest]

end

mutual

/-- Wrapping takes the infinite numbers out, and no other constant. -/
theorem literals_wrapped : (expression : Expression) →
    expression.wrapped.literals = expression.literals.filter (!·.isInfinite)
  | .literal _ value => by
      cases infinite : value.isInfinite <;> simp [wrapped, literals, infinite]
  | .variable _ _ | .this _ _ => by simp [wrapped, literals]
  | .grouping _ inner | .unary _ _ inner | .assign _ _ inner | .get _ inner _ => by
      simp [wrapped, literals, literals_wrapped inner]
  | .binary _ left _ right | .logical _ left _ right | .set _ left _ right => by
      simp [wrapped, literals, literals_wrapped left, literals_wrapped right]
  | .call _ callee _ arguments => by
      simp [wrapped, literals, literals_wrapped callee, literalsOfAll_wrapped arguments]

theorem literalsOfAll_wrapped : (expressions : List Expression) →
    literalsOfAll (wrappedAll expressions) =
      (literalsOfAll expressions).filter (!·.isInfinite)
  | [] => rfl
  | expression :: rest => by
      simp [wrappedAll, literalsOfAll, literals_wrapped expression, literalsOfAll_wrapped rest]

end

/-! ### Parentheses -/

mutual

/-- Without infinite numbers, wrapping only adds parentheses. -/
theorem ungrouped_wrapped : (expression : Expression) →
    (∀ literal ∈ expression.literals, literal.isInfinite = false) →
    expression.wrapped.ungrouped = expression.ungrouped
  | .literal _ value, finite => by
      simp [wrapped, ungrouped, finite value (List.mem_singleton_self value)]
  | .variable _ _, _ | .this _ _, _ => by simp [wrapped, ungrouped]
  | .grouping _ inner, finite | .unary _ _ inner, finite | .assign _ _ inner, finite
  | .get _ inner _, finite => by
      simp [wrapped, ungrouped, ungrouped_wrapped inner finite]
  | .binary _ left _ right, finite | .logical _ left _ right, finite
  | .set _ left _ right, finite => by
      obtain ⟨first, second⟩ := List.forall_mem_append.mp finite
      simp [wrapped, ungrouped, ungrouped_wrapped left first, ungrouped_wrapped right second]
  | .call _ callee _ arguments, finite => by
      obtain ⟨first, second⟩ := List.forall_mem_append.mp finite
      simp [wrapped, ungrouped, ungrouped_wrapped callee first,
        ungroupedAll_wrapped arguments second]

theorem ungroupedAll_wrapped : (expressions : List Expression) →
    (∀ literal ∈ literalsOfAll expressions, literal.isInfinite = false) →
    ungroupedAll (wrappedAll expressions) = ungroupedAll expressions
  | [], _ => rfl
  | expression :: rest, finite => by
      obtain ⟨first, second⟩ := List.forall_mem_append.mp finite
      simp [wrappedAll, ungroupedAll, ungrouped_wrapped expression first,
        ungroupedAll_wrapped rest second]

end

section Relabelled

variable (labels : Relabelling)

mutual

theorem ungrouped_relabel : (expression : Expression) →
    (expression.relabel labels).ungrouped = expression.ungrouped.relabel labels
  | .literal _ _ | .variable _ _ | .this _ _ => by simp [ungrouped]
  | .grouping _ inner | .unary _ _ inner | .assign _ _ inner | .get _ inner _ => by
      simp [ungrouped, ungrouped_relabel inner]
  | .binary _ left _ right | .logical _ left _ right | .set _ left _ right => by
      simp [ungrouped, ungrouped_relabel left, ungrouped_relabel right]
  | .call _ callee _ arguments => by
      simp [ungrouped, ungrouped_relabel callee, ungroupedAll_relabel arguments]

theorem ungroupedAll_relabel : (expressions : List Expression) →
    ungroupedAll (relabelAll labels expressions) = relabelAll labels (ungroupedAll expressions)
  | [] => rfl
  | expression :: rest => by
      simp [ungroupedAll, ungrouped_relabel expression, ungroupedAll_relabel rest]

end

end Relabelled

namespace Same

variable {left right : Expression}

theorem ungrouped (same : left.Same right) : left.ungrouped.Same right.ungrouped := by
  unfold Same
  rw [← ungrouped_relabel, ← ungrouped_relabel, same]

theorem literals (same : left.Same right) : left.literals = right.literals := by
  rw [← literals_relabel .unplaced left, same, literals_relabel]

end Same

/-- What is wrapped is the same up to parentheses exactly if nothing in it is infinite. -/
theorem Same.ungrouped_iff {expression other : Expression} (same : other.Same expression.wrapped) :
    other.ungrouped.Same expression.ungrouped ↔
      ∀ literal ∈ expression.literals, literal.isInfinite = false := by
  constructor
  · intro alike literal member
    have kept : expression.literals.filter (!·.isInfinite) = expression.literals := by
      rw [← literals_wrapped, ← same.literals, ← literals_ungrouped other, alike.literals,
        literals_ungrouped]
    simpa using List.filter_eq_self.mp kept literal member
  · intro finite
    rw [← ungrouped_wrapped expression finite]
    exact same.ungrouped

end Expression

/-! ### One number for all nodes -/

/-- All nodes have one given number, and no token has a place. -/
def Relabelling.uniform (number : Nat) : Relabelling :=
  { Relabelling.unplaced with number := fun _ => number }

section Uniform

variable (number : Nat)

@[simp] theorem Relabelling.uniform_token (token : Token) :
    (Relabelling.uniform number).token token = token.unplaced :=
  rfl

@[simp] theorem Relabelling.uniform_number (id : Nat) :
    (Relabelling.uniform number).number id = number :=
  rfl

@[simp] theorem Token.unplaced_unplaced (token : Token) : token.unplaced.unplaced = token.unplaced :=
  rfl

mutual

theorem Expression.relabel_unplaced_uniform : (expression : Expression) →
    (expression.relabel .unplaced).relabel (.uniform number) =
      expression.relabel (.uniform number)
  | .literal _ _ | .variable _ _ | .this _ _ => by simp
  | .grouping _ inner | .unary _ _ inner | .assign _ _ inner | .get _ inner _ => by
      simp [relabel_unplaced_uniform inner]
  | .binary _ left _ right | .logical _ left _ right | .set _ left _ right => by
      simp [relabel_unplaced_uniform left, relabel_unplaced_uniform right]
  | .call _ callee _ arguments => by
      simp [relabel_unplaced_uniform callee, relabelAll_unplaced_uniform arguments]

theorem Expression.relabelAll_unplaced_uniform : (expressions : List Expression) →
    Expression.relabelAll (.uniform number) (Expression.relabelAll .unplaced expressions) =
      Expression.relabelAll (.uniform number) expressions
  | [] => rfl
  | expression :: rest => by
      simp [relabel_unplaced_uniform expression, relabelAll_unplaced_uniform rest]

end

end Uniform

/-- Expressions that differ in numbers and lines only come to one with uniform numbers. -/
theorem Expression.Same.uniform {left right : Expression} (same : left.Same right) (number : Nat) :
    left.relabel (.uniform number) = right.relabel (.uniform number) := by
  rw [← relabel_unplaced_uniform number left, same, relabel_unplaced_uniform]

/-- The number of the outermost node is one of the numbers. -/
theorem Expression.id_mem_numbers (expression : Expression) :
    expression.id ∈ expression.numbers := by
  cases expression <;> simp [Expression.id, Expression.numbers]

end Lox
