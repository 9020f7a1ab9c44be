import Lox.Proofs.Grammar.Rising
import Lox.Proofs.Scope.Table

/-!
Contract: which nodes of a program can have a record in its table.

Owns:
- `Expression.occurrences`, the nodes that stand for names: variables, assignments to
  variables and `this`;
- that everything located in a program is one of its occurrences, and so that its table has
  no records for other nodes.

Does not own: what the records say.
-/

namespace Lox

mutual

/-- The numbers of the nodes in an expression that stand for a name. -/
def Expression.occurrences : Expression → List Nat
  | .literal _ _ => []
  | .variable id _ | .this id _ => [id]
  | .grouping _ inner | .unary _ _ inner | .get _ inner _ => inner.occurrences
  | .assign id _ value => value.occurrences ++ [id]
  | .binary _ left _ right | .logical _ left _ right | .set _ left _ right =>
      left.occurrences ++ right.occurrences
  | .call _ callee _ arguments =>
      callee.occurrences ++ Expression.occurrencesOfAll arguments

/-- The same for several expressions. -/
def Expression.occurrencesOfAll : List Expression → List Nat
  | [] => []
  | expression :: rest => expression.occurrences ++ Expression.occurrencesOfAll rest

end

/-- The numbers of the nodes in statements that stand for a name. -/
def Statement.occurrencesOfAll (statements : List Statement) : List Nat :=
  (Statement.expressionsOfAll statements).flatMap Expression.occurrences

private theorem append_subset_append {left right first second : List Nat}
    (before : left ⊆ first) (after : right ⊆ second) : left ++ right ⊆ first ++ second :=
  List.append_subset.mpr ⟨List.Subset.trans before (List.subset_append_left _ _),
    List.Subset.trans after (List.subset_append_right _ _)⟩

mutual

theorem Expression.occurrences_subset : (expression : Expression) →
    expression.occurrences ⊆ expression.numbers
  | .literal _ _ => List.nil_subset _
  | .variable _ _ | .this _ _ => List.Subset.refl _
  | .grouping _ inner | .unary _ _ inner | .get _ inner _ =>
      List.Subset.trans inner.occurrences_subset (List.subset_append_left _ _)
  | .assign _ _ value => append_subset_append value.occurrences_subset (List.Subset.refl _)
  | .binary _ left _ right | .logical _ left _ right | .set _ left _ right =>
      List.Subset.trans (append_subset_append left.occurrences_subset
        right.occurrences_subset) (List.subset_append_left _ _)
  | .call _ callee _ arguments =>
      List.Subset.trans (append_subset_append callee.occurrences_subset
        (Expression.occurrencesOfAll_subset arguments)) (List.subset_append_left _ _)

theorem Expression.occurrencesOfAll_subset : (expressions : List Expression) →
    Expression.occurrencesOfAll expressions ⊆ Expression.numbersOfAll expressions
  | [] => List.nil_subset _
  | expression :: rest => append_subset_append expression.occurrences_subset
      (Expression.occurrencesOfAll_subset rest)

end

theorem Expression.flatMap_occurrences_subset (expressions : List Expression) :
    expressions.flatMap Expression.occurrences ⊆ expressions.flatMap Expression.numbers := by
  intro id member
  obtain ⟨expression, inside, found⟩ := List.mem_flatMap.mp member
  exact List.mem_flatMap.mpr ⟨expression, inside, expression.occurrences_subset found⟩

theorem Statement.occurrencesOfAll_subset (statements : List Statement) :
    Statement.occurrencesOfAll statements ⊆ Statement.numbersOfAll statements := by
  rw [Statement.numbersOfAll_eq]
  exact Expression.flatMap_occurrences_subset _

namespace Scope

/-- Each located occurrence among findings is one of some nodes. -/
def Covers (numbers : List Nat) (part : List Finding) : Prop :=
  ∀ id distance, .located id distance ∈ part → id ∈ numbers

theorem Covers.append {left right : List Nat} {before behind : List Finding}
    (first : Covers left before) (second : Covers right behind) :
    Covers (left ++ right) (before ++ behind) := by
  intro id distance member
  rcases List.mem_append.mp member with member | member
  · exact List.mem_append_left _ (first id distance member)
  · exact List.mem_append_right _ (second id distance member)

theorem Covers.mono {numbers more : List Nat} {part : List Finding} (covers : Covers numbers part)
    (subset : numbers ⊆ more) : Covers more part :=
  fun id distance member => subset (covers id distance member)

theorem locate_covers {numbers : List Nat} {id : Nat} (scopes : Scopes) (name : Token)
    (member : id ∈ numbers) : Covers numbers (scopes.locate id name) := by
  intro other distance found
  unfold Scopes.locate at found
  split at found
  · obtain ⟨rfl, _⟩ : other = id ∧ _ := by simpa using found
    exact member
  · cases found

/-- A declaration is not an occurrence. -/
theorem declare_covers (numbers : List Nat) (scopes : Scopes) (name : Token) :
    Covers numbers (scopes.declare name).2 := by
  intro id distance member
  unfold Scopes.declare at member
  split at member <;> simp at member

theorem introduceAll_covers (numbers : List Nat) (scopes : Scopes) (names : List Token) :
    Covers numbers (scopes.introduceAll names).2 := by
  induction names generalizing scopes with
  | nil => exact nofun
  | cons name names inductionHypothesis =>
      intro id distance member
      rcases List.mem_append.mp member with member | member
      · exact declare_covers numbers scopes name id distance member
      · exact inductionHypothesis _ id distance member

theorem ofReturn_covers (numbers : List Nat) (surrounding : Surrounding) (keyword : Token)
    (hasValue : Bool) : Covers numbers (ofReturn surrounding keyword hasValue) := by
  intro id distance member
  unfold ofReturn at member
  split at member
  · simp at member
  · split at member <;> simp at member
  · simp at member
  · simp at member

/-! ### Findings are occurrences -/

mutual

theorem ofExpression_occurrences (inClass : Bool) (scopes : Scopes) :
    (expression : Expression) →
    Covers expression.occurrences (ofExpression inClass scopes expression)
  | .literal _ _ => nofun
  | .grouping _ inner | .unary _ _ inner | .get _ inner _ =>
      ofExpression_occurrences inClass scopes inner
  | .binary _ left _ right | .logical _ left _ right =>
      (ofExpression_occurrences inClass scopes left).append
        (ofExpression_occurrences inClass scopes right)
  | .variable id name => by
      have own := locate_covers scopes name (List.mem_singleton.mpr (rfl : id = id))
      intro other distance member
      rcases List.mem_append.mp member with violation | located
      · split at violation <;> simp at violation
      · exact own other distance located
  | .assign id name value =>
      (ofExpression_occurrences inClass scopes value).append
        (locate_covers scopes name (List.mem_singleton.mpr (rfl : id = id)))
  | .call _ callee _ arguments =>
      (ofExpression_occurrences inClass scopes callee).append
        (ofExpressions_occurrences inClass scopes arguments)
  | .set _ object _ value =>
      ((ofExpression_occurrences inClass scopes value).append
        (ofExpression_occurrences inClass scopes object)).mono (by
          intro id member
          exact List.mem_append.mpr (List.mem_append.mp member).symm)
  | .this id keyword => by
      unfold ofExpression
      split
      · exact locate_covers scopes keyword (List.mem_singleton.mpr (rfl : id = id))
      · intro other distance member
        simp at member

theorem ofExpressions_occurrences (inClass : Bool) (scopes : Scopes) :
    (expressions : List Expression) →
    Covers (Expression.occurrencesOfAll expressions) (ofExpressions inClass scopes expressions)
  | [] => nofun
  | expression :: rest =>
      (ofExpression_occurrences inClass scopes expression).append
        (ofExpressions_occurrences inClass scopes rest)

end

/-- Everything located is an occurrence in one of the expressions. -/
abbrev CoversIn (expressions : List Expression) (part : List Finding) : Prop :=
  Covers (expressions.flatMap Expression.occurrences) part

namespace CoversIn

variable {left right : List Expression} {before behind : List Finding}

theorem single {expression : Expression} {part : List Finding}
    (covers : Covers expression.occurrences part) : CoversIn [expression] part :=
  covers.mono (List.subset_append_left _ _)

theorem append (first : CoversIn left before) (second : CoversIn right behind) :
    CoversIn (left ++ right) (before ++ behind) := by
  unfold CoversIn
  rw [List.flatMap_append]
  exact Covers.append first second

/-- What is found in front may be no occurrence at all. -/
theorem skip {front : List Finding} (first : Covers [] front)
    (second : CoversIn right behind) : CoversIn right (front ++ behind) :=
  Covers.append first second

end CoversIn

theorem ofOptional_occurrences (inClass : Bool) (scopes : Scopes)
    (expression : Option Expression) :
    CoversIn expression.toList (ofOptional inClass scopes expression) := by
  cases expression with
  | none => exact nofun
  | some expression => exact .single (ofExpression_occurrences inClass scopes expression)

mutual

theorem ofStatement_occurrences (context : Context) (scopes : Scopes) :
    (statement : Statement) →
    CoversIn statement.expressions (ofStatement context scopes statement).2
  | .expression value | .print value =>
      .single (ofExpression_occurrences context.inClass scopes value)
  | .var name initializer =>
      CoversIn.skip (declare_covers [] scopes name)
        (ofOptional_occurrences context.inClass _ initializer)
  | .block statements => ofStatements_occurrences context _ statements
  | .conditional condition thenBranch none =>
      CoversIn.append (.single (ofExpression_occurrences context.inClass scopes condition))
        (ofStatement_occurrences context scopes thenBranch)
  | .conditional condition thenBranch (some elseBranch) =>
      CoversIn.append
        (CoversIn.append (.single (ofExpression_occurrences context.inClass scopes condition))
          (ofStatement_occurrences context scopes thenBranch))
        (ofStatement_occurrences context _ elseBranch)
  | .loop condition body =>
      CoversIn.append (.single (ofExpression_occurrences context.inClass scopes condition))
        (ofStatement_occurrences context scopes body)
  | .function declaration =>
      CoversIn.skip (declare_covers [] scopes declaration.name)
        (ofFunction_occurrences _ _ declaration)
  | .return keyword value =>
      CoversIn.skip (ofReturn_covers [] context.surrounding keyword value.isSome)
        (ofOptional_occurrences context.inClass scopes value)
  | .class name methods =>
      CoversIn.skip (declare_covers [] scopes name)
        (ofMethods_occurrences _ methods)

theorem ofStatements_occurrences (context : Context) (scopes : Scopes) :
    (statements : List Statement) →
    CoversIn (Statement.expressionsOfAll statements) (ofStatements context scopes statements)
  | [] => nofun
  | statement :: rest =>
      CoversIn.append (ofStatement_occurrences context scopes statement)
        (ofStatements_occurrences context _ rest)

theorem ofFunction_occurrences (context : Context) (scopes : Scopes) :
    (declaration : FunctionOf Statement) →
    CoversIn (Statement.expressionsOfFunction declaration)
      (ofFunction context scopes declaration)
  | ⟨_, parameters, body⟩ =>
      CoversIn.skip (introduceAll_covers [] _ parameters)
        (ofStatements_occurrences context _ body)

theorem ofMethods_occurrences (scopes : Scopes) : (methods : List (FunctionOf Statement)) →
    CoversIn (Statement.expressionsOfFunctions methods) (ofMethods scopes methods)
  | [] => nofun
  | method :: rest =>
      CoversIn.append (ofFunction_occurrences _ scopes method)
        (ofMethods_occurrences scopes rest)

end

/-- The table of a program has records for its occurrences only. -/
theorem mem_occurrences_of_resolve {program : List Statement} {table : Locals}
    (accepted : resolve program = .ok table) {id distance : Nat}
    (recorded : table[id]? = some distance) : id ∈ Statement.occurrencesOfAll program := by
  obtain ⟨_, rfl⟩ := resolve_eq_ok_iff.mp accepted
  rcases mem_or_absent_of_locals (findings program) id with ⟨distance, member, _⟩ | ⟨_, same⟩
  · exact ofStatements_occurrences ⟨.topLevel, false⟩ [] program id distance member
  · rw [same] at recorded
    cases recorded

/-- The table of a program has records for its own nodes only. -/
theorem resolve_outside {program : List Statement} {table : Locals}
    (accepted : resolve program = .ok table) {id : Nat}
    (outside : id ∉ Statement.numbersOfAll program) : table[id]? = none := by
  cases recorded : table[id]? with
  | none => rfl
  | some distance =>
      exact absurd (Statement.occurrencesOfAll_subset program
        (mem_occurrences_of_resolve accepted recorded)) outside

/-! ### Occurrences are nodes -/

section Nodes

variable (context : Context) (inClass : Bool) (scopes : Scopes)

theorem ofExpression_covers (expression : Expression) :
    Covers expression.numbers (ofExpression inClass scopes expression) :=
  (ofExpression_occurrences inClass scopes expression).mono expression.occurrences_subset

theorem ofExpressions_covers (expressions : List Expression) :
    Covers (Expression.numbersOfAll expressions) (ofExpressions inClass scopes expressions) :=
  (ofExpressions_occurrences inClass scopes expressions).mono
    (Expression.occurrencesOfAll_subset expressions)

theorem CoversIn.nodes {expressions : List Expression} {part : List Finding}
    (covers : CoversIn expressions part) :
    Covers (expressions.flatMap Expression.numbers) part :=
  covers.mono (Expression.flatMap_occurrences_subset expressions)

theorem ofOptional_covers (expression : Option Expression) :
    Covers (Expression.numbersOfOptional expression) (ofOptional inClass scopes expression) := by
  rw [Expression.numbersOfOptional_eq]
  exact (ofOptional_occurrences inClass scopes expression).nodes

theorem ofStatement_covers (statement : Statement) :
    Covers statement.numbers (ofStatement context scopes statement).2 := by
  rw [Statement.numbers_eq]
  exact (ofStatement_occurrences context scopes statement).nodes

theorem ofStatements_covers (statements : List Statement) :
    Covers (Statement.numbersOfAll statements) (ofStatements context scopes statements) := by
  rw [Statement.numbersOfAll_eq]
  exact (ofStatements_occurrences context scopes statements).nodes

theorem ofFunction_covers (declaration : FunctionDeclaration) :
    Covers (Statement.numbersOfFunction declaration) (ofFunction context scopes declaration) := by
  rw [Statement.numbersOfFunction_eq]
  exact (ofFunction_occurrences context scopes declaration).nodes

theorem ofMethods_covers (methods : List FunctionDeclaration) :
    Covers (Statement.numbersOfFunctions methods) (ofMethods scopes methods) := by
  rw [Statement.numbersOfFunctions_eq]
  exact (ofMethods_occurrences scopes methods).nodes

end Nodes

end Scope

end Lox
