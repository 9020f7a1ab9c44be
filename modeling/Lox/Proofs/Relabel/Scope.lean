import Lox.Proofs.Relabel.Trees
import Lox.Proofs.Scope.Table

/-!
Contract: the scopes of code with other tokens and numbers.

Owns: that the same is found there, up to the tokens and numbers; so the code is accepted
if the old code is, with a table for the new numbers.
-/

namespace Lox.Scope

variable (labels : Relabelling)

/-- Something found, with other tokens and numbers. -/
def Finding.relabel : Finding → Finding
  | .located id distance => .located (labels.number id) distance
  | .violation error => .violation ⟨labels.token error.token, error.fault⟩

/-! ### Names -/

namespace Scopes

variable (scopes : Scopes)

theorem declare_relabel (name : Token) :
    scopes.declare (labels.token name) =
      ((scopes.declare name).1, (scopes.declare name).2.map (Finding.relabel labels)) := by
  unfold declare
  rw [labels.lexeme]
  split <;> rfl

theorem introduce_relabel (name : Token) :
    scopes.introduce (labels.token name) =
      ((scopes.introduce name).1, (scopes.introduce name).2.map (Finding.relabel labels)) := by
  unfold introduce define
  rw [declare_relabel, labels.lexeme]

theorem introduceAll_relabel (names : List Token) :
    scopes.introduceAll (names.map labels.token) =
      ((scopes.introduceAll names).1,
        (scopes.introduceAll names).2.map (Finding.relabel labels)) := by
  induction names generalizing scopes with
  | nil => rfl
  | cons name rest inductionHypothesis =>
      simp [introduceAll, introduce_relabel, inductionHypothesis]

theorem locate_relabel (id : Nat) (name : Token) :
    scopes.locate (labels.number id) (labels.token name) =
      (scopes.locate id name).map (Finding.relabel labels) := by
  unfold locate
  rw [labels.lexeme]
  split <;> rfl

end Scopes

/-! ### Expressions -/

mutual

theorem ofExpression_relabel (inClass : Bool) (scopes : Scopes) : (expression : Expression) →
    ofExpression inClass scopes (expression.relabel labels) =
      (ofExpression inClass scopes expression).map (Finding.relabel labels)
  | .literal _ _ => rfl
  | .grouping _ inner => ofExpression_relabel inClass scopes inner
  | .unary _ _ operand => ofExpression_relabel inClass scopes operand
  | .binary _ left _ right | .logical _ left _ right => by
      simp [ofExpression, ofExpression_relabel inClass scopes left,
        ofExpression_relabel inClass scopes right]
  | .variable id name => by
      simp only [ofExpression, Expression.relabel, Scopes.locate_relabel, labels.lexeme]
      split <;> simp [Finding.relabel]
  | .assign id name value => by
      simp [ofExpression, ofExpression_relabel inClass scopes value, Scopes.locate_relabel]
  | .call _ callee _ arguments => by
      simp [ofExpression, ofExpression_relabel inClass scopes callee,
        ofExpressions_relabel inClass scopes arguments]
  | .get _ object _ => ofExpression_relabel inClass scopes object
  | .set _ object _ value => by
      simp [ofExpression, ofExpression_relabel inClass scopes object,
        ofExpression_relabel inClass scopes value]
  | .this id keyword => by
      simp only [ofExpression, Expression.relabel, Scopes.locate_relabel]
      split <;> simp [Finding.relabel]

theorem ofExpressions_relabel (inClass : Bool) (scopes : Scopes) :
    (expressions : List Expression) →
    ofExpressions inClass scopes (Expression.relabelAll labels expressions) =
      (ofExpressions inClass scopes expressions).map (Finding.relabel labels)
  | [] => rfl
  | expression :: rest => by
      simp [ofExpressions, ofExpression_relabel inClass scopes expression,
        ofExpressions_relabel inClass scopes rest]

end

theorem ofOptional_relabel (inClass : Bool) (scopes : Scopes) (expression : Option Expression) :
    ofOptional inClass scopes (expression.map (Expression.relabel labels)) =
      (ofOptional inClass scopes expression).map (Finding.relabel labels) := by
  cases expression with
  | none => rfl
  | some expression => exact ofExpression_relabel labels inClass scopes expression

/-! ### Statements -/

theorem ofReturn_relabel (surrounding : Surrounding) (keyword : Token) (hasValue : Bool) :
    ofReturn surrounding (labels.token keyword) hasValue =
      (ofReturn surrounding keyword hasValue).map (Finding.relabel labels) := by
  cases surrounding <;> cases hasValue <;> rfl

theorem methodSurrounding_relabel (name : Token) :
    methodSurrounding (labels.token name) = methodSurrounding name := by
  unfold methodSurrounding
  rw [labels.lexeme]

mutual

/-- By induction on the statement. The scopes behind it are the same. -/
theorem ofStatement_relabel (context : Context) (scopes : Scopes) : (statement : Statement) →
    ofStatement context scopes (statement.relabel labels) =
      ((ofStatement context scopes statement).1,
        (ofStatement context scopes statement).2.map (Finding.relabel labels))
  | .expression value | .print value => by
      simp [ofStatement, ofExpression_relabel]
  | .var name initializer => by
      simp [ofStatement, Scopes.declare_relabel, Scopes.define, labels.lexeme, ofOptional_relabel]
  | .block statements => by
      simp [ofStatement, ofStatements_relabel context ([] :: scopes) statements]
  | .conditional condition thenBranch none => by
      simp [ofStatement, ofExpression_relabel, ofStatement_relabel context scopes thenBranch]
  | .conditional condition thenBranch (some elseBranch) => by
      simp [ofStatement, ofExpression_relabel, ofStatement_relabel context scopes thenBranch,
        ofStatement_relabel context _ elseBranch]
  | .loop condition body => by
      simp [ofStatement, ofExpression_relabel, ofStatement_relabel context scopes body]
  | .function ⟨name, parameters, body⟩ => by
      have inner := ofFunction_relabel ⟨.function, context.inClass⟩ (scopes.introduce name).1
        ⟨name, parameters, body⟩
      simp only [Statement.relabelFunction] at inner
      simp [ofStatement, Scopes.introduce_relabel, inner]
  | .return keyword value => by
      simp [ofStatement, ofReturn_relabel, ofOptional_relabel]
  | .class name methods => by
      simp [ofStatement, Scopes.introduce_relabel,
        ofMethods_relabel ([(Keyword.this.spelling, true)] :: (scopes.introduce name).1) methods]

theorem ofStatements_relabel (context : Context) (scopes : Scopes) :
    (statements : List Statement) →
    ofStatements context scopes (Statement.relabelAll labels statements) =
      (ofStatements context scopes statements).map (Finding.relabel labels)
  | [] => rfl
  | statement :: rest => by
      simp [ofStatements, ofStatement_relabel context scopes statement,
        ofStatements_relabel context (ofStatement context scopes statement).1 rest]

theorem ofFunction_relabel (context : Context) (scopes : Scopes) :
    (declaration : FunctionOf Statement) →
    ofFunction context scopes (Statement.relabelFunction labels declaration) =
      (ofFunction context scopes declaration).map (Finding.relabel labels)
  | ⟨_, parameters, body⟩ => by
      simp [ofFunction, Scopes.introduceAll_relabel,
        ofStatements_relabel context (Scopes.introduceAll ([] :: scopes) parameters).1 body]

theorem ofMethods_relabel (scopes : Scopes) : (methods : List (FunctionOf Statement)) →
    ofMethods scopes (Statement.relabelFunctions labels methods) =
      (ofMethods scopes methods).map (Finding.relabel labels)
  | [] => rfl
  | ⟨name, parameters, body⟩ :: rest => by
      have first := ofFunction_relabel ⟨methodSurrounding name, true⟩ scopes
        ⟨name, parameters, body⟩
      simp only [Statement.relabelFunction] at first
      simp [ofMethods, methodSurrounding_relabel, first, ofMethods_relabel scopes rest]

end

/-! ### Programs -/

/-- The same violations, with other tokens. -/
theorem violations_map_relabel (found : List Finding) :
    violations (found.map (Finding.relabel labels)) =
      (violations found).map fun error => ⟨labels.token error.token, error.fault⟩ := by
  unfold violations
  rw [List.filterMap_map, List.map_filterMap]
  congr 1
  funext finding
  cases finding <;> rfl

theorem violations_relabel {found : List Finding} (quiet : violations found = []) :
    violations (found.map (Finding.relabel labels)) = [] := by
  rw [violations_map_relabel, quiet]
  rfl

/-- Records for other numbers, if no two numbers become the same. -/
theorem getElem?_insertAll_map {number : Nat → Nat}
    (injective : ∀ id other, number id = number other → id = other)
    (records : List (Nat × Nat)) {table other : Locals}
    (agree : ∀ id : Nat, other[number id]? = table[id]?) (id : Nat) :
    (insertAll (records.map fun record => (number record.1, record.2)) other)[number id]? =
      (insertAll records table)[id]? := by
  induction records generalizing table other with
  | nil => exact agree id
  | cons record records inductionHypothesis =>
      refine inductionHypothesis fun id => ?_
      show (other.insert (number record.1) record.2)[number id]? =
        (table.insert record.1 record.2)[id]?
      have same : number record.1 = number id ↔ record.1 = id :=
        ⟨injective record.1 id, congrArg number⟩
      rw [Std.ExtTreeMap.getElem?_insert, Std.ExtTreeMap.getElem?_insert, agree]
      simp only [Std.LawfulEqCmp.compare_eq_iff_eq, same]

theorem located_map_relabel (found : List Finding) :
    located (found.map (Finding.relabel labels)) =
      (located found).map fun record => (labels.number record.1, record.2) := by
  unfold located
  rw [List.filterMap_map, List.map_filterMap]
  congr 1
  funext finding
  cases finding <;> rfl

theorem getElem?_locals_relabel
    (injective : ∀ id other, labels.number id = labels.number other → id = other)
    (found : List Finding) (id : Nat) :
    (locals (found.map (Finding.relabel labels)))[labels.number id]? = (locals found)[id]? := by
  rw [locals_eq, locals_eq, located_map_relabel]
  refine getElem?_insertAll_map injective (located found) (fun id => ?_) id
  rw [Std.ExtTreeMap.getElem?_empty, Std.ExtTreeMap.getElem?_empty]

theorem locals_relabel (same : ∀ id, labels.number id = id) (found : List Finding) :
    locals (found.map (Finding.relabel labels)) = locals found := by
  unfold locals
  rw [List.foldl_map]
  congr 1
  funext table finding
  cases finding with
  | located id distance => simp only [Finding.relabel, same]
  | violation => rfl

/-- A program that is accepted stays so. If the numbers stay, so does its table. -/
theorem resolve_relabel {program : List Statement} {table : Locals}
    (accepted : resolve program = .ok table) :
    ∃ other, resolve (Statement.relabelAll labels program) = .ok other ∧
      ((∀ id, labels.number id = id) → other = table) := by
  obtain ⟨quiet, rfl⟩ := resolve_eq_ok_iff.mp accepted
  have found : findings (Statement.relabelAll labels program) =
      (findings program).map (Finding.relabel labels) :=
    ofStatements_relabel labels _ _ program
  refine ⟨_, resolve_eq_ok_iff.mpr ⟨?_, rfl⟩, fun same => ?_⟩
  · rw [found]
    exact violations_relabel labels quiet
  · rw [found]
    exact locals_relabel labels same _

/-- Other numbers make no difference: a program has the same violations, or it has a table that
says the same. -/
theorem resolve_renumbered (tokens : ∀ token, labels.token token = token)
    (injective : ∀ id other, labels.number id = labels.number other → id = other)
    (program : List Statement) :
    (∃ errors, resolve program = .error errors ∧
      resolve (Statement.relabelAll labels program) = .error errors) ∨
    ∃ table other, resolve program = .ok table ∧
      resolve (Statement.relabelAll labels program) = .ok other ∧
      ∀ id : Nat, other[labels.number id]? = table[id]? := by
  have found : findings (Statement.relabelAll labels program) =
      (findings program).map (Finding.relabel labels) :=
    ofStatements_relabel labels _ _ program
  have same : violations (findings (Statement.relabelAll labels program)) =
      violations (findings program) := by
    rw [found, violations_map_relabel]
    simp only [tokens]
    exact List.map_id _
  cases errors : violations (findings program) with
  | nil =>
      refine Or.inr ⟨_, _, resolve_eq_ok_iff.mpr ⟨errors, rfl⟩,
        resolve_eq_ok_iff.mpr ⟨same.trans errors, rfl⟩, fun id => ?_⟩
      rw [found]
      exact getElem?_locals_relabel labels injective _ id
  | cons error rest =>
      refine Or.inl ⟨error :: rest, ?_, ?_⟩
      · simp [resolve, errors]
      · simp [resolve, same, errors]

end Lox.Scope
