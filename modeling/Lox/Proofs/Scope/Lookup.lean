import Lox.Scope.Resolve

/-!
Contract: the scopes along a program, and what a name finds in them.

Owns:
- the scopes behind a statement, in the methods of a class, and whether names are declared
  for the first time or completely;
- for an opened scope and for a recorded name, where names are found afterwards.
-/

namespace Lox.Scope.Scopes

/-- The scopes behind a statement. -/
def behind (scopes : Scopes) : Statement → Scopes
  | .var name _ | .class name _ => (scopes.introduce name).1
  | .function declaration => (scopes.introduce declaration.name).1
  | _ => scopes

/-- Whether the declaration of a name is complete, if an open scope declares it. -/
def complete? (scopes : Scopes) (name : String) : Option Bool :=
  scopes.findSome? (List.lookup name)

/-- No declaration is incomplete. -/
def Settled (scopes : Scopes) : Prop :=
  ∀ name, scopes.complete? name ≠ some false

/-- A name has not been declared in the innermost scope. -/
def Free (scopes : Scopes) (name : Token) : Prop :=
  scopes.innermost? name.lexeme = none

/-- Names are declared one after another, each for the first time. -/
def AllFree (scopes : Scopes) : List Token → Prop
  | [] => True
  | name :: rest => scopes.Free name ∧ (scopes.introduce name).1.AllFree rest

/-- The scopes of the methods of a class: `this` is declared around them. -/
def withThis (scopes : Scopes) : Scopes :=
  [(Keyword.this.spelling, true)] :: scopes

/-! ### Where names are found -/

variable (scopes : Scopes) (scope : Declarations) (outer : Scopes)

theorem distance?_push (name : String) :
    Scopes.distance? ([] :: scopes) name = (scopes.distance? name).map (· + 1) := by
  simp [distance?, List.findIdx?_cons]

@[simp] theorem complete?_push (name : String) :
    Scopes.complete? ([] :: scopes) name = scopes.complete? name := by
  simp [complete?, List.findSome?_cons]

@[simp] theorem innermost?_push (name : String) : Scopes.innermost? ([] :: scopes) name = none := by
  simp [innermost?]

/-- A name recorded in the innermost scope is found there. -/
theorem distance?_record (recorded name : String) (complete : Bool) :
    Scopes.distance? (record recorded complete (scope :: outer)) name =
      if name = recorded then some 0 else Scopes.distance? (scope :: outer) name := by
  by_cases same : name = recorded
  · simp [distance?, record, List.findIdx?_cons, same]
  · have differ : (name == recorded) = false := by simpa using same
    simp [distance?, record, List.findIdx?_cons, List.lookup_cons, same, differ]

theorem innermost?_record (recorded name : String) (complete : Bool) :
    Scopes.innermost? (record recorded complete (scope :: outer)) name =
      if name = recorded then some complete else Scopes.innermost? (scope :: outer) name := by
  by_cases same : name = recorded
  · simp [innermost?, record, same]
  · have differ : (name == recorded) = false := by simpa using same
    simp [innermost?, record, List.lookup_cons, same, differ]

theorem complete?_record (recorded name : String) (complete : Bool) :
    Scopes.complete? (record recorded complete (scope :: outer)) name =
      if name = recorded then some complete else Scopes.complete? (scope :: outer) name := by
  by_cases same : name = recorded
  · simp [complete?, record, same]
  · have differ : (name == recorded) = false := by simpa using same
    simp [complete?, record, List.findSome?_cons, List.lookup_cons, differ, same]

/-- A name that has a place in the open scopes is declared, completely or not. -/
theorem distance?_isSome (name : String) :
    (scopes.distance? name).isSome = (scopes.complete? name).isSome := by
  induction scopes with
  | nil => rfl
  | cons scope outer inductionHypothesis =>
      simp only [distance?, complete?, List.findIdx?_cons, List.findSome?_cons] at *
      cases scope.lookup name with
      | none => simpa using inductionHypothesis
      | some complete => rfl

/-- What the innermost scope declares is found there. -/
theorem distance?_of_innermost {name : String}
    (declared : (scopes.innermost? name).isSome) : scopes.distance? name = some 0 := by
  cases scopes with
  | nil => cases declared
  | cons scope outer =>
      have here : (scope.lookup name).isSome := declared
      simp [distance?, List.findIdx?_cons, here]

/-! ### Declared names -/

variable {scopes} {name : Token}

theorem declare_of_free (free : scopes.Free name) :
    (scopes.declare name).1 = scopes.record name.lexeme false := by
  unfold Free at free
  simp [declare, free]

theorem introduce_of_free (free : scopes.Free name) :
    (scopes.introduce name).1 = (scopes.record name.lexeme false).record name.lexeme true := by
  unfold introduce define
  rw [← declare_of_free free]

/-- An introduced name is found as if it had been recorded completely at once. -/
theorem distance?_introduce {scope : Declarations} {outer : Scopes}
    (free : Scopes.Free (scope :: outer) name) (other : String) :
    Scopes.distance? (Scopes.introduce (scope :: outer) name).1 other =
      Scopes.distance? (record name.lexeme true (scope :: outer)) other := by
  rw [introduce_of_free free, distance?_record]
  change Scopes.distance? (record name.lexeme true (((name.lexeme, false) :: scope) :: outer))
    other = _
  rw [distance?_record]
  split
  case isTrue => rfl
  case isFalse differ =>
      change Scopes.distance? (record name.lexeme false (scope :: outer)) other = _
      rw [distance?_record, if_neg differ]

theorem complete?_introduce {scope : Declarations} {outer : Scopes}
    (free : Scopes.Free (scope :: outer) name) (other : String) :
    Scopes.complete? (Scopes.introduce (scope :: outer) name).1 other =
      Scopes.complete? (record name.lexeme true (scope :: outer)) other := by
  rw [introduce_of_free free, complete?_record]
  change Scopes.complete? (record name.lexeme true (((name.lexeme, false) :: scope) :: outer))
    other = _
  rw [complete?_record]
  split
  case isTrue => rfl
  case isFalse differ =>
      change Scopes.complete? (record name.lexeme false (scope :: outer)) other = _
      rw [complete?_record, if_neg differ]

/-! ### Complete declarations -/

theorem Settled.nil : Settled [] := by
  intro name
  simp [complete?]

theorem Settled.push (settled : scopes.Settled) : Settled ([] :: scopes) := by
  intro name
  rw [complete?_push]
  exact settled name

theorem Settled.record (settled : scopes.Settled) (name : String) :
    (scopes.record name true).Settled := by
  cases scopes with
  | nil => exact settled
  | cons scope outer =>
      intro other
      rw [complete?_record]
      split
      · nofun
      · exact settled other

theorem Settled.introduce (settled : scopes.Settled) (free : scopes.Free name) :
    (scopes.introduce name).1.Settled := by
  cases scopes with
  | nil => exact settled
  | cons scope outer =>
      intro other
      rw [complete?_introduce free]
      exact settled.record name.lexeme other

theorem Settled.withThis (settled : scopes.Settled) : scopes.withThis.Settled :=
  settled.push.record Keyword.this.spelling

end Lox.Scope.Scopes
