import Lox.Proofs.Relabel.Steps

/-!
Contract: operators, functions, classes and instances on machines that are alike.

Owns: that operators give alike values, that making functions, methods and instances leaves
machines alike, and so does every access to an instance, printing and reading the clock.
-/

namespace Lox.Relabelled

variable {likeness : Likeness}

/-! ### Operators -/

section Operators

variable {operator another : Token} (tokens : TokenAlike likeness operator another)

include tokens

theorem TokenAlike.kind : another.kind = operator.kind := by
  obtain ⟨labels, _, _, rfl⟩ := tokens
  exact labels.kind operator

theorem applyUnary_mirrors {operand other : Value} (operands : ValueAlike likeness operand other) :
    Mirrors likeness (ValueAlike likeness) (Evaluation.applyUnary operator operand)
      (Evaluation.applyUnary another other) := by
  unfold Evaluation.applyUnary
  rw [tokens.kind, operands.isTruthy]
  by_cases minus : operator.kind = .symbol .minus
  · rw [minus]
    cases operands with
    | number value => exact Mirrors.pure (.number _)
    | _ => exact Mirrors.fail tokens _
  · by_cases bang : operator.kind = .symbol .bang
    · rw [bang]
      exact Mirrors.pure (.boolean _)
    · split
      case h_4 =>
        split
        case h_4 => exact Mirrors.fail tokens _
        all_goals contradiction
      all_goals contradiction

theorem numberOperator?_alike (left right : Float) :
    Option.Rel (ValueAlike likeness) (Evaluation.numberOperator? operator left right)
      (Evaluation.numberOperator? another left right) := by
  unfold Evaluation.numberOperator?
  rw [tokens.kind]
  cases operator.kind with
  | symbol symbol =>
      cases symbol <;> first
        | exact .some (.number _)
        | exact .some (.boolean _)
        | exact .none
  | _ => exact .none

theorem applyBinary_mirrors {left right other second : Value}
    (lefts : ValueAlike likeness left other) (rights : ValueAlike likeness right second) :
    Mirrors likeness (ValueAlike likeness) (Evaluation.applyBinary operator left right)
      (Evaluation.applyBinary another other second) := by
  unfold Evaluation.applyBinary
  rw [tokens.kind, lefts.equals rights]
  split
  case h_1 =>
      cases lefts with
      | number left =>
          cases rights with
          | number right => exact Mirrors.pure (.number _)
          | _ => exact Mirrors.fail tokens _
      | string left =>
          cases rights with
          | string right => exact Mirrors.pure (.string _)
          | _ => exact Mirrors.fail tokens _
      | _ => exact Mirrors.fail tokens _
  case h_2 => exact Mirrors.pure (.boolean _)
  case h_3 => exact Mirrors.pure (.boolean _)
  case h_4 =>
      cases lefts with
      | number left =>
          cases rights with
          | number right => exact Mirrors.require tokens _ (numberOperator?_alike tokens left right)
          | _ => exact Mirrors.fail tokens _
      | _ => exact Mirrors.fail tokens _

end Operators

/-! ### Functions, classes and instances -/

theorem freshIdentity_mirrors :
    Mirrors likeness Eq Evaluation.freshIdentity Evaluation.freshIdentity :=
  fun _ _ alike => ⟨alike.nextIdentity.symm, alike.takeIdentity⟩

/-- A function is made of code that has been relabelled. -/
theorem makeFunction_mirrors {labels : Relabelling} (origin : likeness.origins labels)
    {declaration other : FunctionDeclaration}
    (within : Statement.FunctionWithin labels declaration)
    (code : other = Statement.relabelFunction labels declaration) (closure : Nat)
    (isInitializer : Bool) :
    Mirrors likeness (fun function another => FunctionAlike likeness function another ∧
        function.declaration = declaration)
      (Evaluation.makeFunction declaration closure isInitializer)
      (Evaluation.makeFunction other closure isInitializer) := by
  subst code
  refine freshIdentity_mirrors.bind fun identity _ same => ?_
  subst same
  exact Mirrors.pure ⟨⟨rfl, rfl, rfl, labels, origin, within, rfl⟩, rfl⟩

/-- Methods by name are alike. -/
def MethodsAlike (likeness : Likeness) (methods others : Bindings FunctionValue) : Prop :=
  ∀ name : String, Option.Rel (FunctionAlike likeness) methods[name]? others[name]?

theorem MethodsAlike.insert {methods others : Bindings FunctionValue}
    (alike : MethodsAlike likeness methods others) (name : String) {method other : FunctionValue}
    (added : FunctionAlike likeness method other) :
    MethodsAlike likeness (methods.insert name method) (others.insert name other) := by
  intro found
  rw [Std.ExtTreeMap.getElem?_insert, Std.ExtTreeMap.getElem?_insert]
  split
  · exact .some added
  · exact alike found

theorem addMethods_mirrors {labels : Relabelling} (origin : likeness.origins labels)
    (closure : Nat) {declarations : List FunctionDeclaration}
    (within : Statement.FunctionsWithin labels declarations)
    {methods others : Bindings FunctionValue} (alike : MethodsAlike likeness methods others) :
    Mirrors likeness (MethodsAlike likeness)
      (declarations.foldlM (fun methods declaration => do
        let method ← Evaluation.makeFunction declaration closure
          (declaration.name.lexeme == initializerName)
        return methods.insert declaration.name.lexeme method) methods)
      ((Statement.relabelFunctions labels declarations).foldlM (fun others declaration => do
        let method ← Evaluation.makeFunction declaration closure
          (declaration.name.lexeme == initializerName)
        return others.insert declaration.name.lexeme method) others) := by
  induction declarations generalizing methods others with
  | nil => exact Mirrors.pure alike
  | cons declaration declarations inductionHypothesis =>
      rw [Statement.relabelFunctions, List.foldlM_cons, List.foldlM_cons,
        Statement.relabelFunction_name, labels.lexeme]
      refine Mirrors.bind (?_ : Mirrors likeness (MethodsAlike likeness) _ _) ?_
      · refine (makeFunction_mirrors origin within.1 rfl closure _).bind ?_
        exact fun method other made => Mirrors.pure (alike.insert _ made.1)
      · exact fun methods others alike => inductionHypothesis within.2 alike

theorem makeMethods_mirrors {labels : Relabelling} (origin : likeness.origins labels)
    {declarations : List FunctionDeclaration}
    (within : Statement.FunctionsWithin labels declarations) :
    Mirrors likeness (MethodsAlike likeness) (Evaluation.makeMethods declarations)
      (Evaluation.makeMethods (Statement.relabelFunctions labels declarations)) := by
  refine Mirrors.get fun machine other alike => ?_
  rw [alike.environment]
  have none : MethodsAlike likeness ∅ ∅ := fun name => by simp
  exact addMethods_mirrors origin _ within none machine other alike

theorem bindMethod_mirrors {method other : FunctionValue}
    (methods : FunctionAlike likeness method other) (id : Nat) :
    Mirrors likeness (fun function another => FunctionAlike likeness function another ∧
        function.declaration = method.declaration)
      (Evaluation.bindMethod method id) (Evaluation.bindMethod other id) := by
  obtain ⟨labels, origin, within, code⟩ := methods.code
  unfold Evaluation.bindMethod
  rw [methods.closure, methods.isInitializer]
  refine (pushFrame_mirrors _).bind fun frame _ same => ?_
  subst same
  refine (defineIn_mirrors _ _ (.instance id)).bind fun _ _ _ => ?_
  exact makeFunction_mirrors origin within code _ _

theorem makeInstance_mirrors {owner other : ClassValue}
    (owners : ClassAlike likeness owner other) :
    Mirrors likeness Eq (Evaluation.makeInstance owner) (Evaluation.makeInstance other) :=
  fun _ _ alike => ⟨alike.instances.symm, alike.newInstance owners⟩

/-- A property of an instance is a field, or a method that has got its `this`. -/
theorem property_mirrors (id : Nat) {labels : Relabelling} (origin : likeness.origins labels)
    {name : Token} (among : labels.among name) :
    Mirrors likeness (ValueAlike likeness) (Evaluation.property id name)
      (Evaluation.property id (labels.token name)) := by
  have tokens := tokenAlike origin among
  refine Mirrors.get fun machine other alike => ?_
  rw [labels.lexeme]
  have target := alike.target id
  generalize machine.instances[id]? = left, other.instances[id]? = right at target ⊢
  cases target with
  | none => exact Mirrors.fail tokens _ machine other alike
  | @some target another targets =>
      have field := targets.fields name.lexeme
      have method := targets.owner.methods name.lexeme
      dsimp only [Option.bind_some]
      generalize target.fields[name.lexeme]? = left, another.fields[name.lexeme]? = right
        at field ⊢
      cases field with
      | some values => exact Mirrors.pure values machine other alike
      | none =>
          refine ((Mirrors.require tokens _ method).bind fun method another methods => ?_)
            machine other alike
          exact (bindMethod_mirrors methods id).bind fun _ _ bound =>
            Mirrors.pure (.function bound.1)

theorem setField_mirrors (id : Nat) {name other : Token} (same : other.lexeme = name.lexeme)
    {value another : Value} (values : ValueAlike likeness value another) :
    Mirrors likeness Eq (Evaluation.setField id name value)
      (Evaluation.setField id other another) := by
  intro machine second alike
  unfold Evaluation.setField
  rw [same]
  exact ⟨rfl, alike.setField id name.lexeme values⟩

theorem printValue_mirrors {value other : Value} (values : ValueAlike likeness value other) :
    Mirrors likeness Eq (Evaluation.printValue value) (Evaluation.printValue other) :=
  fun _ _ alike => ⟨rfl, alike.printed values⟩

theorem readClock_mirrors : Mirrors likeness Eq Evaluation.readClock Evaluation.readClock := by
  intro machine other alike
  refine ⟨?_, alike.takeReading⟩
  rw [alike.clock]

end Lox.Relabelled
