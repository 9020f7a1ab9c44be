import Lox.Proofs.Lexical.Names

/-!
Contract: functions, classes and instances of a machine, and the same ones of a store.

Owns: that making functions, methods and instances corresponds, and so does every access to
an instance, printing and reading the clock.
-/

namespace Lox.Lexical

open World
open Scope (Scopes ResolvedFunction ResolvedMethods)

variable {changing : Nat → Prop} {world : World} {scopes : Scopes} {frame : Nat}

/-- Results are alike, and the world has not grown. -/
abbrev Still {α β : Type} (world : World) (relation : α → β → Prop) : World → α → β → Prop :=
  fun future value other => future = world ∧ relation value other

/-! ### Functions and classes -/

/-- Both sides hand out the same identities. -/
theorem freshIdentity_simulates :
    Simulates changing (Still world Eq) world frame Evaluation.freshIdentity freshIdentity :=
  fun _ _ heap _ =>
    ⟨world, ⟨Grows.refl _ _, heap.takeIdentity, rfl, rfl, rfl⟩, rfl, heap.nextIdentity⟩

theorem makeFunction_simulates {declaration : FunctionDeclaration} {closure : Nat} {names : Names}
    {isInitializer : Bool} {relation : World → FunctionValue → FunctionValueOf Names → Prop}
    (related : ∀ identity, relation world ⟨identity, declaration, closure, isInitializer⟩
      ⟨identity, declaration, names, isInitializer⟩) :
    Simulates changing relation world frame
      (Evaluation.makeFunction declaration closure isInitializer)
      (makeFunction declaration names isInitializer) := by
  refine freshIdentity_simulates.bind fun future identity other _ same => ?_
  obtain ⟨rfl, rfl⟩ := same
  exact Simulates.pure (related identity)

/-- A method closes over a frame in which there is no `this` yet. -/
theorem FunctionLike.ofMethod {declaration : FunctionDeclaration} {names : Names}
    (closed : frame < world.size) (settled : scopes.Settled)
    (visible : Visible world scopes frame names)
    (resolved : ResolvedFunction world.recorded scopes.withThis declaration)
    (isInitializer : Bool) (identity : Nat) :
    FunctionLike world Scopes.withThis ⟨identity, declaration, frame, isInitializer⟩
      ⟨identity, declaration, names, isInitializer⟩ where
  identity := rfl
  declaration := rfl
  isInitializer := rfl
  closed := closed
  captured := ⟨scopes, settled, visible, resolved, fun _ => by
    simp [Scopes.withThis, Scopes.distance?, List.findIdx?_cons]⟩

/-- Methods by name are alike. A method that is not bound has no `this` yet. -/
def MethodsLike (world : World) (methods : Bindings FunctionValue)
    (others : Bindings (FunctionValueOf Names)) : Prop :=
  ∀ name : String, Option.Rel (FunctionLike world Scopes.withThis) methods[name]? others[name]?

theorem MethodsLike.insert {methods : Bindings FunctionValue}
    {others : Bindings (FunctionValueOf Names)} (likes : MethodsLike world methods others)
    (name : String) {method : FunctionValue} {other : FunctionValueOf Names}
    (like : FunctionLike world Scopes.withThis method other) :
    MethodsLike world (methods.insert name method) (others.insert name other) := by
  intro found
  rw [Std.ExtTreeMap.getElem?_insert, Std.ExtTreeMap.getElem?_insert]
  split
  · exact .some like
  · exact likes found

/-- The methods of a class are alike in the world `there` in which their scopes are right. -/
theorem addMethods_simulates {there : World} {names : Names}
    {declarations : List FunctionDeclaration} {methods : Bindings FunctionValue}
    {others : Bindings (FunctionValueOf Names)} (closed : frame < there.size)
    (settled : scopes.Settled) (visible : Visible there scopes frame names)
    (resolved : ResolvedMethods there.recorded scopes.withThis declarations)
    (likes : MethodsLike there methods others) :
    Simulates changing (Still world (MethodsLike there)) world frame
      (declarations.foldlM (fun methods declaration => do
        let method ← Evaluation.makeFunction declaration frame
          (declaration.name.lexeme == initializerName)
        return methods.insert declaration.name.lexeme method) methods)
      (declarations.foldlM (fun others declaration => do
        let method ← makeFunction declaration names
          (declaration.name.lexeme == initializerName)
        return others.insert declaration.name.lexeme method) others) := by
  induction declarations generalizing methods others with
  | nil => exact Simulates.pure ⟨rfl, likes⟩
  | cons declaration declarations inductionHypothesis =>
      have like := FunctionLike.ofMethod closed settled visible resolved.1
      rw [List.foldlM_cons, List.foldlM_cons]
      refine Simulates.bind
        (?_ : Simulates changing (Still world (MethodsLike there)) world frame _ _) ?_
      · refine Simulates.bind
          (?_ : Simulates changing (Still world (FunctionLike there Scopes.withThis)) world frame
            _ _) ?_
        · exact makeFunction_simulates fun identity => ⟨rfl, like _ identity⟩
        rintro future method other _ ⟨rfl, like⟩
        exact Simulates.pure ⟨rfl, likes.insert _ like⟩
      · rintro future methods others _ ⟨rfl, likes⟩
        exact inductionHypothesis resolved.2 likes

theorem makeMethods_simulates {there : World} {names : Names}
    {declarations : List FunctionDeclaration} (closed : frame < there.size)
    (settled : scopes.Settled) (visible : Visible there scopes frame names)
    (resolved : ResolvedMethods there.recorded scopes.withThis declarations) :
    Simulates changing (Still world (MethodsLike there)) world frame
      (Evaluation.makeMethods declarations) (makeMethods names declarations) := by
  intro machine store heap here
  have none : MethodsLike there ∅ ∅ := fun name => by simp
  subst here
  exact addMethods_simulates closed settled visible resolved none machine store heap rfl

/-- A method that has got its `this`. -/
theorem bindMethod_simulates {method : FunctionValue} {other : FunctionValueOf Names}
    (like : FunctionLike world Scopes.withThis method other) (target : Nat) :
    Simulates changing
      (fun future bound another => FunctionLike future id bound another ∧
        bound.declaration = method.declaration)
      world frame (Evaluation.bindMethod method target) (bindMethod other target) := by
  obtain ⟨scopes, settled, visible, resolved, receiver⟩ := like.captured
  unfold Evaluation.bindMethod bindMethod
  refine pushFrame_simulates like.closed fun machine store heap => ?_
  have stands := Stands.push heap settled visible
  let keyword : Token := ⟨.keyword .this, Keyword.this.spelling, 0⟩
  have free : Scopes.Free ([] :: scopes) keyword := Scopes.innermost?_push scopes _
  refine (newBound_simulates stands free (.instance target)).bind
    fun future _ cell grows inside => ?_
  rw [← like.declaration, ← like.isInitializer]
  refine makeFunction_simulates fun identity =>
    ⟨⟨rfl, rfl, rfl, ?_, scopes.withThis, ?_⟩, rfl⟩
  · exact Nat.lt_of_lt_of_le (Nat.lt_succ_self _) grows.size
  · have seen : Visible future scopes.withThis world.size _ := inside.visible.congr
      (fun name => (Scopes.distance?_introduce free name).symm)
      (fun name => (Scopes.complete?_introduce free name).symm)
    exact ⟨settled.withThis, seen, ResolvedFunction.mono grows.recorded _ _ resolved, receiver⟩

/-! ### Instances -/

theorem ClassLike.initializer? {owner : ClassValue} {other : ClassValueOf Names}
    (like : ClassLike world owner other) :
    Option.Rel (FunctionLike world Scopes.withThis) owner.initializer? other.initializer? :=
  like.methods initializerName

theorem FunctionLike.arity {around : Scopes → Scopes} {function : FunctionValue}
    {other : FunctionValueOf Names} (like : FunctionLike world around function other) :
    function.arity = other.arity := by
  unfold FunctionValueOf.arity
  rw [like.declaration]

theorem ClassLike.arity {owner : ClassValue} {other : ClassValueOf Names}
    (like : ClassLike world owner other) : owner.arity = other.arity := by
  unfold ClassValueOf.arity
  have initializer := like.initializer?
  generalize owner.initializer? = left, other.initializer? = right at initializer ⊢
  cases initializer with
  | none => rfl
  | some like => simp [like.arity]

theorem makeInstance_simulates {owner : ClassValue} {other : ClassValueOf Names}
    (like : ClassLike world owner other) :
    Simulates changing (Still world Eq) world frame (Evaluation.makeInstance owner)
      (makeInstance other) :=
  fun _ _ heap _ =>
    ⟨world, ⟨Grows.refl _ _, heap.newInstance like, rfl, rfl, rfl⟩, rfl, heap.instances⟩

/-- A property of an instance is a field, or a method that has got its `this`. -/
theorem property_simulates (id : Nat) (name : Token) :
    Simulates changing ValueLike world frame (Evaluation.property id name) (property id name) := by
  refine Simulates.get fun machine store heap here => ?_
  have target := heap.target id
  generalize machine.instances[id]? = left, store.instances[id]? = right at target ⊢
  cases target with
  | none => exact Simulates.fail name _ machine store heap here
  | @some target other like =>
      have field := like.fields name.lexeme
      have method := like.owner.methods name.lexeme
      dsimp only [Option.bind_some]
      generalize target.fields[name.lexeme]? = left, other.fields[name.lexeme]? = right
        at field ⊢
      cases field with
      | some like => exact Simulates.pure like machine store heap here
      | none =>
          generalize target.owner.methods[name.lexeme]? = left,
            other.owner.methods[name.lexeme]? = right at method ⊢
          cases method with
          | none => exact Simulates.fail name _ machine store heap here
          | @some method other like =>
              have bound : Simulates changing ValueLike world frame
                  (do return .function (← Evaluation.bindMethod method id))
                  (do return .function (← bindMethod other id)) :=
                (bindMethod_simulates like id).bind fun _ _ _ _ bound =>
                  Simulates.pure (.function bound.1)
              exact bound machine store heap here

theorem setField_simulates (id : Nat) (name : Token) {value : Lox.Value} {other : Value}
    (like : ValueLike world value other) :
    Simulates changing (Still world Eq) world frame (Evaluation.setField id name value)
      (setField id name other) :=
  fun _ _ heap _ =>
    ⟨world, ⟨Grows.refl _ _, heap.setField id name.lexeme like, rfl, rfl, rfl⟩, rfl, rfl⟩

/-! ### Output and time -/

theorem printValue_simulates {value : Lox.Value} {other : Value}
    (like : ValueLike world value other) :
    Simulates changing (Still world Eq) world frame (Evaluation.printValue value)
      (printValue other) :=
  fun _ _ heap _ => ⟨world, ⟨Grows.refl _ _, heap.print like, rfl, rfl, rfl⟩, rfl, rfl⟩

theorem readClock_simulates :
    Simulates changing (Still world Eq) world frame Evaluation.readClock readClock :=
  fun machine store heap _ =>
    ⟨world, ⟨Grows.refl _ _, heap.takeReading, rfl, rfl, rfl⟩, rfl, by
      show machine.clock.time machine.clock.taken = store.clock.time store.clock.taken
      rw [heap.clock]⟩

end Lox.Lexical
