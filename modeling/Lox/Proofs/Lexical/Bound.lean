import Mathlib
import Lox.Proofs.Evaluation.Origin
import Lox.Proofs.Lexical.Session

/-!
Contract: recorded local names are bound wherever evaluation gets to.

Owns:
- `Point.Sound`: at a point, the machine corresponds to a store, and what is to be done is
  resolved in scopes that the current frame stands for;
- that whatever a sound point comes to is sound;
- that at sound points recorded names are bound, but for names that are assigned in their
  own initializer.
-/

namespace Lox.Lexical

open World
open Evaluation (Task Point Demands Reaches Halt)
open Scope (Scopes ResolvedExpression ResolvedExpressions ResolvedStatement ResolvedStatements)

/-! ### What is known at a point -/

/-- The only name that may be declared incompletely is the one whose initializer is under
way, in the innermost scope. -/
def Initializing (scopes : Scopes) (initialized : Option Token) : Prop :=
  ∀ name, scopes.complete? name = some false →
    scopes.innermost? name = some false ∧ ∃ declared, initialized = some declared ∧
      declared.lexeme = name ∧ name ≠ Keyword.this.spelling

theorem Initializing.ofSettled {scopes : Scopes} (settled : scopes.Settled)
    (initialized : Option Token) : Initializing scopes initialized :=
  fun name incomplete => absurd incomplete (settled name)

/-- What is to be done is resolved where the current frame stands. -/
def Fits (world : World) (frame : Nat) : Task → Prop
  | .expression initialized value =>
      ∃ scopes names, Visible world scopes frame names ∧ Initializing scopes initialized ∧
        ResolvedExpression world.recorded scopes value
  | .expressions initialized values =>
      ∃ scopes names, Visible world scopes frame names ∧ Initializing scopes initialized ∧
        ResolvedExpressions world.recorded scopes values
  | .assignment initialized id name _ =>
      ∃ scopes names, Visible world scopes frame names ∧ Initializing scopes initialized ∧
        world.recorded id (scopes.distance? name.lexeme)
  | .application callee _ arguments =>
      ∃ other others, ValueLike world callee other ∧
        List.Forall₂ (ValueLike world) arguments others
  | .call function _ arguments =>
      ∃ other others, FunctionLike world id function other ∧
        List.Forall₂ (ValueLike world) arguments others ∧ function.arity = arguments.length
  | .statement statement =>
      ∃ scopes place, Stands world scopes frame place ∧
        ResolvedStatement world.recorded scopes statement
  | .statements statements =>
      ∃ scopes place, Stands world scopes frame place ∧
        ResolvedStatements world.recorded scopes statements
  | .rounds condition body _ =>
      ∃ scopes place, Stands world scopes frame place ∧
        ResolvedExpression world.recorded scopes condition ∧ body.isDeclaration = false ∧
          ResolvedStatement world.recorded scopes body

/-- What is known at a point. -/
def Sound (point : Point) : Prop :=
  ∃ world store, Heap world point.machine store ∧
    Fits world point.machine.environment point.task

/-! ### What is known behind a part -/

section After

variable {α β : Type} {changing : Nat → Prop} {relation : World → α → β → Prop} {world : World}

/-- A computation that is done has left a machine that corresponds to a store. -/
theorem Simulates.after {machine later : Machine} {store : Store} {left : Evaluation.Eval α}
    {right : Eval β} {value : α}
    (simulates : Simulates changing relation world machine.environment left right)
    (heap : Heap world machine store) (done : left machine = .ok value later) :
    ∃ future final other, Grows changing world future ∧ Heap future later final ∧
      later.environment = machine.environment ∧ relation future value other := by
  have agree := simulates machine store heap rfl
  rw [done] at agree
  generalize right store = expected at agree
  cases expected with
  | ok other final =>
      obtain ⟨future, leaves, related⟩ := agree
      exact ⟨future, final, other, leaves.grows, leaves.heap, leaves.environment, related⟩
  | error => exact agree.elim

variable {machine later : Machine} {store : Store} {fuel : Nat}

/-- The same names are visible behind an expression, and the records are the same. -/
theorem after_expression {scopes : Scopes} {names : Names} {expression : Expression}
    {value : Lox.Value} (heap : Heap world machine store)
    (visible : Visible world scopes machine.environment names)
    (resolved : ResolvedExpression world.recorded scopes expression)
    (done : Evaluation.evaluate (Evaluation.invoke fuel) expression machine = .ok value later) :
    ∃ future final other, Grows nothing world future ∧ Heap future later final ∧
      Visible future scopes later.environment names ∧ ValueLike future value other ∧
        later.environment = machine.environment := by
  have seen : Visible world scopes machine.environment (Place.inside names).names := visible
  have simulates := evaluate_simulates (invoke_simulates fuel) seen expression resolved
  obtain ⟨future, final, other, grows, after, same, like⟩ := simulates.after heap done
  refine ⟨future, final, other, grows, after, ?_, like, same⟩
  rw [same]
  exact visible.grow grows

/-- The same holds of expressions. -/
theorem after_expressions {scopes : Scopes} {names : Names} {expressions : List Expression}
    {values : List Lox.Value} (heap : Heap world machine store)
    (visible : Visible world scopes machine.environment names)
    (resolved : ResolvedExpressions world.recorded scopes expressions)
    (done : Evaluation.evaluateAll (Evaluation.invoke fuel) expressions machine =
      .ok values later) :
    ∃ future final others, Grows nothing world future ∧ Heap future later final ∧
      List.Forall₂ (ValueLike future) values others := by
  have seen : Visible world scopes machine.environment (Place.inside names).names := visible
  have simulates := evaluateAll_simulates (invoke_simulates fuel) seen expressions resolved
  obtain ⟨future, final, others, grows, after, _, likes⟩ := simulates.after heap done
  exact ⟨future, final, others, grows, after, likes⟩

/-- The frame stands for the same place behind the condition of a statement. -/
theorem after_condition {scopes : Scopes} {place : Place} {condition : Expression}
    {value : Lox.Value} (heap : Heap world machine store)
    (stands : Stands world scopes machine.environment place)
    (resolved : ResolvedExpression world.recorded scopes condition)
    (done : Evaluation.evaluate (Evaluation.invoke fuel) condition machine = .ok value later) :
    ∃ future final, Grows nothing world future ∧ Heap future later final ∧
      Stands future scopes later.environment place := by
  obtain ⟨future, final, _, grows, after, _, _, same⟩ :=
    after_expression heap stands.visible resolved done
  refine ⟨future, final, grows, after, ?_⟩
  rw [same]
  exact stands.grow grows

/-- The frame stands for the place behind a statement. -/
theorem after_statement {scopes : Scopes} {place : Place} {statement : Statement}
    {completion : Evaluation.Completion} (heap : Heap world machine store)
    (stands : Stands world scopes machine.environment place)
    (resolved : ResolvedStatement world.recorded scopes statement)
    (done : Evaluation.execute (Evaluation.invoke fuel) fuel statement machine =
      .ok completion later) :
    ∃ future final behind, Grows (only machine.environment) world future ∧
      Heap future later final ∧ Stands future (scopes.behind statement) later.environment behind ∧
        (statement.isDeclaration = false → Stands future scopes later.environment place) := by
  obtain ⟨future, final, result, grows, after, same, ends⟩ :=
    (execute_simulates (invoke_simulates fuel) fuel stands statement resolved).after heap done
  rw [same]
  exact ⟨future, final, result.2, grows, after, ends.stands, ends.ofBranch⟩

end After

/-! ### Parts of what is done -/

/-- A name that is being declared: its cell is there already, and it alone is incomplete. -/
theorem Stands.declaring {world : World} {machine : Machine} {store : Store} {scopes : Scopes}
    {frame : Nat} {place : Place} {name : Token} (heap : Heap world machine store)
    (stands : Stands world scopes frame place) (free : scopes.Free name)
    (noThis : name.lexeme ≠ Keyword.this.spelling) :
    ∃ middle store names, Grows (only frame) world middle ∧ Heap middle machine store ∧
      Visible middle (scopes.declare name).1 frame names ∧
      Initializing (scopes.declare name).1 (some name) := by
  have settled := stands.settled
  cases stands with
  | outermost =>
      refine ⟨world, store, ∅, Grows.refl _ _, heap, Visible.outermost world _, ?_⟩
      exact Initializing.ofSettled settled _
  | @inside scope outer _ names isLocal made settled visible declared =>
      have new := declared name.lexeme free
      refine ⟨world.place frame name.lexeme store.cells.size,
        { store with cells := store.cells.push none },
        names.insert name.lexeme store.cells.size, place_grows store.cells.size new,
        heap.newCell made isLocal new, ?_, ?_⟩
      · rw [Scopes.declare_of_free free]
        exact visible.place store.cells.size new
      · rw [Scopes.declare_of_free free]
        intro other incomplete
        rw [Scopes.complete?_record] at incomplete
        rw [Scopes.innermost?_record]
        by_cases same : other = name.lexeme
        · rw [if_pos same]
          exact ⟨rfl, name, rfl, same.symm, same ▸ noThis⟩
        · rw [if_neg same] at incomplete
          exact absurd incomplete (settled other)

/-- The frame of a call stands for the place in which the body runs. -/
theorem openFrame_stands {world : World} {machine later : Machine} {store : Store}
    {function : FunctionValue} {other : FunctionValueOf Names} {arguments : List Lox.Value}
    {others : List Value} {frame : Nat} (heap : Heap world machine store)
    (like : FunctionLike world id function other)
    (likes : List.Forall₂ (ValueLike world) arguments others)
    (matching : function.arity = arguments.length)
    (opened : Evaluation.openFrame function arguments machine = .ok frame later) :
    ∃ future final scopes place, Heap future later final ∧ Stands future scopes frame place ∧
      ResolvedStatements future.recorded scopes function.declaration.body := by
  obtain ⟨scopes, settled, visible, resolved, _⟩ := like.captured
  obtain ⟨free, body⟩ := Scope.resolvedFunction_iff.mp resolved
  let inner := (Scopes.introduceAll ([] :: scopes) function.declaration.parameters).1
  have simulates : Simulates nothing
      (fun future frame names => Stands future inner frame (.inside names)) world
      machine.environment (Evaluation.openFrame function arguments)
      (bindParameters other.closure (function.declaration.parameters.zip others)) := by
    rw [← bind_pure (bindParameters _ _)]
    refine pushFrame_simulates like.closed fun machine store heap => ?_
    have new := push_grows function.closure heap.new
    refine (bindParameters_simulates (Stands.push heap settled visible) free
      (likes.imp fun _ _ related => related.grow new) matching).bind fun _ _ _ _ stands => ?_
    exact Simulates.pure stands
  obtain ⟨future, final, names, grows, after, _, stands⟩ := simulates.after heap opened
  exact ⟨future, final, inner, _, after, stands, ResolvedStatements.mono grows.recorded _ _ body⟩

/-- What a sound point comes to is sound. -/
theorem sound_of_demands {point next : Point} (demands : Demands point next)
    (sound : Sound point) : Sound next := by
  obtain ⟨world, store, heap, fits⟩ := sound
  cases demands with
  | grouping | operand | object =>
      exact ⟨world, store, heap, fits⟩
  | leftOperand | leftCondition | assignedValue | callee | changedObject | firstExpression =>
      obtain ⟨scopes, names, visible, initializing, resolved⟩ := fits
      exact ⟨world, store, heap, scopes, names, visible, initializing, resolved.1⟩
  | rightOperand done | rightCondition done | fieldValue done =>
      obtain ⟨scopes, names, visible, initializing, resolved⟩ := fits
      obtain ⟨future, final, other, grows, after, seen, _⟩ :=
        after_expression heap visible resolved.1 done
      exact ⟨future, final, after, scopes, names, seen, initializing,
        ResolvedExpression.mono grows.recorded _ _ resolved.2⟩
  | arguments done | nextExpressions done =>
      obtain ⟨scopes, names, visible, initializing, resolved⟩ := fits
      obtain ⟨future, final, other, grows, after, seen, _⟩ :=
        after_expression heap visible resolved.1 done
      exact ⟨future, final, after, scopes, names, seen, initializing,
        ResolvedExpressions.mono grows.recorded _ _ resolved.2⟩
  | assignment done =>
      obtain ⟨scopes, names, visible, initializing, resolved⟩ := fits
      obtain ⟨future, final, other, grows, after, seen, _⟩ :=
        after_expression heap visible resolved.1 done
      exact ⟨future, final, after, scopes, names, seen, initializing,
        grows.recorded _ _ resolved.2⟩
  | application called argued =>
      obtain ⟨scopes, names, visible, _, resolved⟩ := fits
      obtain ⟨middle, between, other, grows, atMiddle, seen, like, _⟩ :=
        after_expression heap visible resolved.1 called
      obtain ⟨future, final, others, more, after, likes⟩ := after_expressions atMiddle seen
        (ResolvedExpressions.mono grows.recorded _ _ resolved.2) argued
      exact ⟨future, final, after, other, others, like.grow more, likes⟩
  | function matching =>
      obtain ⟨_, others, like, likes⟩ := fits
      cases like with
      | function like => exact ⟨world, store, heap, _, others, like, likes, matching⟩
  | initializer matching present made bound =>
      obtain ⟨_, others, like, likes⟩ := fits
      cases like with
      | «class» like =>
          obtain ⟨_, between, _, grows, atMiddle, _, rfl, rfl⟩ :=
            Simulates.after (show Simulates nothing _ _ _ _ _ from makeInstance_simulates like)
              heap made
          have method := like.initializer?
          rw [present] at method
          generalize ClassValueOf.initializer? _ = other at method
          cases method with
          | some like =>
              obtain ⟨future, final, another, more, after, _, alike, same⟩ :=
                Simulates.after (show Simulates nothing _ _ _ _ _ from bindMethod_simulates like _)
                  atMiddle bound
              refine ⟨future, final, after, another, others, alike,
                likes.imp fun _ _ related => related.grow more, ?_⟩
              rw [← matching]
              unfold ClassValueOf.arity FunctionValueOf.arity
              rw [present, same]
              rfl
  | @body _ _ _ _ _ frame later _ opened =>
      obtain ⟨_, others, like, likes, matching⟩ := fits
      obtain ⟨future, final, scopes, place, after, stands, resolved⟩ :=
        openFrame_stands heap like likes matching opened
      have deeper := (after.setDepth (later.depth + 1)).setEnvironment frame
      exact ⟨future, _, deeper, scopes, place, stands, resolved⟩
  | expression | printed | returned =>
      obtain ⟨scopes, place, stands, resolved⟩ := fits
      exact ⟨world, store, heap, scopes, place.names, stands.visible,
        Initializing.ofSettled stands.settled _, resolved⟩
  | condition =>
      obtain ⟨scopes, place, stands, resolved⟩ := fits
      exact ⟨world, store, heap, scopes, place.names, stands.visible,
        Initializing.ofSettled stands.settled _, (Scope.resolvedConditional resolved).1⟩
  | loopCondition =>
      obtain ⟨scopes, place, stands, resolved, _⟩ := fits
      exact ⟨world, store, heap, scopes, place.names, stands.visible,
        Initializing.ofSettled stands.settled _, resolved⟩
  | initialValue =>
      obtain ⟨scopes, place, stands, free, resolved⟩ := fits
      obtain ⟨middle, between, names, grows, atMiddle, seen, initializing⟩ :=
        stands.declaring heap free.1 free.2
      exact ⟨middle, between, atMiddle, _, names, seen, initializing,
        ResolvedExpression.mono grows.recorded _ _ resolved⟩
  | block =>
      obtain ⟨scopes, place, stands, resolved⟩ := fits
      have pushed := heap.push (stands.lt heap)
      have inside := Stands.push heap stands.settled stands.visible
      rw [← heap.size] at inside
      exact ⟨_, store, pushed.setEnvironment _, _, _, inside, resolved⟩
  | thenBranch done =>
      obtain ⟨scopes, place, stands, resolved⟩ := fits
      obtain ⟨future, final, grows, after, standing⟩ :=
        after_condition heap stands (Scope.resolvedConditional resolved).1 done
      exact ⟨future, final, after, scopes, place, standing,
        ResolvedStatement.mono grows.recorded _ _ (Scope.resolvedConditional resolved).2⟩
  | elseBranch done =>
      obtain ⟨scopes, place, stands, resolved⟩ := fits
      obtain ⟨future, final, grows, after, standing⟩ :=
        after_condition heap stands resolved.1 done
      exact ⟨future, final, after, scopes, place, standing,
        ResolvedStatement.mono grows.recorded _ _ resolved.2.2.2⟩
  | loop =>
      obtain ⟨scopes, place, stands, resolved⟩ := fits
      exact ⟨world, store, heap, scopes, place, stands, resolved⟩
  | loopBody done =>
      obtain ⟨scopes, place, stands, condition, _, body⟩ := fits
      obtain ⟨future, final, grows, after, standing⟩ := after_condition heap stands condition done
      exact ⟨future, final, after, scopes, place, standing,
        ResolvedStatement.mono grows.recorded _ _ body⟩
  | nextRound evaluated _ done =>
      obtain ⟨scopes, place, stands, condition, noDeclaration, body⟩ := fits
      obtain ⟨middle, between, grows, atMiddle, standing⟩ :=
        after_condition heap stands condition evaluated
      obtain ⟨future, final, _, more, after, _, kept⟩ := after_statement atMiddle standing
        (ResolvedStatement.mono grows.recorded _ _ body) done
      have known := fun id record tells => more.recorded id record (grows.recorded id record tells)
      exact ⟨future, final, after, scopes, place, kept noDeclaration,
        ResolvedExpression.mono known _ _ condition, noDeclaration,
        ResolvedStatement.mono known _ _ body⟩
  | firstStatement =>
      obtain ⟨scopes, place, stands, resolved⟩ := fits
      exact ⟨world, store, heap, scopes, place, stands, resolved.1⟩
  | nextStatements done =>
      obtain ⟨scopes, place, stands, resolved⟩ := fits
      obtain ⟨future, final, behind, grows, after, standing, _⟩ :=
        after_statement heap stands resolved.1 done
      exact ⟨future, final, after, _, behind, standing,
        ResolvedStatements.mono grows.recorded _ _ resolved.2⟩

/-- By induction on the points on the way. -/
theorem sound_of_reaches {point last : Point} (reaches : Reaches point last)
    (sound : Sound point) : Sound last := by
  induction reaches with
  | refl => exact sound
  | tail _ demands inductionHypothesis => exact sound_of_demands demands inductionHypothesis

/-! ### Names at sound points -/

section Names

variable {world : World} {machine : Machine} {store : Store} {scopes : Scopes} {names : Names}
  {id distance : Nat} {name : Token}

/-- A local name has a frame, at the distance recorded for it. If it is declared completely,
that frame binds it. -/
theorem owner_of_recorded (heap : Heap world machine store)
    (visible : Visible world scopes machine.environment names)
    (known : world.recorded id (scopes.distance? name.lexeme))
    (isLocal : machine.locals[id]? = some distance) :
    ∃ owner, machine.frames.ancestor? machine.environment distance = some owner ∧
      (scopes.complete? name.lexeme = some true →
        (machine.frames.lookup? owner name.lexeme).isSome) := by
  rw [heap.recorded _ _ known] at isLocal
  obtain ⟨owner, cell, leads, stands, _, full⟩ := visible.ofLocal isLocal
  refine ⟨owner, (heap.ancestor _ _).trans leads, fun complete => ?_⟩
  have holds := heap.filled cell (full complete)
  have content := (heap.content _ _ _ stands).2.2
  generalize machine.frames.lookup? owner name.lexeme = left, store.cells[cell]?.join = right
    at content holds
  cases content with
  | none => cases holds
  | some => rfl

/-- A local name is declared, completely or not. -/
theorem complete_or_not (heap : Heap world machine store)
    (known : world.recorded id (scopes.distance? name.lexeme))
    (isLocal : machine.locals[id]? = some distance) :
    scopes.complete? name.lexeme = some true ∨ scopes.complete? name.lexeme = some false := by
  rw [heap.recorded _ _ known] at isLocal
  have declared := scopes.distance?_isSome name.lexeme
  rw [isLocal] at declared
  obtain ⟨complete, found⟩ := Option.isSome_iff_exists.mp declared.symm
  rw [found]
  cases complete
  · exact Or.inr rfl
  · exact Or.inl rfl

end Names

/-- The frame at the distance recorded for an occurrence of a name binds it, and so the name
can be looked up. -/
def Readable (machine : Machine) (id : Nat) (name : Token) : Prop :=
  ∀ distance, machine.locals[id]? = some distance →
    ∃ owner value, machine.frames.ancestor? machine.environment distance = some owner ∧
      machine.frames.lookup? owner name.lexeme = some value ∧
      Evaluation.lookUp id name machine = .ok value machine

/-- There is a frame at the distance recorded for an occurrence of a name. It binds the name,
and so the name can be assigned, unless the occurrence is in the initializer of that name
and the frame is the current one. -/
def Writable (machine : Machine) (initialized : Option Token) (id : Nat) (name : Token) : Prop :=
  ∀ distance, machine.locals[id]? = some distance →
    ∃ owner, machine.frames.ancestor? machine.environment distance = some owner ∧
      ((machine.frames.lookup? owner name.lexeme).isSome ∧
          (∀ value, Evaluation.assign id name value machine =
            .ok () { machine with frames := machine.frames.define owner name.lexeme value }) ∨
        distance = 0 ∧ ∃ declared, initialized = some declared ∧ declared.lexeme = name.lexeme)

/-- At a point at which a recorded name is used, it is bound. -/
def Bound (point : Point) : Prop :=
  match point.task with
  | .expression _ (.variable id name) | .expression _ (.this id name) =>
      Readable point.machine id name
  | .expression initialized (.assign id name _) | .assignment initialized id name _ =>
      Writable point.machine initialized id name
  | _ => True

section Names

variable {world : World} {machine : Machine} {store : Store} {scopes : Scopes} {names : Names}
  {id : Nat} {name : Token} {initialized : Option Token}

theorem readable (heap : Heap world machine store)
    (visible : Visible world scopes machine.environment names)
    (known : world.recorded id (scopes.distance? name.lexeme))
    (complete : scopes.complete? name.lexeme ≠ some false) : Readable machine id name := by
  intro distance isLocal
  obtain ⟨owner, leads, bound⟩ := owner_of_recorded heap visible known isLocal
  have whole := (complete_or_not heap known isLocal).resolve_right complete
  obtain ⟨value, found⟩ := Option.isSome_iff_exists.mp (bound whole)
  refine ⟨owner, value, leads, found, ?_⟩
  rw [Evaluation.lookUp_of_local isLocal, machine.frames.getAt?_of_ancestor leads, found]
  rfl

theorem writable (heap : Heap world machine store)
    (visible : Visible world scopes machine.environment names)
    (initializing : Initializing scopes initialized)
    (known : world.recorded id (scopes.distance? name.lexeme)) :
    Writable machine initialized id name := by
  intro distance isLocal
  obtain ⟨owner, leads, bound⟩ := owner_of_recorded heap visible known isLocal
  refine ⟨owner, leads, ?_⟩
  rcases complete_or_not heap known isLocal with complete | incomplete
  · refine Or.inl ⟨bound complete, fun value => Evaluation.assign_of_owner isLocal ?_ value⟩
    rw [machine.frames.owner?_of_ancestor leads, if_pos (bound complete)]
  · obtain ⟨innermost, declared, same, spelled, _⟩ := initializing name.lexeme incomplete
    have here := scopes.distance?_of_innermost (Option.isSome_of_eq_some innermost)
    have recorded := heap.recorded _ _ known
    rw [isLocal, here] at recorded
    exact Or.inr ⟨Option.some.inj recorded, declared, same, spelled⟩

end Names

/-- Recorded names are bound at sound points. -/
theorem Sound.bound {point : Point} (sound : Sound point) : Bound point := by
  obtain ⟨fuel, task, machine⟩ := point
  obtain ⟨world, store, heap, fits⟩ := sound
  unfold Bound
  dsimp only
  split
  case h_1 =>
      obtain ⟨scopes, names, visible, initializing, notYet, known⟩ := fits
      refine readable heap visible known fun incomplete => ?_
      exact notYet (initializing _ incomplete).1
  case h_2 =>
      obtain ⟨scopes, names, visible, initializing, spelled, known⟩ := fits
      refine readable heap visible known fun incomplete => ?_
      obtain ⟨_, _, _, _, noThis⟩ := initializing _ incomplete
      exact noThis spelled
  case h_3 =>
      obtain ⟨scopes, names, visible, initializing, _, known⟩ := fits
      exact writable heap visible initializing known
  case h_4 =>
      obtain ⟨scopes, names, visible, initializing, known⟩ := fits
      exact writable heap visible initializing known
  case h_5 => trivial

/-- A bound point at which a name is missing is the assignment of a name in its own
initializer, in the frame of its declaration. -/
theorem Bound.misses {point : Point} (bound : Bound point) {missed : Token}
    (misses : point.Misses missed) :
    ∃ declared id value, point.task = .assignment (some declared) id missed value ∧
      declared.lexeme = missed.lexeme ∧ point.machine.locals[id]? = some 0 := by
  obtain ⟨fuel, task, machine⟩ := point
  unfold Bound at bound
  unfold Point.Misses at misses
  dsimp only at bound misses
  split at misses
  case h_1 | h_2 =>
      obtain ⟨rfl, distance, isLocal, absent⟩ := misses
      obtain ⟨owner, value, leads, found, _⟩ := bound distance isLocal
      rw [machine.frames.getAt?_of_ancestor leads, found] at absent
      cases absent
  case h_3 initialized id name value =>
      obtain ⟨rfl, distance, isLocal, absent⟩ := misses
      obtain ⟨owner, leads, ⟨found, _⟩ | ⟨rfl, declared, rfl, same⟩⟩ := bound distance isLocal
      · rw [machine.frames.owner?_of_ancestor leads, if_pos found] at absent
        cases absent
      · exact ⟨declared, id, value, rfl, same, isLocal⟩
  case h_4 => exact misses.elim

/-! ### Sessions -/

/-- A unit that fails at runtime has been accepted, and its statements stop. -/
theorem halts_of_failed {session : Lox.Session} {fuel : Nat} {source : String}
    {error : Evaluation.RuntimeError} (failed : (session.run fuel source).1 = .failed error) :
    ∃ program table next, AcceptedUnit source session.nextId program table next ∧
      Point.Halts ⟨fuel, .statements program, session.machine.addLocals table⟩
        (.fault error) := by
  rcases session.run_cases source with ⟨_, _, _, refused⟩ | ⟨program, table, next, unit⟩
  · rw [refused] at failed
    cases failed
  · refine ⟨program, table, next, unit, ?_⟩
    rw [Lox.Session.run_of_accepted unit] at failed
    unfold Lox.Session.execute at failed
    dsimp only at failed
    cases result : Evaluation.interpret fuel program (session.machine.addLocals table) with
    | ok _ final =>
        rw [result] at failed
        cases failed
    | error halt final =>
        rw [result] at failed
        cases halt with
        | outOfFuel => cases failed
        | fault found =>
            cases failed
            rcases Evaluation.bind_error result with early | ⟨_, _, _, late⟩
            · exact ⟨final, early⟩
            · cases late

/-- A unit that is accepted starts at a sound point. -/
theorem Corresponds.sound {world : World} {session : Lox.Session} {other : Session}
    (corresponds : Corresponds world session other) {source : String} {program : List Statement}
    {table : Scope.Locals} {next : Nat}
    (unit : AcceptedUnit source session.nextId program table next) (fuel : Nat) :
    Sound ⟨fuel, .statements program, session.machine.addLocals table⟩ := by
  obtain ⟨heap, _, resolved, _⟩ := corresponds.enter unit
  have outermost : (session.machine.addLocals table).environment = world.globals :=
    corresponds.outermost
  refine ⟨_, other.store, heap, [], .outermost, ?_, resolved⟩
  show Stands _ [] (session.machine.addLocals table).environment .outermost
  rw [outermost]
  exact Stands.outermost

/-- Running a unit in a session gets to a point. -/
def Visits (session : Lox.Session) (fuel : Nat) (source : String) (point : Point) : Prop :=
  ∃ program table next, AcceptedUnit source session.nextId program table next ∧
    Reaches ⟨fuel, .statements program, session.machine.addLocals table⟩ point

/-- Recorded local names are always bound. Whatever a session has done before, and wherever
evaluation gets to, the frame at the distance recorded for a name is there and binds the
name, but for names that are assigned in their own initializer. A unit that fails at a local
name that is not bound has come to such an assignment. -/
theorem recorded_locals_are_bound (output : Output) (time : Nat → Float)
    (requests : List Request) (fuel : Nat) (source : String) :
    let session := ((Lox.Session.start output time).serveAll requests).2
    (∀ point, Visits session fuel source point → Bound point) ∧
      ∀ name text, (session.run fuel source).1 = .failed ⟨name, .unboundLocal text⟩ →
        ∃ point declared id value, Visits session fuel source point ∧
          point.task = .assignment (some declared) id name value ∧
          declared.lexeme = name.lexeme ∧ point.machine.locals[id]? = some 0 := by
  intro session
  obtain ⟨_, world, corresponds⟩ := (Corresponds.start output time).serveAll requests
  have bound : ∀ point, Visits session fuel source point → Bound point := by
    rintro point ⟨program, table, next, unit, reaches⟩
    exact (sound_of_reaches reaches (corresponds.sound unit fuel)).bound
  refine ⟨bound, fun name text failed => ?_⟩
  obtain ⟨program, table, next, unit, halts⟩ := halts_of_failed failed
  obtain ⟨point, reaches, misses⟩ := Evaluation.reaches_missing halts
  have visits : Visits session fuel source point := ⟨program, table, next, unit, reaches⟩
  obtain ⟨declared, id, value, task, same, isLocal⟩ := (bound point visits).misses misses
  exact ⟨point, declared, id, value, visits, task, same, isLocal⟩

/-- A name that is looked up behind its declaration is bound, and the assignment of a name in
its own initializer is where a unit may fail. -/
theorem bound_in_blocks :
    let session := ((Lox.Session.start (.open #[]) fun _ => 0).serveAll []).2
    let name : Token := ⟨.identifier, "a", 1⟩
    (∃ machine, Visits session 1 "{var a;a;}" ⟨1, .expression none (.variable 0 name), machine⟩ ∧
      machine.locals[0]? = some 0 ∧ Readable machine 0 name) ∧
    (session.run 1 "{var a = a = nil;}").1 = .failed ⟨name, .unboundLocal "a"⟩ ∧
      ∃ point declared id value, Visits session 1 "{var a = a = nil;}" point ∧
        point.task = .assignment (some declared) id name value ∧
        declared.lexeme = name.lexeme ∧ point.machine.locals[id]? = some 0 := by
  intro session name
  constructor
  · have unit : AcceptedUnit "{var a;a;}" session.nextId
        [.block [.var name none, .expression (.variable 0 name)]]
        ((∅ : Scope.Locals).insert 0 0) 1 := ⟨by cbv, rfl⟩
    have visits : Visits session 1 "{var a;a;}" ⟨1, .expression none (.variable 0 name), _⟩ :=
      ⟨_, _, _, unit, .head .firstStatement (.head .block (.head (.nextStatements rfl)
        (.head .firstStatement (.head .expression .refl))))⟩
    exact ⟨_, visits, rfl,
      (recorded_locals_are_bound (.open #[]) (fun _ => 0) [] 1 "{var a;a;}").1 _ visits⟩
  · have unit : AcceptedUnit "{var a = a = nil;}" session.nextId
        [.block [.var name (some (.assign 2 name (.literal 1 .nil)))]]
        ((∅ : Scope.Locals).insert 2 0) 3 := ⟨by cbv, rfl⟩
    have failed : (session.run 1 "{var a = a = nil;}").1 = .failed ⟨name, .unboundLocal "a"⟩ := by
      rw [Lox.Session.run_of_accepted unit]
      rfl
    exact ⟨failed, (recorded_locals_are_bound (.open #[]) (fun _ => 0) [] 1
      "{var a = a = nil;}").2 name "a" failed⟩

end Lox.Lexical
