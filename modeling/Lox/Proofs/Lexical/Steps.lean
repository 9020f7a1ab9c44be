import Lox.Proofs.Lexical.Heap

/-!
Contract: the steps that evaluation is made of, on a machine and on a corresponding store.

Owns:
- `Simulates`: two computations end alike from corresponding states, and leave
  corresponding states;
- how it composes, and that each basic step satisfies it.

Does not own: the constructs of the language.
-/

namespace Lox.Lexical

open World
open Evaluation (Halt)
open Scope (Scopes)

/-- What a computation of the machine leaves behind. The machine stands where it stood, and
a store corresponds to it in a grown world. -/
structure Leaves (changing : Nat → Prop) (world : World) (machine : Machine) (future : World)
    (final : Machine) (store : Store) : Prop where
  grows : Grows changing world future
  heap : Heap future final store
  recorded : future.recorded = world.recorded
  environment : final.environment = machine.environment
  locals : final.locals = machine.locals

namespace Leaves

variable {world middle future : World} {machine between final : Machine}
  {other store : Store} {changing : Nat → Prop}

theorem refl (heap : Heap world machine store) :
    Leaves changing world machine world machine store :=
  ⟨Grows.refl _ _, heap, rfl, rfl, rfl⟩

theorem trans (first : Leaves changing world machine middle between other)
    (second : Leaves changing middle between future final store) :
    Leaves changing world machine future final store where
  grows := first.grows.trans second.grows
  heap := second.heap
  recorded := second.recorded.trans first.recorded
  environment := second.environment.trans first.environment
  locals := second.locals.trans first.locals

theorem weaken (leaves : Leaves changing world machine future final store) {more : Nat → Prop}
    (implies : ∀ frame, changing frame → more frame) :
    Leaves more world machine future final store :=
  { leaves with grows := leaves.grows.weaken implies }

end Leaves

/-- Two results agree: both are values that are alike, or both are the same halt. -/
def Agree {α β : Type} (changing : Nat → Prop) (relation : World → α → β → Prop) (world : World)
    (machine : Machine) :
    EStateM.Result Halt Machine α → EStateM.Result Halt Store β → Prop
  | .ok value final, .ok other store =>
      ∃ future, Leaves changing world machine future final store ∧ relation future value other
  | .error halt final, .error cause store =>
      halt = cause ∧ ∃ future, Leaves changing world machine future final store
  | _, _ => False

/-- A computation in a frame and one on a store end alike from corresponding states. -/
def Simulates {α β : Type} (changing : Nat → Prop) (relation : World → α → β → Prop)
    (world : World) (frame : Nat) (left : Evaluation.Eval α) (right : Eval β) : Prop :=
  ∀ machine store, Heap world machine store → machine.environment = frame →
    Agree changing relation world machine (left machine) (right store)

/-- Agreement carries over to another account of what is left. -/
theorem Agree.imp {α β : Type} {changing more : Nat → Prop}
    {relation weaker : World → α → β → Prop} {world earlier : World} {machine before : Machine}
    {left : EStateM.Result Halt Machine α} {right : EStateM.Result Halt Store β}
    (agree : Agree changing relation world machine left right)
    (leaves : ∀ future final store, Leaves changing world machine future final store →
      Leaves more earlier before future final store)
    (related : ∀ future value other, Grows changing world future →
      relation future value other → weaker future value other) :
    Agree more weaker earlier before left right := by
  cases left with
  | ok value final =>
      cases right with
      | ok other store =>
          obtain ⟨future, left, like⟩ := agree
          exact ⟨future, leaves _ _ _ left, related _ _ _ left.grows like⟩
      | error => exact agree
  | error halt final =>
      cases right with
      | ok => exact agree
      | error cause store =>
          obtain ⟨same, future, left⟩ := agree
          exact ⟨same, future, leaves _ _ _ left⟩

/-- What follows a computation goes on from what that leaves. -/
theorem Agree.trans {α β : Type} {changing : Nat → Prop}
    {relation : World → α → β → Prop} {world future : World} {machine final : Machine}
    {store : Store} {left : EStateM.Result Halt Machine α} {right : EStateM.Result Halt Store β}
    (leaves : Leaves changing world machine future final store)
    (agree : Agree changing relation future final left right) :
    Agree changing relation world machine left right :=
  agree.imp (fun _ _ _ further => leaves.trans further) fun _ _ _ _ related => related

/-! ### Composition -/

namespace Simulates

variable {α β γ δ : Type} {changing more : Nat → Prop} {world : World} {frame : Nat}
  {relation weaker : World → α → β → Prop} {following : World → γ → δ → Prop}
  {left : Evaluation.Eval α} {right : Eval β}

theorem pure {value : α} {other : β} (related : relation world value other) :
    Simulates changing relation world frame (Pure.pure value) (Pure.pure other) :=
  fun _ _ heap _ => ⟨world, Leaves.refl heap, related⟩

theorem throw (halt : Halt) :
    Simulates changing relation world frame (throwThe Halt halt) (throwThe Halt halt) :=
  fun _ _ heap _ => ⟨rfl, world, Leaves.refl heap⟩

theorem fail (token : Token) (fault : Evaluation.RuntimeFault) :
    Simulates changing relation world frame (Evaluation.fail token fault)
      (Evaluation.fail token fault) :=
  Simulates.throw _

theorem bind (first : Simulates changing relation world frame left right)
    {next : α → Evaluation.Eval γ} {further : β → Eval δ}
    (second : ∀ future value other, Grows changing world future → relation future value other →
      Simulates changing following future frame (next value) (further other)) :
    Simulates changing following world frame (left >>= next) (right >>= further) := by
  intro machine store heap here
  have agree := first machine store heap here
  show Agree _ _ _ _ (EStateM.bind left next machine) (EStateM.bind right further store)
  unfold EStateM.bind
  generalize left machine = result, right store = expected at agree
  cases result with
  | ok value final =>
      cases expected with
      | ok other after =>
          obtain ⟨future, leaves, related⟩ := agree
          exact Agree.trans leaves (second future value other leaves.grows related final after
            leaves.heap (leaves.environment.trans here))
      | error => exact agree.elim
  | error halt final =>
      cases expected with
      | ok => exact agree.elim
      | error => exact agree

theorem weaken (simulates : Simulates changing relation world frame left right)
    (implies : ∀ frame, changing frame → more frame) :
    Simulates more relation world frame left right :=
  fun machine store heap here =>
    (simulates machine store heap here).imp (fun _ _ _ leaves => leaves.weaken implies)
      fun _ _ _ _ related => related

/-- A computation that changes no old frame may stand where some may change. -/
theorem ofNothing (simulates : Simulates nothing relation world frame left right) :
    Simulates changing relation world frame left right :=
  simulates.weaken fun _ => False.elim

theorem imp (simulates : Simulates changing relation world frame left right)
    (related : ∀ future value other, Grows changing world future →
      relation future value other → weaker future value other) :
    Simulates changing weaker world frame left right :=
  fun machine store heap here =>
    (simulates machine store heap here).imp (fun _ _ _ leaves => leaves) related

/-- A result may be put in another form on the side of the store. -/
theorem mapRight {form : β → δ} {formed : World → α → δ → Prop}
    (simulates : Simulates changing relation world frame left right)
    (related : ∀ future value other, Grows changing world future → relation future value other →
      formed future value (form other)) :
    Simulates changing formed world frame left (do return form (← right)) := by
  rw [← bind_pure left]
  exact simulates.bind fun future value other grows like => pure (related _ _ _ grows like)

/-- Both states may be read. -/
theorem get {next : Machine → Evaluation.Eval α} {further : Store → Eval β}
    (agree : ∀ machine store, Heap world machine store → machine.environment = frame →
      Agree changing relation world machine (next machine machine) (further store store)) :
    Simulates changing relation world frame (MonadState.get >>= next)
      (MonadState.get >>= further) :=
  agree

/-- The machine may be read. -/
theorem getMachine {next : Machine → Evaluation.Eval α} {right : Eval β}
    (simulates : ∀ machine, machine.environment = frame →
      Simulates changing relation world frame (next machine) right) :
    Simulates changing relation world frame (MonadState.get >>= next) right :=
  fun machine store heap here => simulates machine here machine store heap here

theorem require (token : Token) (fault : Evaluation.RuntimeFault) {value : Option α}
    {other : Option β} (related : Option.Rel (relation world) value other) :
    Simulates changing relation world frame (Evaluation.require token fault value)
      (Evaluation.require token fault other) := by
  cases related with
  | none => exact Simulates.fail token fault
  | some related => exact Simulates.pure related

end Simulates

/-! ### Operators -/

section Operators

variable {changing : Nat → Prop} {world : World} {frame : Nat}

theorem ValueLike.isTruthy {value : Lox.Value} {other : Value}
    (like : ValueLike world value other) : value.isTruthy = other.isTruthy := by
  cases like <;> rfl

theorem ValueLike.equals {left right : Lox.Value} {other another : Value}
    (leftLike : ValueLike world left other) (rightLike : ValueLike world right another) :
    left.equals right = other.equals another := by
  cases leftLike <;> cases rightLike <;> try rfl
  case function.function leftLike _ _ rightLike =>
    simp only [ValueOf.equals, leftLike.identity, rightLike.identity]
  case class.class leftLike _ _ rightLike =>
    simp only [ValueOf.equals, leftLike.identity, rightLike.identity]

theorem ValueLike.ofLiteral (literal : Literal) :
    ValueLike world literal.toValue literal.toValue := by
  cases literal <;> constructor

theorem applyUnary_simulates (operator : Token) {operand : Lox.Value} {other : Value}
    (like : ValueLike world operand other) :
    Simulates changing ValueLike world frame (Evaluation.applyUnary operator operand)
      (Evaluation.applyUnary operator other) := by
  unfold Evaluation.applyUnary
  by_cases minus : operator.kind = .symbol .minus
  · rw [minus]
    cases like with
    | number value => exact Simulates.pure (.number _)
    | _ => exact Simulates.fail operator _
  · by_cases bang : operator.kind = .symbol .bang
    · rw [bang]
      simp only [like.isTruthy]
      exact Simulates.pure (.boolean _)
    · split
      case h_4 =>
        split
        case h_4 => exact Simulates.fail operator _
        all_goals contradiction
      all_goals contradiction

theorem numberOperator?_like (operator : Token) (left right : Float) :
    Option.Rel (ValueLike world) (Evaluation.numberOperator? operator left right)
      (Evaluation.numberOperator? operator left right) := by
  unfold Evaluation.numberOperator?
  cases operator.kind with
  | symbol symbol =>
      cases symbol <;> first
        | exact .some (.number _)
        | exact .some (.boolean _)
        | exact .none
  | _ => exact .none

/-- Other operators than addition and equality are for numbers. -/
theorem applyBinary_of_numbers {State Closure : Type} {operator : Token}
    (left right : ValueOf Closure) (plus : operator.kind ≠ .symbol .plus)
    (equal : operator.kind ≠ .symbol .equalEqual) (unequal : operator.kind ≠ .symbol .bangEqual) :
    (Evaluation.applyBinary operator left right : Evaluation.Run State (ValueOf Closure)) =
      match left, right with
      | .number left, .number right =>
          Evaluation.require operator .invalidBinaryOperator
            (Evaluation.numberOperator? operator left right)
      | _, _ => Evaluation.fail operator .operandsNotNumbers := by
  unfold Evaluation.applyBinary
  split
  case h_4 => rfl
  all_goals contradiction

theorem applyBinary_simulates (operator : Token) {left right : Lox.Value} {other another : Value}
    (leftLike : ValueLike world left other) (rightLike : ValueLike world right another) :
    Simulates changing ValueLike world frame (Evaluation.applyBinary operator left right)
      (Evaluation.applyBinary operator other another) := by
  by_cases plus : operator.kind = .symbol .plus
  · unfold Evaluation.applyBinary
    rw [plus]
    cases leftLike with
    | number left =>
        cases rightLike with
        | number right => exact Simulates.pure (.number _)
        | _ => exact Simulates.fail operator _
    | string left =>
        cases rightLike with
        | string right => exact Simulates.pure (.string _)
        | _ => exact Simulates.fail operator _
    | _ => exact Simulates.fail operator _
  · by_cases equality : operator.kind = .symbol .equalEqual ∨ operator.kind = .symbol .bangEqual
    · rcases equality with equal | unequal
      · unfold Evaluation.applyBinary
        rw [equal, leftLike.equals rightLike]
        exact Simulates.pure (.boolean _)
      · unfold Evaluation.applyBinary
        rw [unequal, leftLike.equals rightLike]
        exact Simulates.pure (.boolean _)
    · rw [not_or] at equality
      rw [applyBinary_of_numbers _ _ plus equality.1 equality.2,
        applyBinary_of_numbers _ _ plus equality.1 equality.2]
      cases leftLike with
      | number left =>
          cases rightLike with
          | number right =>
              exact Simulates.require _ _ (numberOperator?_like operator left right)
          | _ => exact Simulates.fail operator _
      | _ => exact Simulates.fail operator _

end Operators

end Lox.Lexical
