import Lox.Evaluation.Evaluate
import Lox.Proofs.Relabel.Machine

/-!
Contract: the steps that evaluation is made of, on machines that are alike.

Owns:
- `Mirrors`: two computations end alike from alike machines, and leave alike machines;
- how it composes, and that each basic step satisfies it.

Does not own: the constructs of the language.
-/

namespace Lox.Relabelled

open Evaluation (Halt Eval)

/-- Why computations stop, up to the token of an error. -/
inductive HaltAlike (likeness : Likeness) : Halt → Halt → Prop where
  | fault {token other : Token} (fault : Evaluation.RuntimeFault) :
      TokenAlike likeness token other →
      HaltAlike likeness (.fault ⟨token, fault⟩) (.fault ⟨other, fault⟩)
  | outOfFuel : HaltAlike likeness .outOfFuel .outOfFuel

/-- Two results agree: both are values that are related, or both are the same halt up to a
token. -/
def Agree {α β : Type} (likeness : Likeness) (relation : α → β → Prop) :
    EStateM.Result Halt Machine α → EStateM.Result Halt Machine β → Prop
  | .ok value final, .ok other another =>
      relation value other ∧ MachineAlike likeness final another
  | .error halt final, .error cause another =>
      HaltAlike likeness halt cause ∧ MachineAlike likeness final another
  | _, _ => False

/-- Computations end alike from alike machines. -/
def Mirrors {α β : Type} (likeness : Likeness) (relation : α → β → Prop) (left : Eval α)
    (right : Eval β) : Prop :=
  ∀ machine other, MachineAlike likeness machine other →
    Agree likeness relation (left machine) (right other)

variable {likeness : Likeness}

/-! ### Composition -/

namespace Mirrors

variable {α β γ δ : Type} {relation weaker : α → β → Prop} {following : γ → δ → Prop}
  {left : Eval α} {right : Eval β}

theorem pure {value : α} {other : β} (related : relation value other) :
    Mirrors likeness relation (Pure.pure value) (Pure.pure other) :=
  fun _ _ alike => ⟨related, alike⟩

theorem outOfFuel : Mirrors likeness relation (throw .outOfFuel) (throw .outOfFuel) :=
  fun _ _ alike => ⟨.outOfFuel, alike⟩

theorem fail {token other : Token} (tokens : TokenAlike likeness token other)
    (fault : Evaluation.RuntimeFault) :
    Mirrors likeness relation (Evaluation.fail token fault) (Evaluation.fail other fault) :=
  fun _ _ alike => ⟨.fault fault tokens, alike⟩

theorem bind (first : Mirrors likeness relation left right) {next : α → Eval γ}
    {further : β → Eval δ}
    (second : ∀ value other, relation value other →
      Mirrors likeness following (next value) (further other)) :
    Mirrors likeness following (left >>= next) (right >>= further) := by
  intro machine other alike
  have agree := first machine other alike
  show Agree _ _ (EStateM.bind left next machine) (EStateM.bind right further other)
  unfold EStateM.bind
  generalize left machine = result, right other = expected at agree
  cases result with
  | ok value final =>
      cases expected with
      | ok related another => exact second _ _ agree.1 _ _ agree.2
      | error => exact agree.elim
  | error halt final =>
      cases expected with
      | ok => exact agree.elim
      | error => exact agree

theorem require {token other : Token} (tokens : TokenAlike likeness token other)
    (fault : Evaluation.RuntimeFault) {value : Option α} {another : Option β}
    (related : Option.Rel relation value another) :
    Mirrors likeness relation (Evaluation.require token fault value)
      (Evaluation.require other fault another) := by
  cases related with
  | none => exact fail tokens fault
  | some related => exact pure related

/-- Both machines may be read. -/
theorem get {next : Machine → Eval α} {further : Machine → Eval β}
    (agree : ∀ machine other, MachineAlike likeness machine other →
      Agree likeness relation (next machine machine) (further other other)) :
    Mirrors likeness relation (MonadState.get >>= next) (MonadState.get >>= further) :=
  agree

end Mirrors

/-! ### Names and frames -/

section Names

variable {labels : Relabelling} (origin : likeness.origins labels) {id : Nat} {name : Token}

include origin in
theorem tokenAlike (among : labels.among name) : TokenAlike likeness name (labels.token name) :=
  ⟨labels, origin, among, rfl⟩

include origin in
/-- The tables agree about a name that may occur. -/
theorem MachineAlike.record {machine other : Machine}
    (alike : MachineAlike likeness machine other) (covers : labels.Covers id name) :
    other.locals[labels.number id]? = machine.locals[id]? := by
  rw [alike.locals, alike.others]
  exact likeness.agree labels origin id covers.1

include origin in
theorem lookUp_mirrors (covers : labels.Covers id name) :
    Mirrors likeness (ValueAlike likeness) (Evaluation.lookUp id name)
      (Evaluation.lookUp (labels.number id) (labels.token name)) := by
  have tokens := tokenAlike origin covers.2
  unfold Evaluation.lookUp
  refine Mirrors.get fun machine other alike => ?_
  rw [alike.record origin covers, labels.lexeme, alike.environment, alike.globals]
  cases machine.locals[id]? with
  | some distance => exact Mirrors.require tokens _ (alike.getAt? _ _ _) machine other alike
  | none => exact Mirrors.require tokens _ (alike.get? _ _) machine other alike

include origin in
theorem ownerOf_mirrors (covers : labels.Covers id name) :
    Mirrors likeness Eq (Evaluation.ownerOf id name)
      (Evaluation.ownerOf (labels.number id) (labels.token name)) := by
  have tokens := tokenAlike origin covers.2
  unfold Evaluation.ownerOf
  refine Mirrors.get fun machine other alike => ?_
  rw [alike.record origin covers, labels.lexeme, alike.environment, alike.globals]
  cases machine.locals[id]? with
  | some distance =>
      dsimp only
      rw [alike.owner?]
      exact Mirrors.require tokens _ (optionRel_refl _) machine other alike
  | none =>
      dsimp only
      rw [alike.find?]
      exact Mirrors.require tokens _ (optionRel_refl _) machine other alike

theorem defineIn_mirrors (frame : Nat) (name : String) {value other : Value}
    (values : ValueAlike likeness value other) :
    Mirrors likeness Eq (Evaluation.defineIn frame name value)
      (Evaluation.defineIn frame name other) :=
  fun _ _ alike => ⟨rfl, alike.define frame name values⟩

theorem define_mirrors (name : String) {value other : Value}
    (values : ValueAlike likeness value other) :
    Mirrors likeness Eq (Evaluation.define name value) (Evaluation.define name other) := by
  refine Mirrors.get fun machine other alike => ?_
  rw [alike.environment]
  exact defineIn_mirrors _ _ values machine other alike

include origin in
theorem assign_mirrors (covers : labels.Covers id name) {value other : Value}
    (values : ValueAlike likeness value other) :
    Mirrors likeness Eq (Evaluation.assign id name value)
      (Evaluation.assign (labels.number id) (labels.token name) other) := by
  refine (ownerOf_mirrors origin covers).bind fun owner _ same => ?_
  rw [← same, labels.lexeme]
  exact defineIn_mirrors _ _ values

include origin in
theorem assignNearest_mirrors (among : labels.among name) {value other : Value}
    (values : ValueAlike likeness value other) :
    Mirrors likeness Eq (Evaluation.assignNearest name value)
      (Evaluation.assignNearest (labels.token name) other) := by
  refine Mirrors.get fun machine other alike => ?_
  rw [labels.lexeme, alike.environment, alike.find?]
  have found := Mirrors.require (tokenAlike origin among)
    (.undefinedVariable name.lexeme)
    (optionRel_refl (machine.frames.find? name.lexeme machine.environment))
  refine found.bind (fun owner _ same => ?_) machine other alike
  rw [← same]
  exact defineIn_mirrors _ _ values

theorem pushFrame_mirrors (parent : Nat) :
    Mirrors likeness Eq (Evaluation.pushFrame parent) (Evaluation.pushFrame parent) :=
  fun _ _ alike => ⟨alike.size.symm, alike.push parent⟩

/-- Computations in another frame. -/
theorem within_mirrors {α β : Type} {relation : α → β → Prop} {left : Eval α} {right : Eval β}
    (frame : Nat) (body : Mirrors likeness relation left right) :
    Mirrors likeness relation (Evaluation.within frame left) (Evaluation.within frame right) := by
  intro machine other alike
  have agree := body _ _ (alike.setEnvironment frame)
  unfold Evaluation.within
  dsimp only
  rw [alike.environment]
  generalize left { machine with environment := frame } = result,
    right { other with environment := frame } = expected at agree ⊢
  cases result with
  | ok value final =>
      cases expected with
      | ok related another => exact ⟨agree.1, agree.2.setEnvironment _⟩
      | error => exact agree.elim
  | error halt final =>
      cases expected with
      | ok => exact agree.elim
      | error => exact ⟨agree.1, agree.2.setEnvironment _⟩

/-- Computations one call deeper. -/
theorem deeper_mirrors {α β : Type} {relation : α → β → Prop} {left : Eval α} {right : Eval β}
    (body : Mirrors likeness relation left right) :
    Mirrors likeness relation (Evaluation.deeper left) (Evaluation.deeper right) := by
  intro machine other alike
  have agree := body _ _ (alike.setDepth (machine.depth + 1))
  unfold Evaluation.deeper
  rw [alike.depth]
  generalize left { machine with depth := machine.depth + 1 } = result,
    right { other with depth := machine.depth + 1 } = expected at agree ⊢
  cases result with
  | ok value final =>
      cases expected with
      | ok related another =>
          dsimp only
          rw [agree.2.depth]
          exact ⟨agree.1, agree.2.setDepth _⟩
      | error => exact agree.elim
  | error halt final =>
      cases expected with
      | ok => exact agree.elim
      | error cause another =>
          dsimp only
          rw [agree.2.depth]
          exact ⟨agree.1, agree.2.setDepth _⟩

end Names

end Lox.Relabelled
