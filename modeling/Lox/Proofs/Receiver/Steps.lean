import Lox.Proofs.Receiver.Known

/-!
Contract: steps of evaluation on intact machines.

Owns:
- `Ends`: a computation leaves a machine intact, however it ends, and its value is known;
- how it composes, and that each step of evaluation satisfies it;
- `Yields`, for computations that leave the machine as it is.

Does not own: expressions and statements, which are made of these steps.
-/

namespace Lox.Evaluation

variable {units : Point → Prop} {α β : Type} {machine : Machine}

/-- A machine goes on intact, in the frame in which it was. -/
structure After (units : Point → Prop) (before after : Machine) : Prop where
  intact : Intact units after
  kept : Kept before after
  environment : after.environment = before.environment

theorem After.refl (intact : Intact units machine) : After units machine machine :=
  ⟨intact, .refl _, rfl⟩

theorem After.trans {before between after : Machine} (first : After units before between)
    (second : After units between after) : After units before after :=
  ⟨second.intact, first.kept.trans second.kept, second.environment.trans first.environment⟩

/-- A computation that started on a machine has left it intact, and its value is known. -/
def Ends (units : Point → Prop) (before : Machine) (known : Machine → α → Prop) :
    EStateM.Result Halt Machine α → Prop
  | .ok value after => After units before after ∧ known after value
  | .error _ after => After units before after

/-- A computation has ended so, and the machine that its first part has left goes on to the one
that is left at last. -/
def Goes (units : Point → Prop) (before : Machine) (known : Machine → β → Prop)
    (first : EStateM.Result Halt Machine α) (whole : EStateM.Result Halt Machine β) : Prop :=
  Ends units before known whole ∧ Kept (final first) (final whole)

/-- Nothing needs to be known of a value. -/
abbrev anything : Machine → α → Prop := fun _ _ => True

namespace Ends

variable {known : Machine → α → Prop} {better : Machine → β → Prop}
  {result : EStateM.Result Halt Machine α} {first : Eval α} {next : α → Eval β}

theorem left (ends : Ends units machine known result) : After units machine (final result) := by
  cases result with
  | ok => exact ends.1
  | error => exact ends

theorem ok (ends : Ends units machine known result) {value : α} {later : Machine}
    (done : result = .ok value later) : After units machine later ∧ known later value := by
  rw [done] at ends
  exact ends

theorem weaken (ends : Ends units machine known result) {less : Machine → α → Prop}
    (implies : ∀ value later, result = .ok value later → known later value → less later value) :
    Ends units machine less result := by
  cases result with
  | ok value later => exact ⟨ends.1, implies value later rfl ends.2⟩
  | error => exact ends

/-- What has started earlier has ended likewise. -/
theorem since {earlier : Machine} (after : After units earlier machine)
    (ends : Ends units machine known result) : Ends units earlier known result := by
  cases result with
  | ok => exact ⟨after.trans ends.1, ends.2⟩
  | error => exact after.trans ends

theorem bind (ends : Ends units machine known (first machine))
    (further : ∀ value later, first machine = .ok value later → After units machine later →
      known later value → Ends units later better (next value later)) :
    Ends units machine better ((first >>= next) machine) := by
  cases result : first machine with
  | ok value later =>
      obtain ⟨after, isKnown⟩ := ends.ok result
      rw [bind_of_ok _ result]
      exact (further value later result after isKnown).since after
  | error halt later =>
      rw [bind_of_error _ result]
      rw [result] at ends
      exact ends

theorem goes (ends : Ends units machine known (first machine))
    (further : ∀ value later, first machine = .ok value later → After units machine later →
      known later value → Ends units later better (next value later)) :
    Goes units machine better (first machine) ((first >>= next) machine) := by
  refine ⟨ends.bind further, ?_⟩
  cases result : first machine with
  | ok value later =>
      obtain ⟨after, isKnown⟩ := ends.ok result
      rw [bind_of_ok _ result]
      exact (further value later result after isKnown).left.kept
  | error halt later =>
      rw [bind_of_error _ result]
      exact .refl _

end Ends

/-- What goes on to the second part goes on to the whole. -/
theorem kept_of_ok {first : Eval α} {next : α → Eval β} {value : α} {later left : Machine}
    (done : first machine = .ok value later) (kept : Kept left (final (next value later))) :
    Kept left (final ((first >>= next) machine)) := by
  rw [bind_of_ok _ done]
  exact kept

/-! ### Steps that leave the machine as it is -/

/-- There are no functions in a value. -/
def Simple (value : Value) : Prop :=
  ∀ units machine, ValueKnown units machine value

/-- A computation leaves the machine as it is, and its value has a property. -/
def Yields (good : α → Prop) (computation : Eval α) : Prop :=
  ∀ machine, (∃ value, good value ∧ computation machine = .ok value machine) ∨
    ∃ halt, computation machine = .error halt machine

namespace Yields

variable {good : α → Prop}

theorem pure {value : α} (holds : good value) : Yields good (Pure.pure value : Eval α) :=
  fun _ => Or.inl ⟨value, holds, rfl⟩

theorem fail (token : Token) (fault : RuntimeFault) :
    Yields good (Evaluation.fail token fault : Eval α) :=
  fun _ => Or.inr ⟨_, rfl⟩

theorem require (token : Token) (fault : RuntimeFault) {value : Option α}
    (holds : ∀ found, value = some found → good found) :
    Yields good (Evaluation.require token fault value : Eval α) := by
  cases value with
  | none => exact fail token fault
  | some value => exact pure (holds value rfl)

theorem ends {computation : Eval α} (yields : Yields good computation)
    (intact : Intact units machine) :
    Ends units machine (fun later value => later = machine ∧ good value)
      (computation machine) := by
  rcases yields machine with ⟨value, holds, done⟩ | ⟨halt, done⟩
  · rw [done]
    exact ⟨.refl intact, rfl, holds⟩
  · rw [done]
    exact After.refl intact

theorem known {computation : Eval Value} (yields : Yields Simple computation)
    (intact : Intact units machine) :
    Ends units machine (ValueKnown units) (computation machine) :=
  (yields.ends intact).weaken fun _ _ _ both => both.2 units _

end Yields

theorem applyUnary_yields (operator : Token) (operand : Value) :
    Yields Simple (applyUnary operator operand : Eval Value) := by
  unfold applyUnary
  split
  case h_1 | h_3 => exact .pure fun _ _ => trivial
  case h_2 | h_4 => exact .fail _ _

theorem applyBinary_yields (operator : Token) (left right : Value) :
    Yields Simple (applyBinary operator left right : Eval Value) := by
  unfold applyBinary
  split
  case h_1 =>
      split
      case h_1 | h_2 => exact .pure fun _ _ => trivial
      case h_3 => exact .fail _ _
  case h_2 | h_3 => exact .pure fun _ _ => trivial
  case h_4 =>
      split
      case h_2 => exact .fail _ _
      case h_1 =>
          refine .require _ _ fun found result => ?_
          unfold numberOperator? at result
          split at result <;> cases result <;> exact fun _ _ => trivial

theorem checkArity_yields (paren : Token) (expected found : Nat) :
    Yields (fun _ => True) (checkArity paren expected found : Eval Unit) := by
  unfold checkArity
  split
  · exact .pure trivial
  · exact .fail _ _

/-! ### Steps -/

section Steps

variable (intact : Intact units machine)

include intact

theorem lookUp_ends (id : Nat) (name : Token) :
    Ends units machine (ValueKnown units) (lookUp id name machine) := by
  have known {frame : Option Nat} {value : Value}
      (found : frame.bind (machine.frames.lookup? · name.lexeme) = some value) :
      ValueKnown units machine value := by
    obtain ⟨frame, _, bound⟩ := Option.bind_eq_some_iff.mp found
    exact intact.bound frame _ value bound
  have same : ∀ value later, later = machine ∧ ValueKnown units machine value →
      ValueKnown units later value := by
    rintro value later ⟨rfl, isKnown⟩
    exact isKnown
  cases isLocal : machine.locals[id]? with
  | none =>
      rw [lookUp_of_global isLocal]
      exact ((Yields.require _ _ fun value found => known found).ends intact).weaken
        fun value later _ => same value later
  | some distance =>
      rw [lookUp_of_local isLocal]
      exact ((Yields.require _ _ fun value found => known found).ends intact).weaken
        fun value later _ => same value later

/-- A name is bound in a frame that does not bind `this`. -/
theorem defineIn_ends {frame : Nat} {name : String} {value : Value}
    (clear : machine.frames.this? frame = none) (other : name ≠ Keyword.this.spelling)
    (isKnown : ValueKnown units machine value) :
    Ends units machine anything (defineIn frame name value machine) :=
  ⟨⟨intact.define clear other isKnown, .ofFrames (.define _ _ other _), rfl⟩, trivial⟩

/-- A frame that binds another name does not bind `this`. -/
theorem clear_of_bound {frame : Nat} {name : String}
    (bound : (machine.frames.lookup? frame name).isSome) (other : name ≠ Keyword.this.spelling) :
    machine.frames.this? frame = none := by
  cases here : machine.frames.this? frame with
  | none => rfl
  | some value =>
      rw [(intact.whole frame value here).2 name other] at bound
      cases bound

theorem assign_ends (id : Nat) {name : Token} {value : Value} (plain : name.Plain)
    (isKnown : ValueKnown units machine value) :
    Ends units machine anything (assign id name value machine) := by
  have owner : Ends units machine (fun later owner => later = machine ∧
      (machine.frames.lookup? owner name.lexeme).isSome) (ownerOf id name machine) := by
    cases isLocal : machine.locals[id]? with
    | none =>
        rw [ownerOf_of_global isLocal]
        exact (Yields.require _ _ fun owner found =>
          machine.frames.lookup?_of_find? found).ends intact
    | some distance =>
        rw [ownerOf_of_local isLocal]
        exact (Yields.require _ _ fun owner found =>
          (Option.filter_eq_some_iff.mp found).2).ends intact
  refine owner.bind ?_
  rintro frame later _ _ ⟨rfl, bound⟩
  exact defineIn_ends intact (clear_of_bound intact bound plain) plain isKnown

theorem setField_ends (id : Nat) (name : Token) {value : Value}
    (isKnown : ValueKnown units machine value) :
    Ends units machine anything (setField id name value machine) :=
  ⟨⟨intact.setField id name.lexeme isKnown, .ofEq rfl rfl, rfl⟩, trivial⟩

theorem printValue_ends (value : Value) :
    Ends units machine anything (printValue value machine) :=
  ⟨⟨intact.congr rfl rfl fun _ _ same => same, .ofEq rfl rfl, rfl⟩, trivial⟩

theorem readClock_ends : Ends units machine anything (readClock machine) :=
  ⟨⟨intact.congr rfl rfl fun _ _ same => same, .ofEq rfl rfl, rfl⟩, trivial⟩

theorem makeInstance_ends {owner : ClassValue} (isKnown : ClassKnown machine owner) :
    Ends units machine anything (makeInstance owner machine) :=
  ⟨⟨intact.newInstance isKnown, .ofEq rfl rfl, rfl⟩, trivial⟩

end Steps

end Lox.Evaluation
