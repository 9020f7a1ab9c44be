import Lox.Proofs.Receiver.Activation
import Lox.Proofs.Receiver.Frames
import Lox.Proofs.Scope.Receiver

/-!
Contract: what is known of the functions on a machine, wherever they are kept.

Owns:
- `FunctionKnown`, `ClassKnown` and `ValueKnown`: each function was made for an instance or for
  none, its closure leads to that instance, and its code looks for it there;
- `Kept`: a machine goes on from another one, so that what was known is still known;
- `Intact`: all values on a machine are known, and frames that bind `this` bind nothing else;
- that the steps of evaluation keep machines intact.
-/

namespace Lox

/-- The occurrences that are local. -/
abbrev Machine.Distances (machine : Machine) : Scope.Distances :=
  fun id distance => machine.locals[id]? = some distance

namespace Evaluation

/-- The second machine has come of the first one. -/
structure Kept (before after : Machine) : Prop where
  frames : before.frames.Keep after.frames
  locals : before.Distances.Grow after.Distances

theorem Kept.refl (machine : Machine) : Kept machine machine :=
  ⟨.refl _, fun _ _ => id⟩

theorem Kept.ofFrames {machine : Machine} {frames : Frames} (keep : machine.frames.Keep frames) :
    Kept machine { machine with frames := frames } :=
  ⟨keep, fun _ _ => id⟩

/-- Frames and the table of local names are all that matters. -/
theorem Kept.ofEq {before after : Machine} (frames : after.frames = before.frames)
    (locals : after.locals = before.locals) : Kept before after := by
  refine ⟨?_, fun id distance known => ?_⟩
  · rw [frames]
    exact .refl _
  · rw [Machine.Distances, locals]
    exact known

theorem Kept.trans {before between after : Machine} (first : Kept before between)
    (second : Kept between after) : Kept before after :=
  ⟨first.frames.trans second.frames,
    fun id distance known => second.locals id distance (first.locals id distance known)⟩

section Known

variable (units : Point → Prop)

/-- A function was made for a receiver. Its closure leads to it, at the distance at which its code
looks for it. An initializer closes over the very frame that binds its instance. -/
structure FunctionKnown (machine : Machine) (function : FunctionValue) (receiver : Option Nat) :
    Prop where
  made : MadeFor units function receiver
  closed : function.closure < machine.frames.size
  code : ∃ distance, machine.frames.Receiver function.closure distance receiver ∧
    Statement.FunctionThisAt machine.Distances distance function.declaration
  initializer : function.isInitializer = true →
    ∃ id, machine.frames.this? function.closure = some (.instance id)

/-- A method that is not bound yet. It is an initializer if it is named so. -/
structure MethodKnown (machine : Machine) (name : String) (method : FunctionValue) : Prop where
  name : method.name = name
  closed : method.closure < machine.frames.size
  code : Statement.FunctionThisAt machine.Distances (some 0) method.declaration
  isInitializer : method.isInitializer = (method.name == initializerName)

/-- The methods of a class are known. -/
def ClassKnown (machine : Machine) (owner : ClassValue) : Prop :=
  ∀ (name : String) method, owner.methods[name]? = some method → MethodKnown machine name method

/-- The functions in a value are known. -/
def ValueKnown (machine : Machine) : Value → Prop
  | .function function => ∃ receiver, FunctionKnown units machine function receiver
  | .class owner => ClassKnown machine owner
  | .nil | .boolean _ | .number _ | .string _ | .native _ | .instance _ => True

/-- The functions in a value that is returned are known. -/
def CompletionKnown (machine : Machine) : Completion → Prop
  | .normal => True
  | .returned value => ValueKnown units machine value

/-- All functions on a machine are known, and frames that bind `this` bind nothing else. -/
structure Intact (machine : Machine) : Prop where
  whole : machine.frames.Sealed
  bound : ∀ frame name value, machine.frames.lookup? frame name = some value →
    ValueKnown units machine value
  owner : ∀ (id : Nat) target, machine.instances[id]? = some target →
    ClassKnown machine target.owner
  field : ∀ (id : Nat) target (name : String) value, machine.instances[id]? = some target →
    target.fields[name]? = some value → ValueKnown units machine value

end Known

variable {units : Point → Prop} {before after machine : Machine}

/-! ### What is known is known from then on -/

section Later

theorem FunctionKnown.later {function : FunctionValue} {receiver : Option Nat}
    (known : FunctionKnown units before function receiver) (kept : Kept before after) :
    FunctionKnown units after function receiver where
  made := known.made
  closed := Nat.lt_of_lt_of_le known.closed kept.frames.size
  code := by
    obtain ⟨distance, seen, fits⟩ := known.code
    exact ⟨distance, seen.keep kept.frames known.closed,
      Statement.FunctionThisAt.mono kept.locals _ fits⟩
  initializer isInitializer := by
    obtain ⟨id, bound⟩ := known.initializer isInitializer
    exact ⟨id, (kept.frames.this _ known.closed).trans bound⟩

theorem MethodKnown.later {name : String} {method : FunctionValue}
    (known : MethodKnown before name method) (kept : Kept before after) :
    MethodKnown after name method where
  name := known.name
  closed := Nat.lt_of_lt_of_le known.closed kept.frames.size
  code := Statement.FunctionThisAt.mono kept.locals _ known.code
  isInitializer := known.isInitializer

theorem ClassKnown.later {owner : ClassValue} (known : ClassKnown before owner)
    (kept : Kept before after) : ClassKnown after owner :=
  fun name method present => (known name method present).later kept

theorem ValueKnown.later {value : Value} (known : ValueKnown units before value)
    (kept : Kept before after) : ValueKnown units after value := by
  cases value with
  | function =>
      obtain ⟨receiver, known⟩ := known
      exact ⟨receiver, known.later kept⟩
  | «class» => exact ClassKnown.later known kept
  | _ => trivial

end Later

/-! ### Steps that keep machines intact -/

namespace Intact

/-- A machine goes on from an intact one, and the values on it were there before or are known. -/
theorem step (intact : Intact units before) (kept : Kept before after)
    (whole : after.frames.Sealed)
    (bound : ∀ frame name value, after.frames.lookup? frame name = some value →
      before.frames.lookup? frame name = some value ∨ ValueKnown units before value)
    (instances : ∀ (id : Nat) target, after.instances[id]? = some target →
      ClassKnown before target.owner ∧
        ∀ (name : String) value, target.fields[name]? = some value →
          ValueKnown units before value) : Intact units after where
  whole := whole
  bound frame name value here :=
    ((bound frame name value here).elim (intact.bound frame name value) id).later kept
  owner id target present := (instances id target present).1.later kept
  field id target name value present has :=
    ((instances id target present).2 name value has).later kept

/-- What is known of the instances of an intact machine. -/
theorem known (intact : Intact units machine) (id : Nat) (target : Instance)
    (present : machine.instances[id]? = some target) :
    ClassKnown machine target.owner ∧
      ∀ (name : String) value, target.fields[name]? = some value →
        ValueKnown units machine value :=
  ⟨intact.owner id target present, fun name value => intact.field id target name value present⟩

/-- A machine with the same frames and instances, on which more may be local. -/
theorem congr (intact : Intact units before) (frames : after.frames = before.frames)
    (instances : after.instances = before.instances)
    (locals : before.Distances.Grow after.Distances) : Intact units after := by
  refine intact.step ⟨?_, locals⟩ ?_ ?_ ?_
  · rw [frames]
    exact .refl _
  · rw [frames]
    exact intact.whole
  · rw [frames]
    exact fun _ _ _ => Or.inl
  · rw [instances]
    exact intact.known

/-- The frames of a machine change, and each name has a value that it had before or a new one that
is known. -/
theorem setFrames (intact : Intact units machine) {frames : Frames}
    (keep : machine.frames.Keep frames) (whole : frames.Sealed)
    (bound : ∀ frame name value, frames.lookup? frame name = some value →
      machine.frames.lookup? frame name = some value ∨ ValueKnown units machine value) :
    Intact units { machine with frames := frames } :=
  intact.step (.ofFrames keep) whole bound intact.known

theorem push (intact : Intact units machine) (parent : Option Nat) :
    Intact units { machine with frames := machine.frames.push parent } :=
  intact.setFrames (.push _ _) (intact.whole.push parent) fun frame name _ here =>
    Or.inl ((machine.frames.lookup?_push parent frame name).symm.trans here)

/-- A frame binds a name, if it is not one that binds `this`. -/
theorem define (intact : Intact units machine) {frame : Nat} {name : String} {value : Value}
    (clear : machine.frames.this? frame = none) (other : name ≠ Keyword.this.spelling)
    (known : ValueKnown units machine value) :
    Intact units { machine with frames := machine.frames.define frame name value } := by
  refine intact.setFrames (.define _ _ other _) (intact.whole.define clear other value) ?_
  intro found different bound here
  by_cases same : found = frame ∧ different = name
  · obtain ⟨rfl, rfl⟩ := same
    by_cases inside : found < machine.frames.size
    · rw [Frames.lookup?_define_self _ inside] at here
      cases here
      exact Or.inr known
    · rw [Frames.lookup?_of_size_le] at here
      · cases here
      · rw [Frames.size_define]
        exact Nat.le_of_not_lt inside
  · exact Or.inl ((Frames.lookup?_define_of_ne _ _ same).symm.trans here)

theorem pushThis (intact : Intact units machine) (parent id : Nat) :
    Intact units { machine with frames := machine.frames.pushThis parent id } := by
  refine intact.setFrames (.pushThis _ _ _) (intact.whole.pushThis parent id) ?_
  intro frame name value here
  by_cases new : frame = machine.frames.size ∧ name = Keyword.this.spelling
  · obtain ⟨rfl, rfl⟩ := new
    cases (machine.frames.this?_pushThis parent id).symm.trans here
    exact Or.inr trivial
  · refine Or.inl (Eq.trans ?_ here)
    rw [Frames.pushThis, Frames.lookup?_define_of_ne _ _ new, Frames.lookup?_push]

theorem newInstance (intact : Intact units machine) {owner : ClassValue}
    (known : ClassKnown machine owner) :
    Intact units { machine with instances := machine.instances.push ⟨owner, ∅⟩ } := by
  refine intact.step (.ofEq rfl rfl) intact.whole (fun _ _ _ => Or.inl) ?_
  intro id target present
  rw [Array.getElem?_push] at present
  split at present
  case isTrue =>
      cases present
      refine ⟨known, fun name value has => ?_⟩
      rw [Std.ExtTreeMap.getElem?_empty] at has
      cases has
  case isFalse => exact intact.known id target present

theorem setField (intact : Intact units machine) (id : Nat) (name : String) {value : Value}
    (known : ValueKnown units machine value) :
    Intact units { machine with
      instances := machine.instances.modify id fun target =>
        { target with fields := target.fields.insert name value } } := by
  refine intact.step (.ofEq rfl rfl) intact.whole (fun _ _ _ => Or.inl) ?_
  intro found target present
  rw [Array.getElem?_modify] at present
  split at present
  case isTrue =>
      obtain ⟨old, isOld, rfl⟩ := Option.map_eq_some_iff.mp present
      obtain ⟨owner, fields⟩ := intact.known found old isOld
      refine ⟨owner, fun different bound has => ?_⟩
      rw [Std.ExtTreeMap.getElem?_insert] at has
      split at has
      case isTrue =>
          cases has
          exact known
      case isFalse => exact fields different bound has
  case isFalse => exact intact.known found target present

end Intact

end Evaluation

end Lox
