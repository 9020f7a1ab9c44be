import Lox.Evaluation.Fault
import Lox.Machine
import Lox.Proofs.Frames
import Lox.Proofs.Options
import Lox.Proofs.Relabel.Trees

/-!
Contract: machines that differ in the tokens and the node numbers of their functions.

Owns:
- `Likeness`, which says how code may differ, and by which tables names are found;
- when values, instances and whole machines are alike;
- how machines stay alike when both do the same.

Does not own: what programs do.
-/

namespace Lox.Relabelled

/-- In what ways one machine may be unlike another. -/
structure Likeness where
  /-- The replacements that the code of functions may have gone through. -/
  origins : Relabelling → Prop
  /-- The table of the first machine. -/
  table : Scope.Locals
  /-- The table of the second machine. -/
  other : Scope.Locals
  outputs : Output → Output → Prop
  /-- The tables agree about all code. -/
  agree : ∀ labels, origins labels → ∀ id, labels.numbered id →
    other[labels.number id]? = table[id]?
  print : ∀ left right line, outputs left right → outputs (left.print line) (right.print line)

/-- Outputs that are the same stay the same. -/
theorem print_of_eq (left right : Output) (line : String) (same : left = right) :
    left.print line = right.print line :=
  congrArg (·.print line) same

variable (likeness : Likeness)

/-- A token that has been replaced. -/
def TokenAlike (token other : Token) : Prop :=
  ∃ labels, likeness.origins labels ∧ labels.among token ∧ other = labels.token token

/-- Functions whose code has been relabelled. -/
structure FunctionAlike (function other : FunctionValue) : Prop where
  identity : other.identity = function.identity
  closure : other.closure = function.closure
  isInitializer : other.isInitializer = function.isInitializer
  code : ∃ labels, likeness.origins labels ∧
    Statement.FunctionWithin labels function.declaration ∧
    other.declaration = Statement.relabelFunction labels function.declaration

/-- Classes whose methods have been relabelled. -/
structure ClassAlike (owner other : ClassValue) : Prop where
  identity : other.identity = owner.identity
  name : other.name = owner.name
  methods : ∀ name : String,
    Option.Rel (FunctionAlike likeness) owner.methods[name]? other.methods[name]?

/-- Values that are the same up to the code of functions. -/
inductive ValueAlike : Value → Value → Prop where
  | nil : ValueAlike .nil .nil
  | boolean (value : Bool) : ValueAlike (.boolean value) (.boolean value)
  | number (value : Float) : ValueAlike (.number value) (.number value)
  | string (contents : String) : ValueAlike (.string contents) (.string contents)
  | native (function : Native) : ValueAlike (.native function) (.native function)
  | function {function other : FunctionValue} :
      FunctionAlike likeness function other → ValueAlike (.function function) (.function other)
  | class {owner other : ClassValue} :
      ClassAlike likeness owner other → ValueAlike (.class owner) (.class other)
  | «instance» (id : Nat) : ValueAlike (.instance id) (.instance id)

/-- Instances whose classes and fields are alike. -/
structure InstanceAlike (target other : Instance) : Prop where
  owner : ClassAlike likeness target.owner other.owner
  fields : ∀ name : String,
    Option.Rel (ValueAlike likeness) target.fields[name]? other.fields[name]?

/-- Machines that are the same up to the code of functions, the output and the tables. -/
structure MachineAlike (machine other : Machine) : Prop where
  size : other.frames.size = machine.frames.size
  parent : ∀ frame, other.frames.parent? frame = machine.frames.parent? frame
  names : ∀ frame name, Option.Rel (ValueAlike likeness)
    (machine.frames.lookup? frame name) (other.frames.lookup? frame name)
  instances : other.instances.size = machine.instances.size
  target : ∀ id : Nat,
    Option.Rel (InstanceAlike likeness) machine.instances[id]? other.instances[id]?
  nextIdentity : other.nextIdentity = machine.nextIdentity
  globals : other.globals = machine.globals
  environment : other.environment = machine.environment
  depth : other.depth = machine.depth
  locals : machine.locals = likeness.table
  others : other.locals = likeness.other
  output : likeness.outputs machine.output other.output
  clock : other.clock = machine.clock

variable {likeness}

/-! ### Values -/

theorem FunctionAlike.name {function other : FunctionValue}
    (alike : FunctionAlike likeness function other) : other.name = function.name := by
  obtain ⟨labels, _, _, same⟩ := alike.code
  unfold FunctionValueOf.name
  rw [same, Statement.relabelFunction_name, labels.lexeme]

theorem FunctionAlike.arity {function other : FunctionValue}
    (alike : FunctionAlike likeness function other) : other.arity = function.arity := by
  obtain ⟨labels, _, _, same⟩ := alike.code
  unfold FunctionValueOf.arity
  rw [same, Statement.relabelFunction_parameters, List.length_map]

theorem ClassAlike.initializer? {owner other : ClassValue}
    (alike : ClassAlike likeness owner other) :
    Option.Rel (FunctionAlike likeness) owner.initializer? other.initializer? :=
  alike.methods initializerName

theorem ClassAlike.arity {owner other : ClassValue} (alike : ClassAlike likeness owner other) :
    other.arity = owner.arity := by
  unfold ClassValueOf.arity
  have initializer := alike.initializer?
  generalize owner.initializer? = left, other.initializer? = right at initializer ⊢
  cases initializer with
  | none => rfl
  | some alike => simp [alike.arity]

theorem ValueAlike.isTruthy {value other : Value} (alike : ValueAlike likeness value other) :
    other.isTruthy = value.isTruthy := by
  cases alike <;> rfl

theorem ValueAlike.equals {left right other another : Value}
    (leftAlike : ValueAlike likeness left other) (rightAlike : ValueAlike likeness right another) :
    other.equals another = left.equals right := by
  cases leftAlike <;> cases rightAlike <;> try rfl
  case function.function leftAlike _ _ rightAlike =>
    simp only [ValueOf.equals, leftAlike.identity, rightAlike.identity]
  case class.class leftAlike _ _ rightAlike =>
    simp only [ValueOf.equals, leftAlike.identity, rightAlike.identity]

theorem ValueAlike.ofLiteral (literal : Literal) :
    ValueAlike likeness literal.toValue literal.toValue := by
  cases literal <;> constructor

namespace MachineAlike

variable {machine other : Machine} (alike : MachineAlike likeness machine other)

include alike

/-! ### Frames -/

theorem ancestor? (frame distance : Nat) :
    other.frames.ancestor? frame distance = machine.frames.ancestor? frame distance := by
  induction distance generalizing frame with
  | zero => rfl
  | succ distance inductionHypothesis =>
      unfold Frames.ancestor?
      rw [alike.parent]
      exact Option.bind_congr fun parent _ => inductionHypothesis parent

theorem getAt? (frame distance : Nat) (name : String) :
    Option.Rel (ValueAlike likeness) (machine.frames.getAt? frame distance name)
      (other.frames.getAt? frame distance name) := by
  unfold Frames.getAt?
  rw [alike.ancestor?]
  cases machine.frames.ancestor? frame distance with
  | none => exact .none
  | some owner => exact alike.names owner name

theorem isSome_lookup? (frame : Nat) (name : String) :
    (other.frames.lookup? frame name).isSome = (machine.frames.lookup? frame name).isSome :=
  isSome_eq_of_optionRel (alike.names frame name)

theorem owner? (frame distance : Nat) (name : String) :
    other.frames.owner? frame distance name = machine.frames.owner? frame distance name := by
  unfold Frames.owner?
  simp only [alike.ancestor?, alike.isSome_lookup?]

/-- A search goes the same way. By induction on the frame it starts from, as a parent is
older. -/
theorem find? (name : String) (frame : Nat) :
    other.frames.find? name frame = machine.frames.find? name frame := by
  induction frame using Nat.strongRecOn with
  | ind frame inductionHypothesis =>
      rw [other.frames.find?_eq, machine.frames.find?_eq, alike.isSome_lookup?, alike.parent]
      split
      case isTrue => rfl
      case isFalse =>
          refine Option.bind_congr fun parent found => ?_
          exact inductionHypothesis parent (machine.frames.parent?_lt found)

theorem get? (frame : Nat) (name : String) :
    Option.Rel (ValueAlike likeness) (machine.frames.get? frame name)
      (other.frames.get? frame name) := by
  unfold Frames.get?
  rw [alike.find?]
  cases machine.frames.find? name frame with
  | none => exact .none
  | some owner => exact alike.names owner name

/-! ### Both machines do the same -/

theorem setEnvironment (frame : Nat) :
    MachineAlike likeness { machine with environment := frame }
      { other with environment := frame } :=
  { alike with environment := rfl }

theorem setDepth (depth : Nat) :
    MachineAlike likeness { machine with depth := depth } { other with depth := depth } :=
  { alike with depth := rfl }

theorem takeIdentity :
    MachineAlike likeness { machine with nextIdentity := machine.nextIdentity + 1 }
      { other with nextIdentity := other.nextIdentity + 1 } :=
  { alike with nextIdentity := by rw [alike.nextIdentity] }

theorem takeReading :
    MachineAlike likeness
      { machine with clock := { machine.clock with taken := machine.clock.taken + 1 } }
      { other with clock := { other.clock with taken := other.clock.taken + 1 } } :=
  { alike with clock := by rw [alike.clock] }

/-- A new frame. -/
theorem push (parent : Nat) :
    MachineAlike likeness { machine with frames := machine.frames.push (some parent) }
      { other with frames := other.frames.push (some parent) } := by
  refine { alike with size := ?_, parent := ?_, names := ?_ }
  · rw [Frames.size_push, Frames.size_push, alike.size]
  · intro frame
    by_cases here : frame = machine.frames.size
    · rw [here, Frames.parent?_push_size, ← alike.size, Frames.parent?_push_size]
    · have there : frame ≠ other.frames.size := alike.size ▸ here
      rw [Frames.parent?_push_of_ne _ _ here, Frames.parent?_push_of_ne _ _ there, alike.parent]
  · intro frame name
    rw [Frames.lookup?_push, Frames.lookup?_push]
    exact alike.names frame name

/-- A value for a name of a frame. -/
theorem define (frame : Nat) (name : String) {value another : Value}
    (values : ValueAlike likeness value another) :
    MachineAlike likeness { machine with frames := machine.frames.define frame name value }
      { other with frames := other.frames.define frame name another } := by
  refine { alike with size := ?_, parent := ?_, names := ?_ }
  · rw [Frames.size_define, Frames.size_define, alike.size]
  · intro owner
    rw [Frames.parent?_define, Frames.parent?_define, alike.parent]
  · intro owner different
    by_cases same : owner = frame ∧ different = name
    · obtain ⟨rfl, rfl⟩ := same
      by_cases made : owner < machine.frames.size
      · have made' : owner < other.frames.size := alike.size ▸ made
        rw [Frames.lookup?_define_self _ made, Frames.lookup?_define_self _ made']
        exact .some values
      · have beyond : other.frames.size ≤ owner := alike.size ▸ Nat.le_of_not_lt made
        rw [Frames.lookup?_of_size_le, Frames.lookup?_of_size_le]
        · exact .none
        · simpa using beyond
        · simpa using made
    · rw [Frames.lookup?_define_of_ne _ _ same, Frames.lookup?_define_of_ne _ _ same]
      exact alike.names owner different

/-- Alike values have one printed form. -/
theorem display {value another : Value} (values : ValueAlike likeness value another) :
    other.display another = machine.display value := by
  unfold Machine.display
  cases values with
  | function function =>
      simp only [ValueOf.display]
      rw [function.name]
  | «class» owner => exact owner.name
  | «instance» id =>
      have target := alike.target id
      simp only [ValueOf.display]
      generalize machine.instances[id]? = left, other.instances[id]? = right at target ⊢
      cases target with
      | none => rfl
      | some target => simp [target.owner.name]
  | _ => rfl

theorem printed {value another : Value} (values : ValueAlike likeness value another) :
    MachineAlike likeness
      { machine with output := machine.output.print (machine.display value) }
      { other with output := other.output.print (other.display another) } := by
  refine { alike with output := ?_ }
  rw [alike.display values]
  exact likeness.print _ _ _ alike.output

/-- A new instance. -/
theorem newInstance {owner another : ClassValue} (owners : ClassAlike likeness owner another) :
    MachineAlike likeness { machine with instances := machine.instances.push ⟨owner, ∅⟩ }
      { other with instances := other.instances.push ⟨another, ∅⟩ } := by
  refine { alike with instances := ?_, target := ?_ }
  · simp [alike.instances]
  · intro id
    rw [Array.getElem?_push, Array.getElem?_push, alike.instances]
    by_cases new : id = machine.instances.size
    · rw [if_pos new, if_pos new]
      refine .some ⟨owners, fun name => ?_⟩
      simp
    · rw [if_neg new, if_neg new]
      exact alike.target id

/-- A value for a field of an instance. -/
theorem setField (id : Nat) (name : String) {value another : Value}
    (values : ValueAlike likeness value another) :
    MachineAlike likeness
      { machine with
        instances := machine.instances.modify id fun target =>
          { target with fields := target.fields.insert name value } }
      { other with
        instances := other.instances.modify id fun target =>
          { target with fields := target.fields.insert name another } } := by
  refine { alike with instances := ?_, target := ?_ }
  · simp [alike.instances]
  · intro found
    rw [Array.getElem?_modify, Array.getElem?_modify]
    by_cases here : id = found
    · rw [if_pos here, if_pos here]
      have target := alike.target found
      generalize machine.instances[found]? = left, other.instances[found]? = right at target ⊢
      cases target with
      | none => exact .none
      | some target =>
          refine .some ⟨target.owner, fun field => ?_⟩
          rw [Std.ExtTreeMap.getElem?_insert, Std.ExtTreeMap.getElem?_insert]
          by_cases same : compare name field = .eq
          · rw [if_pos same, if_pos same]
            exact .some values
          · rw [if_neg same, if_neg same]
            exact target.fields field
    · rw [if_neg here, if_neg here]
      exact alike.target found

end MachineAlike

end Lox.Relabelled
