import Lox.Proofs.Lexical.World

/-!
Contract: the correspondence of a machine and a store of the reference interpreter.

Owns: `Heap`, and how it goes on when a frame is made, a cell is placed, a name is bound,
or one of the counters advances.

Does not own: which place of a program the current frame stands for.
-/

namespace Lox.Lexical

open World

/-- A machine and a store correspond in a world. -/
structure Heap (world : World) (machine : Machine) (store : Store) : Prop where
  size : machine.frames.size = world.size
  parent : ∀ frame, machine.frames.parent? frame = world.parent frame
  recorded : ∀ id record, world.recorded id record → machine.locals[id]? = record
  /-- A name and the cell that stands for it hold alike values, or nothing both. -/
  content : ∀ frame name cell, world.cell frame name = some cell →
    frame < world.size ∧ cell < store.cells.size ∧
      Option.Rel (ValueLike world) (machine.frames.lookup? frame name) store.cells[cell]?.join
  filled : ∀ cell, world.filled cell → store.cells[cell]?.join.isSome
  /-- A cell stands for one name of one frame. -/
  apart : ∀ frame name other different cell, world.cell frame name = some cell →
    world.cell other different = some cell → frame = other ∧ name = different
  /-- Only names that have a cell are bound, but for globals. -/
  bound : ∀ frame name, frame ≠ world.globals → world.cell frame name = none →
    machine.frames.lookup? frame name = none
  globals : machine.globals = world.globals
  root : world.globals < world.size
  outermost : world.parent world.globals = none
  noCell : ∀ name, world.cell world.globals name = none
  global : ∀ name : String,
    Option.Rel (ValueLike world) (machine.frames.lookup? world.globals name)
      store.globals[name]?
  instances : machine.instances.size = store.instances.size
  target : ∀ id : Nat,
    Option.Rel (InstanceLike world) machine.instances[id]? store.instances[id]?
  nextIdentity : machine.nextIdentity = store.nextIdentity
  depth : machine.depth = store.depth
  output : machine.output = store.output
  clock : machine.clock = store.clock

namespace Heap

variable {world : World} {machine : Machine} {store : Store}

theorem ancestor (heap : Heap world machine store) (frame distance : Nat) :
    machine.frames.ancestor? frame distance = world.ancestor frame distance := by
  induction distance generalizing frame with
  | zero => rfl
  | succ distance inductionHypothesis =>
      unfold Frames.ancestor? World.ancestor
      rw [heap.parent]
      cases world.parent frame with
      | none => rfl
      | some parent => exact inductionHypothesis parent

/-- A frame that is not made yet has no parent. -/
theorem new (heap : Heap world machine store) : world.parent world.size = none := by
  rw [← heap.parent, ← heap.size]
  exact machine.frames.parent?_of_size_le (Nat.le_refl _)

/-- A frame that is not made yet has no names. -/
theorem cell_new (heap : Heap world machine store) (name : String) :
    world.cell world.size name = none := by
  cases stands : world.cell world.size name with
  | none => rfl
  | some cell => exact absurd (heap.content _ _ _ stands).1 (Nat.lt_irrefl _)

theorem lt_of_filled (heap : Heap world machine store) {cell : Nat}
    (full : world.filled cell) : cell < store.cells.size := by
  have holds := heap.filled cell full
  by_cases inside : cell < store.cells.size
  · exact inside
  · rw [Array.getElem?_eq_none (Nat.le_of_not_lt inside)] at holds
    cases holds

/-- The current frame is no part of the correspondence. -/
theorem setEnvironment (heap : Heap world machine store) (frame : Nat) :
    Heap world { machine with environment := frame } store :=
  { heap with }

theorem setDepth (heap : Heap world machine store) (depth : Nat) :
    Heap world { machine with depth := depth } { store with depth := depth } :=
  { heap with depth := rfl }

/-- A new frame. -/
theorem push (heap : Heap world machine store) {parent : Nat} (older : parent < world.size) :
    Heap (world.push parent) { machine with frames := machine.frames.push (some parent) }
      store := by
  have grows := push_grows parent heap.new
  refine { heap with
    size := ?_, parent := ?_, content := ?_, bound := ?_, root := ?_, outermost := ?_,
    global := ?_, target := ?_ }
  · rw [Frames.size_push, heap.size]
    rfl
  · intro frame
    by_cases here : frame = world.size
    · rw [← heap.size] at older
      rw [here, ← heap.size, Frames.parent?_push_self _ older]
      simp [World.push, heap.size]
    · have there : frame ≠ machine.frames.size := by rw [heap.size]; exact here
      rw [Frames.parent?_push_of_ne _ _ there, heap.parent]
      simp [World.push, here]
  · intro frame name cell stands
    obtain ⟨made, inside, like⟩ := heap.content frame name cell stands
    rw [Frames.lookup?_push]
    exact ⟨Nat.lt_succ_of_lt made, inside,
      optionRel_mono (fun _ _ related => related.grow grows) like⟩
  · intro frame name local? free
    rw [Frames.lookup?_push]
    exact heap.bound frame name local? free
  · exact Nat.lt_succ_of_lt heap.root
  · have other : world.globals ≠ world.size := Nat.ne_of_lt heap.root
    simpa [World.push, other] using heap.outermost
  · intro name
    rw [Frames.lookup?_push]
    exact optionRel_mono (fun _ _ related => related.grow grows) (heap.global name)
  · intro id
    exact optionRel_mono (fun _ _ related => related.grow grows) (heap.target id)

/-- A new cell for a name that has none, with nothing in it. -/
theorem newCell (heap : Heap world machine store) {frame : Nat} {name : String}
    (made : frame < world.size) (isLocal : frame ≠ world.globals)
    (free : world.cell frame name = none) :
    Heap (world.place frame name store.cells.size) machine
      { store with cells := store.cells.push none } := by
  have grows := place_grows store.cells.size free
  refine { heap with
    content := ?_, filled := ?_, apart := ?_, bound := ?_, noCell := ?_, global := ?_,
    target := ?_ }
  · intro other different cell stands
    by_cases here : other = frame ∧ different = name
    · obtain ⟨rfl, rfl⟩ := here
      obtain rfl : store.cells.size = cell := by simpa [World.place] using stands
      rw [heap.bound _ _ isLocal free]
      refine ⟨made, by simp, ?_⟩
      simp
    · have old : world.cell other different = some cell := by
        simpa [World.place, here] using stands
      obtain ⟨made, inside, like⟩ := heap.content _ _ _ old
      refine ⟨made, by simp; omega, ?_⟩
      rw [Array.getElem?_push, if_neg (Nat.ne_of_lt inside)]
      exact optionRel_mono (fun _ _ related => related.grow grows) like
  · intro cell full
    rw [Array.getElem?_push, if_neg (Nat.ne_of_lt (heap.lt_of_filled full))]
    exact heap.filled cell full
  · intro left leftName right rightName cell leftStands rightStands
    have fresh : ∀ other different, world.cell other different ≠ some store.cells.size :=
      fun other different old => Nat.lt_irrefl _ (heap.content _ _ _ old).2.1
    simp only [World.place] at leftStands rightStands
    split at leftStands <;> split at rightStands
    case isTrue.isTrue here there => exact ⟨here.1.trans there.1.symm, here.2.trans there.2.symm⟩
    case isTrue.isFalse =>
        cases leftStands
        exact absurd rightStands (fresh _ _)
    case isFalse.isTrue =>
        cases rightStands
        exact absurd leftStands (fresh _ _)
    case isFalse.isFalse => exact heap.apart _ _ _ _ _ leftStands rightStands
  · intro other different other? noCell
    refine heap.bound other different other? ?_
    simp only [World.place] at noCell
    split at noCell
    · cases noCell
    · exact noCell
  · intro different
    have other : ¬(world.globals = frame ∧ different = name) := fun both => isLocal both.1.symm
    simpa [World.place, other] using heap.noCell different
  · intro different
    exact optionRel_mono (fun _ _ related => related.grow grows) (heap.global different)
  · intro id
    exact optionRel_mono (fun _ _ related => related.grow grows) (heap.target id)

/-- A value for a name that has a cell. -/
theorem bind (heap : Heap world machine store) {frame : Nat} {name : String} {cell : Nat}
    (stands : world.cell frame name = some cell) {value : Lox.Value} {other : Value}
    (like : ValueLike (world.settle frame name) value other) :
    Heap (world.settle frame name)
      { machine with frames := machine.frames.define frame name value }
      { store with cells := store.cells.setIfInBounds cell (some other) } := by
  have grows := settle_grows world frame name
  obtain ⟨made, inside, _⟩ := heap.content _ _ _ stands
  have made' : frame < machine.frames.size := by rw [heap.size]; exact made
  have isLocal : frame ≠ world.globals := by
    rintro rfl
    rw [heap.noCell] at stands
    cases stands
  have written : (store.cells.setIfInBounds cell (some other))[cell]? = some (some other) :=
    Array.getElem?_setIfInBounds_self_of_lt inside
  refine { heap with
    size := ?_, parent := ?_, content := ?_, filled := ?_, bound := ?_, global := ?_,
    target := ?_ }
  · rw [Frames.size_define, heap.size]
    rfl
  · intro other
    rw [Frames.parent?_define, heap.parent]
    rfl
  · intro owner different found foundStands
    obtain ⟨ownerMade, foundInside, foundLike⟩ := heap.content _ _ _ foundStands
    refine ⟨ownerMade, by simpa using foundInside, ?_⟩
    by_cases same : owner = frame ∧ different = name
    · obtain ⟨rfl, rfl⟩ := same
      obtain rfl : cell = found := Option.some.inj (stands.symm.trans foundStands)
      rw [Frames.lookup?_define_self _ made', written]
      exact .some like
    · have otherCell : cell ≠ found := by
        rintro rfl
        exact same (heap.apart _ _ _ _ _ foundStands stands)
      rw [Frames.lookup?_define_of_ne _ _ same, Array.getElem?_setIfInBounds_ne otherCell]
      exact optionRel_mono (fun _ _ related => related.grow grows) foundLike
  · intro found full
    by_cases here : cell = found
    · subst here
      rw [written]
      rfl
    · rw [Array.getElem?_setIfInBounds_ne here]
      rcases full with full | settled
      · exact heap.filled found full
      · exact absurd (Option.some.inj (stands.symm.trans settled)) here
  · intro owner different ownerLocal free
    have otherName : ¬(owner = frame ∧ different = name) := by
      rintro ⟨rfl, rfl⟩
      exact absurd (stands.symm.trans free) nofun
    rw [Frames.lookup?_define_of_ne _ _ otherName]
    exact heap.bound owner different ownerLocal free
  · intro different
    have otherFrame : ¬(world.globals = frame ∧ different = name) :=
      fun both => isLocal both.1.symm
    show Option.Rel _ ((machine.frames.define frame name value).lookup? world.globals different) _
    rw [Frames.lookup?_define_of_ne _ _ otherFrame]
    exact optionRel_mono (fun _ _ related => related.grow grows) (heap.global different)
  · intro id
    exact optionRel_mono (fun _ _ related => related.grow grows) (heap.target id)

/-- Globals have no cells that could be settled. -/
theorem settleGlobal (heap : Heap world machine store) (name : String) :
    Heap (world.settle world.globals name) machine store := by
  have grows := settle_grows world world.globals name
  refine { heap with content := ?_, filled := ?_, global := ?_, target := ?_ }
  · intro frame other cell stands
    obtain ⟨made, inside, like⟩ := heap.content _ _ _ stands
    exact ⟨made, inside, optionRel_mono (fun _ _ related => related.grow grows) like⟩
  · intro cell full
    rcases full with full | settled
    · exact heap.filled cell full
    · rw [heap.noCell] at settled
      cases settled
  · intro other
    exact optionRel_mono (fun _ _ related => related.grow grows) (heap.global other)
  · intro id
    exact optionRel_mono (fun _ _ related => related.grow grows) (heap.target id)

/-- A value for a global name. -/
theorem bindGlobal (heap : Heap world machine store) (name : String) {value : Lox.Value}
    {other : Value} (like : ValueLike world value other) :
    Heap world { machine with frames := machine.frames.define world.globals name value }
      { store with globals := store.globals.insert name other } := by
  have made : world.globals < machine.frames.size := by rw [heap.size]; exact heap.root
  refine { heap with size := ?_, parent := ?_, content := ?_, bound := ?_, global := ?_ }
  · rw [Frames.size_define, heap.size]
  · intro other
    rw [Frames.parent?_define, heap.parent]
  · intro owner different cell stands
    have otherFrame : ¬(owner = world.globals ∧ different = name) := by
      rintro ⟨rfl, rfl⟩
      rw [heap.noCell] at stands
      cases stands
    rw [Frames.lookup?_define_of_ne _ _ otherFrame]
    exact heap.content owner different cell stands
  · intro owner different ownerLocal free
    rw [Frames.lookup?_define_of_ne _ _ fun both => ownerLocal both.1]
    exact heap.bound owner different ownerLocal free
  · intro different
    rw [Std.ExtTreeMap.getElem?_insert]
    by_cases same : different = name
    · subst same
      rw [Frames.lookup?_define_self _ made]
      simpa using Option.Rel.some like
    · have differ : compare name different ≠ .eq := fun equal =>
        same (Std.LawfulEqCmp.eq_of_compare equal).symm
      rw [Frames.lookup?_define_of_ne _ _ fun both => same both.2, if_neg differ]
      exact heap.global different

/-- A new cell for a name that has none, with a value in it. -/
theorem newBound (heap : Heap world machine store) {frame : Nat} {name : String}
    (made : frame < world.size) (isLocal : frame ≠ world.globals)
    (free : world.cell frame name = none) {value : Lox.Value} {other : Value}
    (like : ValueLike world value other) :
    Heap ((world.place frame name store.cells.size).settle frame name)
      { machine with frames := machine.frames.define frame name value }
      { store with cells := store.cells.push (some other) } := by
  have stands : (world.place frame name store.cells.size).cell frame name =
      some store.cells.size := by simp [World.place]
  have placed := heap.newCell made isLocal free
  have grown := (like.grow (place_grows store.cells.size free)).grow (settle_grows _ frame name)
  have filled := placed.bind stands grown
  have same : (store.cells.push none).setIfInBounds store.cells.size (some other) =
      store.cells.push (some other) := by
    apply Array.ext_getElem?
    intro position
    rw [Array.getElem?_setIfInBounds, Array.getElem?_push, Array.getElem?_push]
    by_cases here : position = store.cells.size
    · simp [here]
    · rw [if_neg (Ne.symm here), if_neg here, if_neg here]
  rw [same] at filled
  exact filled

/-! ### Instances, output and counters -/

theorem takeIdentity (heap : Heap world machine store) :
    Heap world { machine with nextIdentity := machine.nextIdentity + 1 }
      { store with nextIdentity := store.nextIdentity + 1 } :=
  { heap with nextIdentity := by rw [heap.nextIdentity] }

theorem takeReading (heap : Heap world machine store) :
    Heap world
      { machine with clock := { machine.clock with taken := machine.clock.taken + 1 } }
      { store with clock := { store.clock with taken := store.clock.taken + 1 } } :=
  { heap with clock := by rw [heap.clock] }

/-- Alike values have one printed form. -/
theorem display (heap : Heap world machine store) {value : Lox.Value} {other : Value}
    (like : ValueLike world value other) :
    machine.display value = other.display store.instances := by
  unfold Machine.display
  cases like with
  | function like =>
      simp only [ValueOf.display, FunctionValueOf.name]
      rw [like.declaration]
  | «class» like => exact like.name
  | «instance» id =>
      have target := heap.target id
      simp only [ValueOf.display]
      generalize machine.instances[id]? = left, store.instances[id]? = right at target ⊢
      cases target with
      | none => rfl
      | some like => simp [like.owner.name]
  | _ => rfl

theorem print (heap : Heap world machine store) {value : Lox.Value} {other : Value}
    (like : ValueLike world value other) :
    Heap world { machine with output := machine.output.print (machine.display value) }
      { store with output := store.output.print (other.display store.instances) } :=
  { heap with output := by rw [heap.output, heap.display like] }

/-- A new instance. -/
theorem newInstance (heap : Heap world machine store) {owner : ClassValue}
    {other : ClassValueOf Names} (like : ClassLike world owner other) :
    Heap world { machine with instances := machine.instances.push ⟨owner, ∅⟩ }
      { store with instances := store.instances.push ⟨other, ∅⟩ } := by
  refine { heap with instances := ?_, target := ?_ }
  · simp [heap.instances]
  · intro id
    rw [Array.getElem?_push, Array.getElem?_push, heap.instances]
    by_cases new : id = store.instances.size
    · rw [if_pos new, if_pos new]
      refine .some ⟨like, fun name => ?_⟩
      simp
    · rw [if_neg new, if_neg new]
      exact heap.target id

/-- A value for a field of an instance. -/
theorem setField (heap : Heap world machine store) (id : Nat) (name : String)
    {value : Lox.Value} {other : Value} (like : ValueLike world value other) :
    Heap world
      { machine with
        instances := machine.instances.modify id fun target =>
          { target with fields := target.fields.insert name value } }
      { store with
        instances := store.instances.modify id fun target =>
          { target with fields := target.fields.insert name other } } := by
  refine { heap with instances := ?_, target := ?_ }
  · simp [heap.instances]
  · intro found
    rw [Array.getElem?_modify, Array.getElem?_modify]
    by_cases here : id = found
    · rw [if_pos here, if_pos here]
      have target := heap.target found
      generalize machine.instances[found]? = left, store.instances[found]? = right at target ⊢
      cases target with
      | none => exact .none
      | some target =>
          refine .some ⟨target.owner, fun field => ?_⟩
          rw [Std.ExtTreeMap.getElem?_insert, Std.ExtTreeMap.getElem?_insert]
          by_cases same : compare name field = .eq
          · rw [if_pos same, if_pos same]
            exact .some like
          · rw [if_neg same, if_neg same]
            exact target.fields field
    · rw [if_neg here, if_neg here]
      exact heap.target found

end Heap

end Lox.Lexical
