import Mathlib.Data.List.Forall2
import Lox.Proofs.Frames
import Lox.Proofs.Lexical.Reference
import Lox.Proofs.Options
import Lox.Proofs.Scope.Resolved

/-!
Contract: how frames correspond to the cells of the reference interpreter.

Owns:
- `World`, which says which cell stands for which name of which frame, and its growth;
- `Visible`: the names visible at a place are those that the open scopes declare, each in
  the frame that its distance leads to;
- when functions, classes, values and instances are alike, and that they stay alike in a
  grown world.

A closure is alike to the names it captured by what its scopes say. Names that come into
its frames later have no part in this, so nothing a program does later can disturb it.
-/

namespace Lox.Lexical

open Scope (Scopes Recorded ResolvedFunction)

/-- A correspondence of frames and cells. -/
structure World where
  /-- How many frames there are. -/
  size : Nat
  /-- The frame around a frame. -/
  parent : Nat → Option Nat
  /-- The cell that stands for a local name of a frame. -/
  cell : Nat → String → Option Nat
  /-- The outermost frame. -/
  globals : Nat
  /-- The cells that hold a value, and will always do. -/
  filled : Nat → Prop
  /-- What the table of local names says. -/
  recorded : Recorded

namespace World

/-- The frame reached by going out a number of times. -/
def ancestor (world : World) (frame : Nat) : Nat → Option Nat
  | 0 => some frame
  | distance + 1 => (world.parent frame).bind (world.ancestor · distance)

/-- A world with one more frame, which has no names. -/
def push (world : World) (parent : Nat) : World :=
  { world with
    size := world.size + 1
    parent := fun frame => if frame = world.size then some parent else world.parent frame }

/-- A world in which a cell stands for a name of a frame. -/
def place (world : World) (frame : Nat) (name : String) (cell : Nat) : World :=
  { world with
    cell := fun other different =>
      if other = frame ∧ different = name then some cell else world.cell other different }

/-- A world in which the cell that stands for a name of a frame, if there is one, holds a
value. -/
def settle (world : World) (frame : Nat) (name : String) : World :=
  { world with filled := fun cell => world.filled cell ∨ world.cell frame name = some cell }

/-- A world grows: frames and cells come in. Old frames get no names, but for those that
may be changing. -/
structure Grows (changing : Nat → Prop) (world future : World) : Prop where
  size : world.size ≤ future.size
  parent : ∀ frame parent, world.parent frame = some parent → future.parent frame = some parent
  cell : ∀ frame name cell, world.cell frame name = some cell →
    future.cell frame name = some cell
  globals : future.globals = world.globals
  filled : ∀ cell, world.filled cell → future.filled cell
  recorded : ∀ id record, world.recorded id record → future.recorded id record
  kept : ∀ frame < world.size, ¬ changing frame → future.cell frame = world.cell frame

/-- No old frame gets a name. -/
abbrev nothing : Nat → Prop := fun _ => False

/-- One old frame may get names. -/
abbrev only (frame : Nat) : Nat → Prop := fun other => other = frame

namespace Grows

variable {world middle future : World} {changing : Nat → Prop}

theorem refl (changing : Nat → Prop) (world : World) : Grows changing world world where
  size := Nat.le_refl _
  parent _ _ same := same
  cell _ _ _ same := same
  globals := rfl
  filled _ holds := holds
  recorded _ _ known := known
  kept _ _ _ := rfl

theorem trans (first : Grows changing world middle) (second : Grows changing middle future) :
    Grows changing world future where
  size := Nat.le_trans first.size second.size
  parent frame parent same := second.parent frame parent (first.parent frame parent same)
  cell frame name cell same := second.cell frame name cell (first.cell frame name cell same)
  globals := second.globals.trans first.globals
  filled cell holds := second.filled cell (first.filled cell holds)
  recorded id record known := second.recorded id record (first.recorded id record known)
  kept frame old still :=
    (second.kept frame (Nat.lt_of_lt_of_le old first.size) still).trans
      (first.kept frame old still)

theorem weaken (grows : Grows changing world future) {more : Nat → Prop}
    (implies : ∀ frame, changing frame → more frame) : Grows more world future where
  size := grows.size
  parent := grows.parent
  cell := grows.cell
  globals := grows.globals
  filled := grows.filled
  recorded := grows.recorded
  kept frame old still := grows.kept frame old fun changes => still (implies frame changes)

/-- Names that come into new frames are no change to old ones. -/
theorem ofNew (grows : Grows changing world future)
    (new : ∀ frame, changing frame → world.size ≤ frame) : Grows nothing world future where
  size := grows.size
  parent := grows.parent
  cell := grows.cell
  globals := grows.globals
  filled := grows.filled
  recorded := grows.recorded
  kept frame old _ := grows.kept frame old fun changes => Nat.not_le_of_lt old (new frame changes)

/-- The second part of a growth may change frames that are new since the first. -/
theorem transNew (first : Grows nothing world middle) (second : Grows changing middle future)
    (new : ∀ frame, changing frame → world.size ≤ frame) : Grows nothing world future :=
  ((first.weaken fun _ => False.elim).trans second).ofNew new

theorem ancestor (grows : Grows changing world future) {frame owner distance : Nat}
    (same : world.ancestor frame distance = some owner) :
    future.ancestor frame distance = some owner := by
  induction distance generalizing frame with
  | zero => exact same
  | succ distance inductionHypothesis =>
      obtain ⟨parent, found, further⟩ := Option.bind_eq_some_iff.mp same
      exact Option.bind_eq_some_iff.mpr
        ⟨parent, grows.parent frame parent found, inductionHypothesis further⟩

end Grows

/-- A frame that has no parent yet may be made. -/
theorem push_grows {world : World} (parent : Nat) (new : world.parent world.size = none) :
    Grows nothing world (world.push parent) where
  size := Nat.le_succ _
  parent frame found same := by
    have other : frame ≠ world.size := by
      rintro rfl
      rw [new] at same
      cases same
    simpa [push, other] using same
  cell _ _ _ same := same
  globals := rfl
  filled _ holds := holds
  recorded _ _ known := known
  kept _ _ _ := rfl

/-- A name that has no cell yet may get one. -/
theorem place_grows {world : World} {frame : Nat} {name : String} (cell : Nat)
    (new : world.cell frame name = none) :
    Grows (only frame) world (world.place frame name cell) where
  size := Nat.le_refl _
  parent _ _ same := same
  cell other different found same := by
    have apart : ¬(other = frame ∧ different = name) := by
      rintro ⟨rfl, rfl⟩
      rw [new] at same
      cases same
    simpa [place, apart] using same
  globals := rfl
  filled _ holds := holds
  recorded _ _ known := known
  kept other _ still := by
    funext different
    have apart : ¬(other = frame ∧ different = name) := fun both => still both.1
    simp [place, apart]

theorem settle_grows (world : World) (frame : Nat) (name : String) :
    Grows nothing world (world.settle frame name) where
  size := Nat.le_refl _
  parent _ _ same := same
  cell _ _ _ same := same
  globals := rfl
  filled _ holds := Or.inl holds
  recorded _ _ known := known
  kept _ _ _ := rfl

end World

open World

/-! ### Visible names -/

/-- The visible names are those that the open scopes declare, and each has the cell of the
frame that its distance leads to. The cell holds a value if the declaration is complete. -/
def Visible (world : World) (scopes : Scopes) (frame : Nat) (names : Names) : Prop :=
  ∀ name, match scopes.distance? name with
    | none => names[name]? = none
    | some distance => ∃ owner cell, world.ancestor frame distance = some owner ∧
        world.cell owner name = some cell ∧ names[name]? = some cell ∧
          (scopes.complete? name = some true → world.filled cell)

namespace Visible

variable {world : World} {scopes : Scopes} {frame : Nat} {names : Names}

theorem ofGlobal (visible : Visible world scopes frame names) {name : String}
    (absent : scopes.distance? name = none) : names[name]? = none := by
  have here := visible name
  rw [absent] at here
  exact here

theorem ofLocal (visible : Visible world scopes frame names) {name : String} {distance : Nat}
    (present : scopes.distance? name = some distance) :
    ∃ owner cell, world.ancestor frame distance = some owner ∧
      world.cell owner name = some cell ∧ names[name]? = some cell ∧
        (scopes.complete? name = some true → world.filled cell) := by
  have here := visible name
  rw [present] at here
  exact here

theorem grow (visible : Visible world scopes frame names) {changing : Nat → Prop}
    {future : World} (grows : Grows changing world future) :
    Visible future scopes frame names := by
  intro name
  have here := visible name
  split at here
  case h_1 => exact here
  case h_2 distance _ =>
      obtain ⟨owner, cell, leads, stands, captured, full⟩ := here
      exact ⟨owner, cell, grows.ancestor leads, grows.cell _ _ _ stands, captured,
        fun complete => grows.filled cell (full complete)⟩

/-- Outside all scopes no local name is visible. -/
theorem outermost (world : World) (frame : Nat) : Visible world [] frame ∅ := by
  intro name
  exact Std.ExtTreeMap.getElem?_empty

/-- What is visible depends on where names are found alone. -/
theorem congr {others : Scopes} (visible : Visible world scopes frame names)
    (distances : ∀ name, others.distance? name = scopes.distance? name)
    (completes : ∀ name, others.complete? name = scopes.complete? name) :
    Visible world others frame names := by
  intro name
  rw [distances, completes]
  exact visible name

/-- A new frame inside another one sees the same names. -/
theorem push (visible : Visible world scopes frame names)
    (new : world.parent world.size = none) :
    Visible (world.push frame) ([] :: scopes) world.size names := by
  have grows := push_grows frame new
  intro name
  rw [Scopes.distance?_push, Scopes.complete?_push]
  cases recorded : scopes.distance? name with
  | none => exact visible.ofGlobal recorded
  | some distance =>
      obtain ⟨owner, cell, leads, stands, captured, full⟩ := visible.ofLocal recorded
      refine ⟨owner, cell, ?_, stands, captured, full⟩
      have parent : (world.push frame).parent world.size = some frame := by simp [World.push]
      exact Option.bind_eq_some_iff.mpr ⟨frame, parent, grows.ancestor leads⟩

/-- A name that comes into a frame is visible there from then on. -/
theorem place {scope : Scope.Declarations} {outer : Scopes}
    (visible : Visible world (scope :: outer) frame names) {name : String} (cell : Nat)
    (new : world.cell frame name = none) :
    Visible (world.place frame name cell) (Scopes.record name false (scope :: outer)) frame
      (names.insert name cell) := by
  have grown := visible.grow (place_grows cell new)
  intro other
  rw [Scopes.distance?_record, Scopes.complete?_record, Std.ExtTreeMap.getElem?_insert]
  by_cases same : other = name
  · have here : (world.place frame name cell).cell frame name = some cell := by
      simp [World.place]
    subst same
    simpa using ⟨frame, rfl, here⟩
  · have differ : compare name other ≠ .eq := fun equal =>
      same (Std.LawfulEqCmp.eq_of_compare equal).symm
    rw [if_neg same, if_neg differ, if_neg same]
    exact grown other

/-- A name that has got its value is declared completely from then on. -/
theorem settle {scope : Scope.Declarations} {outer : Scopes} {name : String}
    (visible : Visible world (Scopes.record name false (scope :: outer)) frame names) :
    Visible (world.settle frame name)
      (Scopes.record name true (Scopes.record name false (scope :: outer))) frame names := by
  have grown := visible.grow (settle_grows world frame name)
  change Visible _ (Scopes.record name true (((name, false) :: scope) :: outer)) _ _
  intro other
  rw [Scopes.distance?_record, Scopes.complete?_record]
  by_cases same : other = name
  · subst same
    have present := (Scopes.distance?_record scope outer other other false).trans (if_pos rfl)
    obtain ⟨owner, cell, leads, stands, captured, _⟩ := visible.ofLocal present
    obtain rfl : frame = owner := Option.some.inj leads
    rw [if_pos rfl]
    exact ⟨frame, cell, rfl, stands, captured, fun _ => Or.inr stands⟩
  · rw [if_neg same, if_neg same]
    exact grown other

end Visible

/-! ### Alike values -/

/-- Functions are alike if they have one declaration, whose records are right for scopes that
show the names captured by the one in the frame closed over by the other. A method that is
not bound yet has `this` around it. -/
structure FunctionLike (world : World) (around : Scopes → Scopes) (function : FunctionValue)
    (other : FunctionValueOf Names) : Prop where
  identity : function.identity = other.identity
  declaration : function.declaration = other.declaration
  isInitializer : function.isInitializer = other.isInitializer
  closed : function.closure < world.size
  captured : ∃ scopes : Scopes, scopes.Settled ∧
    Visible world scopes function.closure other.closure ∧
    ResolvedFunction world.recorded (around scopes) function.declaration ∧
    (function.isInitializer → (around scopes).distance? Keyword.this.spelling = some 0)

/-- Classes are alike if their methods are. -/
structure ClassLike (world : World) (owner : ClassValue) (other : ClassValueOf Names) : Prop where
  identity : owner.identity = other.identity
  name : owner.name = other.name
  methods : ∀ name : String,
    Option.Rel (FunctionLike world Scopes.withThis) owner.methods[name]? other.methods[name]?

/-- Values are alike if they are of one kind, and equal up to what functions close over. -/
inductive ValueLike (world : World) : Lox.Value → Value → Prop where
  | nil : ValueLike world .nil .nil
  | boolean (value : Bool) : ValueLike world (.boolean value) (.boolean value)
  | number (value : Float) : ValueLike world (.number value) (.number value)
  | string (contents : String) : ValueLike world (.string contents) (.string contents)
  | native (function : Native) : ValueLike world (.native function) (.native function)
  | function {function : FunctionValue} {other : FunctionValueOf Names} :
      FunctionLike world id function other → ValueLike world (.function function) (.function other)
  | class {owner : ClassValue} {other : ClassValueOf Names} :
      ClassLike world owner other → ValueLike world (.class owner) (.class other)
  | «instance» (id : Nat) : ValueLike world (.instance id) (.instance id)

/-- Instances are alike if their classes and fields are. -/
structure InstanceLike (world : World) (target : Instance) (other : InstanceOf Names) : Prop where
  owner : ClassLike world target.owner other.owner
  fields : ∀ name : String, Option.Rel (ValueLike world) target.fields[name]? other.fields[name]?

section Grow

variable {world future : World} {changing : Nat → Prop}

theorem FunctionLike.grow {around : Scopes → Scopes} {function : FunctionValue}
    {other : FunctionValueOf Names} (like : FunctionLike world around function other)
    (grows : Grows changing world future) : FunctionLike future around function other where
  identity := like.identity
  declaration := like.declaration
  isInitializer := like.isInitializer
  closed := Nat.lt_of_lt_of_le like.closed grows.size
  captured := by
    obtain ⟨scopes, settled, visible, resolved, receiver⟩ := like.captured
    exact ⟨scopes, settled, visible.grow grows,
      Scope.ResolvedFunction.mono grows.recorded _ _ resolved, receiver⟩

theorem ClassLike.grow {owner : ClassValue} {other : ClassValueOf Names}
    (like : ClassLike world owner other) (grows : Grows changing world future) :
    ClassLike future owner other where
  identity := like.identity
  name := like.name
  methods name := optionRel_mono (fun _ _ related => related.grow grows) (like.methods name)

theorem ValueLike.grow {value : Lox.Value} {other : Value} (like : ValueLike world value other)
    (grows : Grows changing world future) : ValueLike future value other := by
  cases like with
  | function like => exact .function (like.grow grows)
  | «class» like => exact .class (like.grow grows)
  | _ => constructor

theorem InstanceLike.grow {target : Instance} {other : InstanceOf Names}
    (like : InstanceLike world target other) (grows : Grows changing world future) :
    InstanceLike future target other where
  owner := like.owner.grow grows
  fields name := optionRel_mono (fun _ _ related => related.grow grows) (like.fields name)

end Grow

end Lox.Lexical
