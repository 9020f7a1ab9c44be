import Lox.Value

/-!
Contract: the store of scope frames.

A frame holds the names of one scope and refers to the frame around it. Frames
are shared: a closure goes on using the frame it was made in, so frames are kept
in a store and named by their position.

Owns:
- `Frames`, a store in which a frame's parent is always an older frame, so that
  every chain of parents ends;
- access by searching outward for a name, and by the number of frames to go out.
-/

namespace Lox

/-- One scope: its names, and the scope around it. -/
structure Frame where
  bindings : Bindings Value
  parent : Option Nat

/-- Scope frames, numbered in the order they were made. -/
structure Frames where
  entries : Array Frame
  /-- The parent of a frame was made before it. -/
  parent_lt : ∀ (id : Nat) (inside : id < entries.size) (parent : Nat),
    entries[id].parent = some parent → parent < id

namespace Frames

/-- A store without frames. -/
def empty : Frames where
  entries := #[]
  parent_lt := by simp

/-- How many frames there are. -/
def size (frames : Frames) : Nat :=
  frames.entries.size

/-- The frame at a position. -/
def frame? (frames : Frames) (id : Nat) : Option Frame :=
  frames.entries[id]?

/-- The frame around a frame. -/
def parent? (frames : Frames) (id : Nat) : Option Nat :=
  (frames.frame? id).bind Frame.parent

/-- The value of a name in one frame, whatever the frames around it hold. -/
def lookup? (frames : Frames) (id : Nat) (name : String) : Option Value :=
  (frames.frame? id).bind (·.bindings[name]?)

/-- Make a frame without names inside another one. A parent that does not exist
counts as none. -/
def push (frames : Frames) (parent : Option Nat) : Frames where
  entries := frames.entries.push ⟨∅, parent.filter (· < frames.entries.size)⟩
  parent_lt := by
    intro id inside parent found
    rw [Array.getElem_push] at found
    split at found
    · exact frames.parent_lt id _ parent found
    · obtain ⟨_, older⟩ := Option.filter_eq_some_iff.mp found
      have : id < frames.entries.size + 1 := by simpa using inside
      have : parent < frames.entries.size := by simpa using older
      omega

/-- Change the names of one frame. -/
def change (frames : Frames) (id : Nat) (update : Bindings Value → Bindings Value) :
    Frames where
  entries := frames.entries.modify id fun frame =>
    { frame with bindings := update frame.bindings }
  parent_lt := by
    intro other inside parent found
    rw [Array.getElem_modify] at found
    split at found <;> exact frames.parent_lt other (by simpa using inside) parent found

/-- Bind a name in a frame, in place of any value it had there. -/
def define (frames : Frames) (id : Nat) (name : String) (value : Value) : Frames :=
  frames.change id (·.insert name value)

/-- The frame reached by going out a number of times. -/
def ancestor? (frames : Frames) (id : Nat) : Nat → Option Nat
  | 0 => some id
  | distance + 1 => (frames.parent? id).bind fun parent => frames.ancestor? parent distance

/-- The nearest frame, from a given one outward, that binds a name. -/
def find? (frames : Frames) (name : String) (id : Nat) : Option Nat :=
  if inside : id < frames.entries.size then
    if frames.entries[id].bindings.contains name then
      some id
    else
      match found : frames.entries[id].parent with
      | none => none
      | some parent =>
          have := frames.parent_lt id inside parent found
          frames.find? name parent
  else
    none
termination_by id

/-- The frame a number of times out, if it binds a name. -/
def owner? (frames : Frames) (id : Nat) (distance : Nat) (name : String) : Option Nat :=
  (frames.ancestor? id distance).filter fun owner => (frames.lookup? owner name).isSome

/-- The value of a name as seen from a frame. -/
def get? (frames : Frames) (id : Nat) (name : String) : Option Value :=
  (frames.find? name id).bind (frames.lookup? · name)

/-- Change the nearest binding of a name as seen from a frame. No binding is made. -/
def assign? (frames : Frames) (id : Nat) (name : String) (value : Value) : Option Frames :=
  (frames.find? name id).map (frames.define · name value)

/-- The value of a name in the frame a number of times out. -/
def getAt? (frames : Frames) (id : Nat) (distance : Nat) (name : String) : Option Value :=
  (frames.ancestor? id distance).bind (frames.lookup? · name)

/-- Change the binding of a name in the frame a number of times out. No binding is
made. -/
def assignAt? (frames : Frames) (id : Nat) (distance : Nat) (name : String)
    (value : Value) : Option Frames :=
  (frames.owner? id distance name).map (frames.define · name value)

end Frames

end Lox
