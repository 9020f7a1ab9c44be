import Lox.Frames

/-!
Contract: what the operations on frames read and leave alone.

Owns: for making a frame and for binding a name, the names, the parents and the number of
frames afterwards; what a search outward finds; and that parents and names are all there is
to a store.
-/

namespace Lox.Frames

variable (frames : Frames)

/-! ### Making a frame -/

@[simp] theorem size_push (parent : Option Nat) : (frames.push parent).size = frames.size + 1 := by
  simp [size, push]

/-- A new frame binds nothing, and no other frame changes. -/
@[simp] theorem lookup?_push (parent : Option Nat) (id : Nat) (name : String) :
    (frames.push parent).lookup? id name = frames.lookup? id name := by
  unfold lookup? frame? push
  rw [Array.getElem?_push]
  split
  case isTrue here =>
      rw [here, Array.getElem?_size]
      simp
  case isFalse => rfl

theorem parent?_push_size (parent : Nat) :
    (frames.push (some parent)).parent? frames.size =
      if parent < frames.size then some parent else none := by
  unfold parent? frame? push size
  rw [Array.getElem?_push, if_pos rfl]
  simp [Option.filter]

theorem parent?_push_self {parent : Nat} (older : parent < frames.size) :
    (frames.push (some parent)).parent? frames.size = some parent := by
  rw [parent?_push_size, if_pos older]

theorem parent?_push_of_ne (parent : Option Nat) {id : Nat} (other : id ≠ frames.size) :
    (frames.push parent).parent? id = frames.parent? id := by
  unfold size at other
  unfold parent? frame? push
  rw [Array.getElem?_push, if_neg other]

theorem lookup?_of_size_le {id : Nat} (beyond : frames.size ≤ id) (name : String) :
    frames.lookup? id name = none := by
  unfold size at beyond
  unfold lookup? frame?
  rw [Array.getElem?_eq_none beyond]
  rfl

theorem parent?_of_size_le {id : Nat} (beyond : frames.size ≤ id) : frames.parent? id = none := by
  unfold size at beyond
  unfold parent? frame?
  rw [Array.getElem?_eq_none beyond]
  rfl

/-! ### Binding a name -/

@[simp] theorem size_define (id : Nat) (name : String) (value : Value) :
    (frames.define id name value).size = frames.size := by
  simp [size, define, change]

@[simp] theorem parent?_define (id : Nat) (name : String) (value : Value) (other : Nat) :
    (frames.define id name value).parent? other = frames.parent? other := by
  unfold parent? frame? define change
  rw [Array.getElem?_modify]
  split
  case isTrue =>
      cases frames.entries[other]? <;> rfl
  case isFalse => rfl

theorem lookup?_define_self {id : Nat} (inside : id < frames.size) (name : String)
    (value : Value) : (frames.define id name value).lookup? id name = some value := by
  unfold size at inside
  unfold lookup? frame? define change
  rw [Array.getElem?_modify, if_pos rfl, Array.getElem?_eq_getElem inside]
  simp

theorem lookup?_define_of_ne {id other : Nat} {name different : String} (value : Value)
    (apart : ¬(other = id ∧ different = name)) :
    (frames.define id name value).lookup? other different = frames.lookup? other different := by
  unfold lookup? frame? define change
  rw [Array.getElem?_modify]
  split
  case isFalse => rfl
  case isTrue here =>
      have names : name ≠ different := fun same => apart ⟨here.symm, same.symm⟩
      cases frames.entries[other]? with
      | none => rfl
      | some frame => simp [Std.ExtTreeMap.getElem?_insert, names]

/-! ### Searching outward -/

/-- A parent is older than its frame. -/
theorem parent?_lt {id parent : Nat} (found : frames.parent? id = some parent) : parent < id := by
  unfold parent? frame? at found
  obtain ⟨frame, entry, isParent⟩ := Option.bind_eq_some_iff.mp found
  obtain ⟨inside, rfl⟩ := Array.getElem?_eq_some_iff.mp entry
  exact frames.parent_lt id inside parent isParent

/-- A search ends at a frame that binds the name, and else goes on in the frame around it. -/
theorem find?_eq (name : String) (id : Nat) :
    frames.find? name id =
      if (frames.lookup? id name).isSome then some id
      else (frames.parent? id).bind (frames.find? name) := by
  rw [find?]
  unfold lookup? parent? frame?
  split
  case isFalse outside =>
      rw [Array.getElem?_eq_none (Nat.le_of_not_lt outside)]
      rfl
  case isTrue inside =>
      rw [Array.getElem?_eq_getElem inside]
      by_cases bound : name ∈ frames.entries[id].bindings
      · simp [bound]
      · simp only [Std.ExtTreeMap.contains_iff_mem, bound, if_false]
        split <;> simp_all

theorem find?_of_root {root : Nat} (outermost : frames.parent? root = none) (name : String) :
    frames.find? name root = if (frames.lookup? root name).isSome then some root else none := by
  rw [find?_eq, outermost]
  rfl

theorem get?_of_root {root : Nat} (outermost : frames.parent? root = none) (name : String) :
    frames.get? root name = frames.lookup? root name := by
  unfold get?
  rw [frames.find?_of_root outermost]
  cases found : frames.lookup? root name with
  | none => rfl
  | some value => simp [found]

/-- A search finds the frame it starts from, if that binds the name. -/
theorem find?_self {id : Nat} {name : String} (bound : (frames.lookup? id name).isSome) :
    frames.find? name id = some id := by
  rw [find?_eq, if_pos bound]

/-- A search ends at a frame that binds the name. By induction on the frames around the first
one. -/
theorem lookup?_of_find? {name : String} {frame owner : Nat}
    (found : frames.find? name frame = some owner) : (frames.lookup? owner name).isSome := by
  induction frame using Nat.strongRecOn with
  | ind frame inductionHypothesis =>
      rw [find?_eq] at found
      split at found
      case isTrue bound =>
          cases found
          exact bound
      case isFalse =>
          obtain ⟨parent, around, further⟩ := Option.bind_eq_some_iff.mp found
          exact inductionHypothesis parent (frames.parent?_lt around) further

/-! ### Access by distance -/

theorem getAt?_of_ancestor {id distance owner : Nat}
    (leads : frames.ancestor? id distance = some owner) (name : String) :
    frames.getAt? id distance name = frames.lookup? owner name := by
  unfold getAt?
  rw [leads]
  rfl

theorem owner?_of_ancestor {id distance owner : Nat}
    (leads : frames.ancestor? id distance = some owner) (name : String) :
    frames.owner? id distance name =
      if (frames.lookup? owner name).isSome then some owner else none := by
  unfold owner?
  rw [leads]
  rfl

theorem lookup?_of_owner? {id distance owner : Nat} {name : String}
    (found : frames.owner? id distance name = some owner) :
    (frames.lookup? owner name).isSome :=
  (Option.filter_eq_some_iff.mp found).2

/-! ### Stores that are the same -/

/-- Stores are the same if their frames have the same parents and bind the same names. -/
theorem ext_of_lookup? {frames other : Frames} (size : other.size = frames.size)
    (parent : ∀ id, other.parent? id = frames.parent? id)
    (lookup : ∀ id name, other.lookup? id name = frames.lookup? id name) : other = frames := by
  have entries : other.entries = frames.entries := by
    refine Array.ext size fun id inside inside' => ?_
    have around := parent id
    have names := lookup id
    unfold parent? frame? at around
    unfold lookup? frame? at names
    rw [Array.getElem?_eq_getElem inside, Array.getElem?_eq_getElem inside'] at around
    simp only [Array.getElem?_eq_getElem inside, Array.getElem?_eq_getElem inside'] at names
    have bindings : other.entries[id].bindings = frames.entries[id].bindings :=
      Std.ExtTreeMap.ext_getElem? fun {name} => names name
    cases here : other.entries[id]
    cases there : frames.entries[id]
    rw [here, there] at bindings around
    cases bindings
    cases around
    rfl
  cases other
  cases frames
  cases entries
  rfl

/-- The last value of a name counts. -/
theorem define_define (id : Nat) (name : String) (first second : Value) :
    (frames.define id name first).define id name second = frames.define id name second := by
  refine ext_of_lookup? (by simp) (by simp) fun owner different => ?_
  by_cases same : owner = id ∧ different = name
  · obtain ⟨rfl, rfl⟩ := same
    by_cases inside : owner < frames.size
    · rw [lookup?_define_self _ (by simpa using inside), lookup?_define_self _ inside]
    · rw [lookup?_of_size_le _ (by simpa using inside), lookup?_of_size_le _ (by simpa using inside)]
  · simp only [lookup?_define_of_ne _ _ same]

end Lox.Frames
