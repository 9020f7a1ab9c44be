import Lox.Proofs.Evaluation.Origin
import Lox.Proofs.Frames

/-!
Contract: searching outward for a name and going out a counted number of frames are two
ways to one slot.

Owns:
- `Outward`, the frames around a frame, and `Nearest`, the first of them that binds a name;
- reading and writing a name by search and by distance, as computations on a store, and that
  the evaluator's steps on names are these computations;
- `Operation`, one change of a store, and what a history of them leaves of a slot;
- the agreement of the two ways of access.

Does not own: which distance is recorded for a name.
-/

namespace Lox.Frames

open Evaluation (Run Eval Halt RuntimeFault require)

/-! ### The frames around a frame -/

/-- The frame `owner` is reached from `frame` over so many links to parents. -/
inductive Outward (frames : Frames) : Nat → Nat → Nat → Prop where
  | here {frame : Nat} (inside : frame < frames.size) : Outward frames frame 0 frame
  | around {frame parent distance owner : Nat} (link : frames.parent? frame = some parent)
      (further : Outward frames parent distance owner) :
      Outward frames frame (distance + 1) owner

/-- Of the frames from `frame` outward, `owner` is the first to bind a name. -/
structure Nearest (frames : Frames) (frame : Nat) (name : String) (distance owner : Nat) :
    Prop where
  outward : frames.Outward frame distance owner
  bound : (frames.lookup? owner name).isSome
  least : ∀ fewer < distance, ∀ between, frames.Outward frame fewer between →
    frames.lookup? between name = none

variable {frames : Frames} {frame distance owner : Nat} {name : String}

theorem inside_of_lookup? (bound : (frames.lookup? owner name).isSome) : owner < frames.size := by
  apply Nat.lt_of_not_le
  intro beyond
  rw [frames.lookup?_of_size_le beyond] at bound
  cases bound

theorem inside_of_parent? {parent : Nat} (link : frames.parent? frame = some parent) :
    frame < frames.size := by
  apply Nat.lt_of_not_le
  intro beyond
  rw [frames.parent?_of_size_le beyond] at link
  cases link

/-- Counting the links is the counted walk. -/
theorem Outward.ancestor? (outward : frames.Outward frame distance owner) :
    frames.ancestor? frame distance = some owner := by
  induction outward with
  | here => rfl
  | around link _ inductionHypothesis =>
      rw [Frames.ancestor?, link]
      exact inductionHypothesis

/-- The counted walk ends where the links lead. By induction on the distance. -/
theorem outward_of_ancestor? (inside : owner < frames.size)
    (leads : frames.ancestor? frame distance = some owner) :
    frames.Outward frame distance owner := by
  induction distance generalizing frame with
  | zero =>
      cases leads
      exact .here inside
  | succ distance inductionHypothesis =>
      obtain ⟨parent, link, further⟩ := Option.bind_eq_some_iff.mp leads
      exact .around link (inductionHypothesis further)

/-- Access by distance reaches a slot if the frame at that distance exists and binds the name
itself. -/
theorem owner?_eq_some_iff :
    frames.owner? frame distance name = some owner ↔
      frames.Outward frame distance owner ∧ (frames.lookup? owner name).isSome := by
  unfold owner?
  rw [Option.filter_eq_some_iff]
  constructor
  · intro ⟨leads, bound⟩
    exact ⟨outward_of_ancestor? (inside_of_lookup? bound) leads, bound⟩
  · intro ⟨outward, bound⟩
    exact ⟨outward.ancestor?, bound⟩

theorem Nearest.owner? (nearest : frames.Nearest frame name distance owner) :
    frames.owner? frame distance name = some owner :=
  owner?_eq_some_iff.mpr ⟨nearest.outward, nearest.bound⟩

/-- The nearest frame for a name is the nearest one from the parent, unless the frame binds the
name. -/
theorem Nearest.of_around {parent : Nat} (link : frames.parent? frame = some parent)
    (unbound : frames.lookup? frame name = none)
    (nearest : frames.Nearest parent name distance owner) :
    frames.Nearest frame name (distance + 1) owner where
  outward := .around link nearest.outward
  bound := nearest.bound
  least := by
    intro fewer closer between outward
    cases outward with
    | here => exact unbound
    | around same further =>
        cases link.symm.trans same
        exact nearest.least _ (Nat.lt_of_succ_lt_succ closer) between further

/-- A search ends at the nearest frame. By induction along the links. -/
theorem Nearest.find? (nearest : frames.Nearest frame name distance owner) :
    frames.find? name frame = some owner := by
  obtain ⟨outward, bound, least⟩ := nearest
  induction outward with
  | here => exact frames.find?_self bound
  | @around frame parent distance owner link further inductionHypothesis =>
      have unbound : frames.lookup? frame name = none :=
        least 0 (Nat.zero_lt_succ distance) frame (.here (inside_of_parent? link))
      rw [find?_eq, unbound, link]
      apply inductionHypothesis bound
      intro fewer closer between outward
      exact least (fewer + 1) (Nat.succ_lt_succ closer) between (.around link outward)

/-- Where a search ends is the nearest frame. By induction on the frames around the first
one. -/
theorem nearest_of_find? (found : frames.find? name frame = some owner) :
    ∃ distance, frames.Nearest frame name distance owner := by
  induction frame using Nat.strongRecOn with
  | ind frame inductionHypothesis =>
      rw [find?_eq] at found
      split at found
      case isTrue bound =>
          cases found
          exact ⟨0, .here (inside_of_lookup? bound), bound, by omega⟩
      case isFalse free =>
          obtain ⟨parent, link, further⟩ := Option.bind_eq_some_iff.mp found
          obtain ⟨distance, nearest⟩ :=
            inductionHypothesis parent (frames.parent?_lt link) further
          exact ⟨distance + 1, nearest.of_around link (Option.not_isSome_iff_eq_none.mp free)⟩

/-- A search fails if no frame outward binds the name. -/
theorem find?_eq_none
    (unbound : ∀ distance owner, frames.Outward frame distance owner →
      frames.lookup? owner name = none) :
    frames.find? name frame = none := by
  cases found : frames.find? name frame with
  | none => rfl
  | some owner =>
      obtain ⟨distance, nearest⟩ := nearest_of_find? found
      have bound := nearest.bound
      rw [unbound distance owner nearest.outward] at bound
      cases bound

/-! ### Reading and writing -/

/-- How an access goes from a frame to the one that binds a name. -/
inductive Way where
  /-- To the first frame outward that binds it. -/
  | search
  /-- To the frame so many links away. -/
  | counted (distance : Nat)

namespace Way

/-- What goes wrong if the way leads to no binding of a name. -/
def fault (name : String) : Way → RuntimeFault
  | search => .undefinedVariable name
  | counted _ => .unboundLocal name

/-- The frame that the way leads to, if it binds the name. -/
def owner? (frames : Frames) (frame : Nat) (name : String) : Way → Option Nat
  | search => frames.find? name frame
  | counted distance => frames.owner? frame distance name

/-- The value of a name. -/
def value? (frames : Frames) (frame : Nat) (name : String) : Way → Option Value
  | search => frames.get? frame name
  | counted distance => frames.getAt? frame distance name

/-- The store with another value for a name. -/
def changed? (frames : Frames) (frame : Nat) (name : String) (value : Value) :
    Way → Option Frames
  | search => frames.assign? frame name value
  | counted distance => frames.assignAt? frame distance name value

/-- The slot that is read is the slot that would be written. -/
theorem value?_eq (way : Way) :
    way.value? frames frame name =
      (way.owner? frames frame name).bind (frames.lookup? · name) := by
  cases way with
  | search => rfl
  | counted distance =>
      show (frames.ancestor? frame distance).bind _ =
        ((frames.ancestor? frame distance).filter _).bind _
      cases frames.ancestor? frame distance with
      | none => rfl
      | some owner => cases held : frames.lookup? owner name <;> simp [Option.filter, held]

theorem changed?_eq (way : Way) (value : Value) :
    way.changed? frames frame name value =
      (way.owner? frames frame name).map (frames.define · name value) := by
  cases way <;> rfl

/-- Wherever the way leads, the name is bound there. -/
theorem lookup?_of_owner? {way : Way} (found : way.owner? frames frame name = some owner) :
    ∃ held, frames.lookup? owner name = some held := by
  apply Option.isSome_iff_exists.mp
  cases way with
  | search => exact frames.lookup?_of_find? found
  | counted distance => exact frames.lookup?_of_owner? found

end Way

/-- Read a name as seen from a frame. -/
def read (way : Way) (frame : Nat) (name : Token) : Run Frames Value := do
  require name (way.fault name.lexeme) (way.value? (← get) frame name.lexeme)

/-- Write a name as seen from a frame. -/
def write (way : Way) (frame : Nat) (name : Token) (value : Value) : Run Frames Unit := do
  set (← require name (way.fault name.lexeme) (way.changed? (← get) frame name.lexeme value))

section Access

variable {way : Way} {name : Token}

theorem read_of_owner? (found : way.owner? frames frame name.lexeme = some owner) {held : Value}
    (holds : frames.lookup? owner name.lexeme = some held) :
    read way frame name frames = .ok held frames := by
  have value : way.value? frames frame name.lexeme = some held := by
    rw [way.value?_eq, found]
    exact holds
  show require name _ (way.value? frames frame name.lexeme) frames = _
  rw [value]
  rfl

theorem read_of_none (missing : way.owner? frames frame name.lexeme = none) :
    read way frame name frames = .error (.fault ⟨name, way.fault name.lexeme⟩) frames := by
  have value : way.value? frames frame name.lexeme = none := by
    rw [way.value?_eq, missing]
    rfl
  show require name _ (way.value? frames frame name.lexeme) frames = _
  rw [value]
  rfl

theorem write_of_owner? (found : way.owner? frames frame name.lexeme = some owner)
    (value : Value) :
    write way frame name value frames = .ok () (frames.define owner name.lexeme value) := by
  show EStateM.bind (require name _ (way.changed? frames frame name.lexeme value)) set frames = _
  rw [way.changed?_eq, found]
  rfl

theorem write_of_none (missing : way.owner? frames frame name.lexeme = none) (value : Value) :
    write way frame name value frames =
      .error (.fault ⟨name, way.fault name.lexeme⟩) frames := by
  show EStateM.bind (require name _ (way.changed? frames frame name.lexeme value)) set frames = _
  rw [way.changed?_eq, missing]
  rfl

/-- Reading succeeds if the way leads to a binding, and changes nothing. -/
theorem read_ok_iff :
    (∃ held after, read way frame name frames = .ok held after) ↔
      (way.owner? frames frame name.lexeme).isSome := by
  cases found : way.owner? frames frame name.lexeme with
  | none => simp [read_of_none found]
  | some owner =>
      obtain ⟨held, holds⟩ := Way.lookup?_of_owner? found
      simp [read_of_owner? found holds]

/-- Writing succeeds if the way leads to a binding. -/
theorem write_ok_iff (value : Value) :
    (∃ after, write way frame name value frames = .ok () after) ↔
      (way.owner? frames frame name.lexeme).isSome := by
  cases found : way.owner? frames frame name.lexeme with
  | none => simp [write_of_none found]
  | some owner => simp [write_of_owner? found]

end Access

/-! ### The evaluator's accesses -/

/-- Run a computation on the frames of a machine. -/
def onFrames {α : Type} (computation : Run Frames α) : Eval α := fun machine =>
  match computation machine.frames with
  | .ok value after => .ok value { machine with frames := after }
  | .error halt after => .error halt { machine with frames := after }

/-- The way from an occurrence of a name to its binding, and where it starts: a local name is
counted from the current frame, any other is searched from the globals. -/
def route (machine : Machine) (id : Nat) : Way × Nat :=
  match machine.locals[id]? with
  | some distance => (.counted distance, machine.environment)
  | none => (.search, machine.globals)

/-- The value of an occurrence is read along its way. -/
theorem lookUp_eq (id : Nat) (name : Token) (machine : Machine) :
    Evaluation.lookUp id name machine =
      onFrames (read (route machine id).1 (route machine id).2 name) machine := by
  have value : Evaluation.lookUp id name machine =
      require name ((route machine id).1.fault name.lexeme)
        ((route machine id).1.value? machine.frames (route machine id).2 name.lexeme) machine := by
    unfold route
    cases record : machine.locals[id]? with
    | none => exact Evaluation.lookUp_of_global record name
    | some distance => exact Evaluation.lookUp_of_local record name
  rw [value, (route machine id).1.value?_eq]
  unfold onFrames
  cases found : (route machine id).1.owner? machine.frames (route machine id).2 name.lexeme with
  | none =>
      rw [read_of_none found]
      rfl
  | some owner =>
      obtain ⟨held, holds⟩ := Way.lookup?_of_owner? found
      rw [read_of_owner? found holds, Option.bind_some, holds]
      rfl

/-- The slot of an occurrence is written along its way. -/
theorem assign_eq (id : Nat) (name : Token) (value : Value) (machine : Machine) :
    Evaluation.assign id name value machine =
      onFrames (write (route machine id).1 (route machine id).2 name value) machine := by
  unfold onFrames
  have owner : Evaluation.ownerOf id name machine =
      require name ((route machine id).1.fault name.lexeme)
        ((route machine id).1.owner? machine.frames (route machine id).2 name.lexeme) machine := by
    unfold route
    cases record : machine.locals[id]? with
    | none => exact Evaluation.ownerOf_of_global record name
    | some distance => exact Evaluation.ownerOf_of_local record name
  show EStateM.bind (Evaluation.ownerOf id name) _ machine = _
  unfold EStateM.bind
  rw [owner]
  cases found : (route machine id).1.owner? machine.frames (route machine id).2 name.lexeme with
  | none =>
      rw [write_of_none found]
      rfl
  | some owner =>
      rw [write_of_owner? found]
      rfl

/-- The name of a class is written by search from the current frame. -/
theorem assignNearest_eq (name : Token) (value : Value) (machine : Machine) :
    Evaluation.assignNearest name value machine =
      onFrames (write .search machine.environment name value) machine := by
  unfold onFrames Evaluation.assignNearest
  rw [Evaluation.get_bind]
  cases found : Way.search.owner? machine.frames machine.environment name.lexeme with
  | none =>
      rw [write_of_none found]
      have missing : machine.frames.find? name.lexeme machine.environment = none := found
      rw [missing]
      rfl
  | some owner =>
      rw [write_of_owner? found]
      have finds : machine.frames.find? name.lexeme machine.environment = some owner := found
      rw [finds]
      rfl

/-! ### Histories of a store -/

/-- One operation on a store. -/
inductive Operation where
  | make (parent : Option Nat)
  | define (frame : Nat) (name : String) (value : Value)
  | read (way : Way) (frame : Nat) (name : Token)
  | write (way : Way) (frame : Nat) (name : Token) (value : Value)

namespace Operation

/-- Do an operation. What is read is not kept. -/
def run : Operation → Run Frames Unit
  | make parent => modify (·.push parent)
  | define frame name value => modify (·.define frame name value)
  | read way frame name => do
      let _ ← Frames.read way frame name
  | write way frame name value => Frames.write way frame name value

/-- The slot that an operation writes: a name in a frame. -/
def slot? (frames : Frames) : Operation → Option (Nat × String)
  | make _ | read .. => none
  | define frame name _ => some (frame, name)
  | write way frame name _ =>
      (way.owner? frames frame name.lexeme).map fun owner => (owner, name.lexeme)

/-- The store after an operation, whether it failed or not. -/
def after (operation : Operation) (frames : Frames) : Frames :=
  match operation.run frames with
  | .ok _ final | .error _ final => final

variable {way : Way} {token : Token}

theorem run_read_of_owner? (found : way.owner? frames frame token.lexeme = some owner) :
    (read way frame token).run frames = .ok () frames := by
  obtain ⟨held, holds⟩ := Way.lookup?_of_owner? found
  show EStateM.bind (Frames.read way frame token) _ frames = _
  unfold EStateM.bind
  rw [read_of_owner? found holds]
  rfl

theorem run_read_of_none (missing : way.owner? frames frame token.lexeme = none) :
    (read way frame token).run frames =
      .error (.fault ⟨token, way.fault token.lexeme⟩) frames := by
  show EStateM.bind (Frames.read way frame token) _ frames = _
  unfold EStateM.bind
  rw [read_of_none missing]

/-- What an operation does: it makes a frame, or binds the name of the slot that it writes, or
leaves the store as it is, and this last if it fails. -/
theorem run_cases (operation : Operation) (frames : Frames) :
    (∃ parent, operation.slot? frames = none ∧
      operation.run frames = .ok () (frames.push parent)) ∨
    (∃ owner name value, operation.slot? frames = some (owner, name) ∧
      operation.run frames = .ok () (frames.define owner name value)) ∨
    operation.run frames = .ok () frames ∨
    ∃ error, operation.run frames = .error (.fault error) frames := by
  cases operation with
  | make parent => exact .inl ⟨parent, rfl, rfl⟩
  | define frame name value => exact .inr (.inl ⟨frame, name, value, rfl, rfl⟩)
  | read way frame token =>
      apply Or.inr ∘ Or.inr
      cases found : way.owner? frames frame token.lexeme with
      | none => exact .inr ⟨_, run_read_of_none found⟩
      | some owner => exact .inl (run_read_of_owner? found)
  | write way frame token value =>
      apply Or.inr
      cases found : way.owner? frames frame token.lexeme with
      | none => exact .inr (.inr ⟨_, write_of_none found value⟩)
      | some owner =>
          refine .inl ⟨owner, token.lexeme, value, ?_, write_of_owner? found value⟩
          show (way.owner? frames frame token.lexeme).map _ = _
          rw [found]
          rfl

/-- An operation that fails leaves the store as it was. -/
theorem run_error (operation : Operation) {halt : Halt} {final : Frames}
    (fails : operation.run frames = .error halt final) : final = frames := by
  rcases operation.run_cases frames with ⟨_, _, run⟩ | ⟨_, _, _, _, run⟩ | run | ⟨_, run⟩ <;>
    rw [run] at fails <;> cases fails
  rfl

/-- An operation keeps every slot but the one it writes. -/
theorem lookup?_after (operation : Operation)
    (spares : operation.slot? frames ≠ some (owner, name)) :
    (operation.after frames).lookup? owner name = frames.lookup? owner name := by
  unfold after
  rcases operation.run_cases frames with
    ⟨parent, _, run⟩ | ⟨other, different, value, writes, run⟩ | run | ⟨_, run⟩ <;> rw [run]
  · exact frames.lookup?_push parent owner name
  · apply frames.lookup?_define_of_ne
    rintro ⟨rfl, rfl⟩
    exact spares writes

end Operation

/-- The store after one operation upon another. -/
def afterAll : List Operation → Frames → Frames
  | [], frames => frames
  | operation :: rest, frames => afterAll rest (operation.after frames)

/-- No operation of a history writes a slot. -/
def Spares (owner : Nat) (name : String) : List Operation → Frames → Prop
  | [], _ => True
  | operation :: rest, frames =>
      operation.slot? frames ≠ some (owner, name) ∧ Spares owner name rest (operation.after frames)

/-- A slot holds its value until an operation writes it. By induction on the history. -/
theorem lookup?_afterAll (history : List Operation) (spares : Spares owner name history frames) :
    (afterAll history frames).lookup? owner name = frames.lookup? owner name := by
  induction history generalizing frames with
  | nil => rfl
  | cons operation rest inductionHypothesis =>
      obtain ⟨now, later⟩ := spares
      exact (inductionHypothesis later).trans (operation.lookup?_after now)

/-! ### The agreement of the two ways -/

/-- The store `final` is the store `frames` with a value in one slot: everything else is as it
was. -/
structure Written (frames : Frames) (owner : Nat) (name : String) (value : Value)
    (final : Frames) : Prop where
  size : final.size = frames.size
  parents : ∀ other, final.parent? other = frames.parent? other
  here : final.lookup? owner name = some value
  elsewhere : ∀ other different, ¬(other = owner ∧ different = name) →
    final.lookup? other different = frames.lookup? other different

theorem written_define (inside : owner < frames.size) (name : String) (value : Value) :
    Written frames owner name value (frames.define owner name value) where
  size := frames.size_define owner name value
  parents := frames.parent?_define owner name value
  here := frames.lookup?_define_self inside name value
  elsewhere := fun _ _ apart => frames.lookup?_define_of_ne value apart

/-- A search reads what the nearest frame holds. -/
theorem Nearest.read {token : Token} {held : Value}
    (nearest : frames.Nearest frame token.lexeme distance owner)
    (holds : frames.lookup? owner token.lexeme = some held) :
    read .search frame token frames = .ok held frames := by
  have found : Way.search.owner? frames frame token.lexeme = some owner := nearest.find?
  exact read_of_owner? found holds

/-- A counted walk reads what the frame at its end holds. -/
theorem Outward.read {token : Token} {held : Value}
    (outward : frames.Outward frame distance owner)
    (holds : frames.lookup? owner token.lexeme = some held) :
    read (.counted distance) frame token frames = .ok held frames := by
  have found : (Way.counted distance).owner? frames frame token.lexeme = some owner :=
    owner?_eq_some_iff.mpr ⟨outward, Option.isSome_iff_exists.mpr ⟨held, holds⟩⟩
  exact read_of_owner? found holds

/-- A value that was written is seen from every frame from which the slot is reached, by search
or by distance, until the slot is written again. -/
def SeenUntilWritten (owner : Nat) (name : String) (value : Value) (frames : Frames) : Prop :=
  ∀ later, Spares owner name later frames → ∀ viewer (token : Token) links, token.lexeme = name →
    ((afterAll later frames).Nearest viewer name links owner →
      read .search viewer token (afterAll later frames) = .ok value (afterAll later frames)) ∧
    ((afterAll later frames).Outward viewer links owner →
      read (.counted links) viewer token (afterAll later frames) =
        .ok value (afterAll later frames))

theorem Written.seen {value : Value} {final : Frames}
    (written : Written frames owner name value final) :
    SeenUntilWritten owner name value final := by
  intro later spares viewer token links rfl
  have holds : (afterAll later final).lookup? owner token.lexeme = some value :=
    (lookup?_afterAll later spares).trans written.here
  exact ⟨fun nearest => nearest.read holds, fun outward => outward.read holds⟩

/-- Access by search and access by distance agree. If the nearest frame outward that binds a name
is so many links away, both ways read the same value and write the same slot, no other slot,
parent or frame changes, and the value is seen through every chain that reaches the slot until
an operation writes it again. If no frame outward binds the name, a search fails, naming the
variable. Access by distance succeeds exactly if the frame at that distance exists and binds the
name itself. An operation that fails changes nothing. -/
theorem search_agrees_with_distance (frames : Frames) (frame : Nat) (name : Token) :
    (∀ distance owner, frames.Nearest frame name.lexeme distance owner →
      (∃ held, frames.lookup? owner name.lexeme = some held ∧
        read .search frame name frames = .ok held frames ∧
        read (.counted distance) frame name frames = .ok held frames) ∧
      ∀ value, ∃ final,
        write .search frame name value frames = .ok () final ∧
        write (.counted distance) frame name value frames = .ok () final ∧
        Written frames owner name.lexeme value final ∧
        SeenUntilWritten owner name.lexeme value final) ∧
    ((∀ distance owner, frames.Outward frame distance owner →
        frames.lookup? owner name.lexeme = none) →
      ∃ error : Evaluation.RuntimeError, error.token = name ∧
        error.fault.message = "Undefined variable '" ++ name.lexeme ++ "'." ∧
        read .search frame name frames = .error (.fault error) frames ∧
        ∀ value, write .search frame name value frames = .error (.fault error) frames) ∧
    (∀ distance,
      ((∃ held final, read (.counted distance) frame name frames = .ok held final) ↔
        ∃ owner, frames.Outward frame distance owner ∧
          (frames.lookup? owner name.lexeme).isSome) ∧
      ∀ value, (∃ final, write (.counted distance) frame name value frames = .ok () final) ↔
        ∃ owner, frames.Outward frame distance owner ∧
          (frames.lookup? owner name.lexeme).isSome) ∧
    ∀ (operation : Operation) halt final,
      operation.run frames = .error halt final → final = frames := by
  refine ⟨?_, ?_, ?_, fun operation _ _ => operation.run_error⟩
  · intro distance owner nearest
    constructor
    · obtain ⟨held, holds⟩ := Option.isSome_iff_exists.mp nearest.bound
      exact ⟨held, holds, nearest.read holds, nearest.outward.read holds⟩
    · intro value
      have written := written_define (inside_of_lookup? nearest.bound) name.lexeme value
      have found : Way.search.owner? frames frame name.lexeme = some owner := nearest.find?
      have counted : (Way.counted distance).owner? frames frame name.lexeme = some owner :=
        nearest.owner?
      exact ⟨frames.define owner name.lexeme value, write_of_owner? found value,
        write_of_owner? counted value, written, written.seen⟩
  · intro unbound
    have missing : Way.search.owner? frames frame name.lexeme = none := find?_eq_none unbound
    exact ⟨⟨name, .undefinedVariable name.lexeme⟩, rfl, rfl, read_of_none missing,
      write_of_none missing⟩
  · intro distance
    have reached : (Way.owner? frames frame name.lexeme (.counted distance)).isSome ↔
        ∃ owner, frames.Outward frame distance owner ∧
          (frames.lookup? owner name.lexeme).isSome := by
      rw [Option.isSome_iff_exists]
      exact exists_congr fun owner => owner?_eq_some_iff
    exact ⟨read_ok_iff.trans reached, fun value => (write_ok_iff value).trans reached⟩

/-- Three frames, each inside the one before: the first two bind `x`, the last binds nothing. -/
def shadowing : Frames :=
  ((((empty.push none).define 0 "x" .nil).push (some 0)).define 1 "x" (.boolean true)).push (some 1)

/-- From the last of the three frames `x` is one link away, and a write by search changes the
middle frame and leaves the first; `y` is bound nowhere. -/
theorem shadowing_written :
    shadowing.Nearest 2 "x" 1 1 ∧
    (∃ final, write .search 2 ⟨.identifier, "x", 1⟩ (.boolean false) shadowing = .ok () final ∧
      final.lookup? 1 "x" = some (.boolean false) ∧ final.lookup? 0 "x" = some .nil) ∧
    (∃ error : Evaluation.RuntimeError, error.fault.message = "Undefined variable 'y'." ∧
      read .search 2 ⟨.identifier, "y", 1⟩ shadowing = .error (.fault error) shadowing) ∧
    (∃ halt, (Operation.read (.counted 1) 2 ⟨.identifier, "y", 1⟩).run shadowing =
      .error halt shadowing) := by
  have nearest : shadowing.Nearest 2 "x" 1 1 := by
    refine ⟨.around rfl (.here (by decide)), rfl, ?_⟩
    intro fewer closer between outward
    cases Nat.lt_one_iff.mp closer
    cases outward
    rfl
  have free (owner : Nat) : shadowing.lookup? owner "y" = none := by
    unfold shadowing
    rw [lookup?_push, lookup?_define_of_ne _ _ (by simp), lookup?_push,
      lookup?_define_of_ne _ _ (by simp), lookup?_push]
    rfl
  obtain ⟨agree, _, _, _⟩ := search_agrees_with_distance shadowing 2 ⟨.identifier, "x", 1⟩
  obtain ⟨_, fails, _, keeps⟩ := search_agrees_with_distance shadowing 2 ⟨.identifier, "y", 1⟩
  obtain ⟨_, writes⟩ := agree 1 1 nearest
  obtain ⟨final, written, _, changed, _⟩ := writes (.boolean false)
  obtain ⟨error, _, message, stops, _⟩ := fails fun _ owner _ => free owner
  refine ⟨nearest, ⟨final, written, changed.here, changed.elsewhere 0 "x" (by simp)⟩,
    ⟨error, message, stops⟩, ?_⟩
  have missing : Way.owner? shadowing 2 "y" (.counted 1) = none := rfl
  obtain ⟨halt, last, halts⟩ : ∃ halt last,
      (Operation.read (.counted 1) 2 ⟨.identifier, "y", 1⟩).run shadowing = .error halt last :=
    ⟨_, _, Operation.run_read_of_none missing⟩
  cases keeps _ _ _ halts
  exact ⟨halt, halts⟩

end Lox.Frames
