import Lox.Proofs.Lexical.Steps

/-!
Contract: names in frames, and the same names in cells.

Owns:
- `Stands`: a frame and the open scopes stand for a place;
- that reading, changing and declaring names corresponds, and so does opening a frame.

A name is declared in the current frame when its value is there. The reference interpreter
has a cell for it before that, in which there is nothing yet.
-/

namespace Lox.Lexical

open World
open Scope (Scopes)

/-- The current frame stands for a place. A local frame has names that the innermost scope
declares, and no others. -/
inductive Stands (world : World) : Scopes → Nat → Place → Prop where
  | outermost : Stands world [] world.globals .outermost
  | inside {scope : Scope.Declarations} {outer : Scopes} {frame : Nat} {names : Names}
      (isLocal : frame ≠ world.globals) (made : frame < world.size)
      (settled : Scopes.Settled (scope :: outer))
      (visible : Visible world (scope :: outer) frame names)
      (declared : ∀ name, Scopes.innermost? (scope :: outer) name = none →
        world.cell frame name = none) :
      Stands world (scope :: outer) frame (.inside names)

namespace Stands

variable {world future : World} {scopes : Scopes} {frame : Nat} {place : Place}

theorem visible (stands : Stands world scopes frame place) :
    Visible world scopes frame place.names := by
  cases stands with
  | outermost => exact Visible.outermost world _
  | inside _ _ _ visible _ => exact visible

theorem settled (stands : Stands world scopes frame place) : scopes.Settled := by
  cases stands with
  | outermost => exact Scopes.Settled.nil
  | inside _ _ settled _ _ => exact settled

theorem grow (stands : Stands world scopes frame place) (grows : Grows nothing world future) :
    Stands future scopes frame place := by
  cases stands with
  | outermost =>
      rw [← grows.globals]
      exact .outermost
  | inside isLocal made settled visible declared =>
      refine .inside ?_ (Nat.lt_of_lt_of_le made grows.size) settled (visible.grow grows) ?_
      · rw [grows.globals]
        exact isLocal
      · intro name undeclared
        rw [grows.kept frame made id]
        exact declared name undeclared

end Stands

section Names

variable {changing : Nat → Prop} {world : World} {scopes : Scopes} {frame : Nat}

/-! ### Reading and changing -/

/-- Outside all frames names are looked up among the globals. -/
theorem Heap.get?_globals {machine : Machine} {store : Store} (heap : Heap world machine store)
    (name : String) :
    machine.frames.get? machine.globals name = machine.frames.lookup? world.globals name := by
  have root : machine.frames.parent? world.globals = none := by
    rw [heap.parent]
    exact heap.outermost
  rw [heap.globals, machine.frames.get?_of_root root]

theorem lookUp_simulates {id : Nat} {name : Token} {place : Place}
    (visible : Visible world scopes frame place.names)
    (known : world.recorded id (scopes.distance? name.lexeme)) :
    Simulates changing ValueLike world frame (Evaluation.lookUp id name) (lookUp place name) := by
  unfold Evaluation.lookUp lookUp
  cases present : scopes.distance? name.lexeme with
  | none =>
      rw [visible.ofGlobal present]
      refine Simulates.get fun machine store heap here => ?_
      have global := heap.global name.lexeme
      rw [← heap.get?_globals] at global
      rw [heap.recorded _ _ known, present]
      exact Simulates.require name _ global machine store heap here
  | some distance =>
      obtain ⟨owner, cell, leads, stands, captured, _⟩ := visible.ofLocal present
      rw [captured]
      refine Simulates.get fun machine store heap here => ?_
      have content := (heap.content owner name.lexeme cell stands).2.2
      have reached := (heap.ancestor frame distance).trans leads
      rw [← machine.frames.getAt?_of_ancestor reached, ← here] at content
      rw [heap.recorded _ _ known, present]
      exact Simulates.require name _ content machine store heap here

/-- A binding owns a name where the name has a value. -/
theorem optionRel_owner {α β γ : Type} {relation : α → β → Prop} {more : γ → β → Prop}
    {left : Option α} {right : Option β} {owner : γ} (related : Option.Rel relation left right)
    (owns : ∀ other, more owner other) :
    Option.Rel more (if left.isSome then some owner else none) right := by
  cases related with
  | none => exact .none
  | some _ => exact .some (owns _)

/-- What an occurrence of a name refers to: a frame in which the cell stands for it, or the
outermost frame if it has no cell. -/
theorem ownerOf_simulates {id : Nat} {name : Token} {place : Place}
    (visible : Visible world scopes frame place.names)
    (known : world.recorded id (scopes.distance? name.lexeme)) :
    Simulates changing
      (fun future owner _ =>
        (∀ cell, place.names[name.lexeme]? = some cell →
          future.cell owner name.lexeme = some cell) ∧
        (place.names[name.lexeme]? = none → owner = future.globals))
      world frame (Evaluation.ownerOf id name) (lookUp place name) := by
  unfold Evaluation.ownerOf lookUp
  cases present : scopes.distance? name.lexeme with
  | none =>
      have absent := visible.ofGlobal present
      rw [absent]
      refine Simulates.get fun machine store heap here => ?_
      have root : machine.frames.parent? world.globals = none := by
        rw [heap.parent]
        exact heap.outermost
      rw [heap.recorded _ _ known, present, heap.globals, machine.frames.find?_of_root root]
      refine Simulates.require name _ ?_ machine store heap here
      exact optionRel_owner (heap.global name.lexeme) fun _ => ⟨nofun, fun _ => rfl⟩
  | some distance =>
      obtain ⟨owner, cell, leads, stands, captured, _⟩ := visible.ofLocal present
      rw [captured]
      refine Simulates.get fun machine store heap here => ?_
      have reached := (heap.ancestor frame distance).trans leads
      rw [heap.recorded _ _ known, present]
      refine Simulates.require name _ ?_ machine store heap here
      rw [here, machine.frames.owner?_of_ancestor reached]
      refine optionRel_owner (heap.content owner name.lexeme cell stands).2.2 fun _ => ?_
      refine ⟨fun other same => ?_, nofun⟩
      rw [← Option.some.inj same]
      exact stands

/-- A value for a name that has a cell. -/
theorem setCell_simulates {owner cell : Nat} {name : String} {value : Lox.Value} {other : Value}
    (stands : world.cell owner name = some cell)
    (like : ValueLike (world.settle owner name) value other) :
    Simulates changing (fun future _ _ => future = world.settle owner name) world frame
      (Evaluation.defineIn owner name value) (setCell cell other) := by
  intro machine store heap here
  have grows : Grows changing world (world.settle owner name) :=
    (settle_grows world owner name).weaken fun _ => False.elim
  exact ⟨_, ⟨grows, heap.bind stands like, rfl, rfl, rfl⟩, rfl⟩

/-- A value for a global name. -/
theorem setGlobal_simulates {name : String} {value : Lox.Value} {other : Value}
    (like : ValueLike world value other) :
    Simulates changing (fun future _ _ => future = world) world frame
      (Evaluation.defineIn world.globals name value) (setGlobal name other) :=
  fun _ _ heap _ => ⟨world, ⟨Grows.refl _ _, heap.bindGlobal name like, rfl, rfl, rfl⟩, rfl⟩

theorem assign_simulates {id : Nat} {name : Token} {place : Place} {value : Lox.Value}
    {other : Value} (visible : Visible world scopes frame place.names)
    (known : world.recorded id (scopes.distance? name.lexeme))
    (like : ValueLike world value other) :
    Simulates changing (fun _ _ _ => True) world frame (Evaluation.assign id name value)
      (assign place name other) := by
  unfold Evaluation.assign assign
  refine (ownerOf_simulates visible known).bind fun future owner _ grows owns => ?_
  have grown := like.grow grows
  cases captured : place.names[name.lexeme]? with
  | none =>
      obtain rfl := owns.2 captured
      exact (setGlobal_simulates grown).imp fun _ _ _ _ _ => trivial
  | some cell =>
      have settled := grown.grow (settle_grows future owner name.lexeme)
      exact (setCell_simulates (owns.1 cell captured) settled).imp fun _ _ _ _ _ => trivial

/-! ### Declaring -/

/-- A declared name that has got its value is declared completely. -/
theorem Visible.introduce {name : Token} {names : Names} (free : scopes.Free name)
    (visible : Visible world (scopes.declare name).1 frame names) :
    Visible (world.settle frame name.lexeme) (scopes.introduce name).1 frame names := by
  rw [Scopes.declare_of_free free] at visible
  rw [Scopes.introduce_of_free free]
  cases scopes with
  | nil => exact visible.grow (settle_grows _ _ _)
  | cons scope outer => exact visible.settle

theorem Stands.lt {place : Place} (stands : Stands world scopes frame place)
    {machine : Machine} {store : Store} (heap : Heap world machine store) : frame < world.size := by
  cases stands with
  | outermost => exact heap.root
  | inside _ made _ _ _ => exact made

/-- A declared name is in scope when its cell has got a value. -/
theorem Stands.introduce {scope : Scope.Declarations} {outer : Scopes} {name : Token}
    {names : Names} (isLocal : frame ≠ world.globals) (made : frame < world.size)
    (settled : Scopes.Settled (scope :: outer)) (free : Scopes.Free (scope :: outer) name)
    (visible : Visible world (Scopes.declare (scope :: outer) name).1 frame names)
    (declared : ∀ other, other ≠ name.lexeme →
      Scopes.innermost? (scope :: outer) other = none → world.cell frame other = none) :
    Stands (world.settle frame name.lexeme) (Scopes.introduce (scope :: outer) name).1 frame
      (.inside names) := by
  have seen := visible.introduce free
  have complete := settled.introduce free
  rw [Scopes.introduce_of_free free] at seen complete ⊢
  refine .inside isLocal made complete seen fun other undeclared => ?_
  change Scopes.innermost? (Scopes.record name.lexeme true (((name.lexeme, false) :: scope) ::
    outer)) other = none at undeclared
  rw [Scopes.innermost?_record] at undeclared
  split at undeclared
  case isTrue => cases undeclared
  case isFalse differ =>
      change Scopes.innermost? (Scopes.record name.lexeme false (scope :: outer)) other = none
        at undeclared
      rw [Scopes.innermost?_record, if_neg differ] at undeclared
      exact declared other differ undeclared

/-- The end of a declaration: the value comes into the frame, and into the cell. -/
theorem define_simulates {name : String} {cell : Nat} {value : Lox.Value} {other : Value}
    {names : Names} (stands : world.cell frame name = some cell)
    (like : ValueLike (world.settle frame name) value other)
    (behind : Stands (world.settle frame name) scopes frame (.inside names)) :
    Simulates nothing (fun future _ behind => Stands future scopes frame behind) world frame
      (Evaluation.define name value) (do setCell cell other; return .inside names) := by
  intro machine store heap here
  subst here
  exact ⟨_, ⟨settle_grows _ _ _, heap.bind stands like, rfl, rfl, rfl⟩, behind⟩

/-- A name whose value is computed where its cell is visible already. Nothing in the
computation can tell: the cell is as empty as the machine's frame. -/
theorem declare_simulates {place : Place} {name : Token} {left : Evaluation.Eval Lox.Value}
    {initial : Place → Eval Value} (stands : Stands world scopes frame place)
    (free : scopes.Free name)
    (value : ∀ middle behind, Grows (only frame) world middle → frame < middle.size →
      Visible middle (scopes.declare name).1 frame behind.names →
      Simulates nothing (fun future value other => ValueLike (future.settle frame name.lexeme)
        value other) middle frame left (initial behind)) :
    Simulates (only frame)
      (fun future _ behind => Stands future (scopes.introduce name).1 frame behind) world frame
      (left >>= Evaluation.define name.lexeme) (declare place name.lexeme initial) := by
  intro machine store heap here
  cases stands with
  | outermost =>
      have first := value world .outermost (Grows.refl _ _) heap.root (Visible.outermost world _)
      refine first.ofNothing.bind (fun future value other grows like => ?_) machine store heap here
      rw [← grows.globals] at like ⊢
      intro machine store heap here
      have settled := heap.settleGlobal name.lexeme
      have grows : Grows (only future.globals) future (future.settle future.globals name.lexeme) :=
        (settle_grows future future.globals name.lexeme).weaken fun _ => False.elim
      refine ⟨_, ⟨grows, ?_, rfl, rfl, rfl⟩, .outermost⟩
      rw [here]
      exact settled.bindGlobal name.lexeme like
  | @inside scope outer _ names isLocal made settled visible declared =>
      have new := declared name.lexeme free
      have grows := place_grows store.cells.size new
      have placed := heap.newCell made isLocal new
      have seen := visible.place store.cells.size new
      rw [← Scopes.declare_of_free free] at seen
      have here' : (world.place frame name.lexeme store.cells.size).cell frame name.lexeme =
          some store.cells.size := by simp [World.place]
      have first := value _ (.inside (names.insert name.lexeme store.cells.size)) grows made seen
      have declaredThere : ∀ other, other ≠ name.lexeme →
          Scopes.innermost? (scope :: outer) other = none →
          (world.place frame name.lexeme store.cells.size).cell frame other = none := by
        intro other differ undeclared
        simpa [World.place, differ] using declared other undeclared
      refine Agree.trans ⟨grows, placed, rfl, rfl, rfl⟩ ?_
      refine ((first.bind fun future value other grown like => ?_).weaken
        fun _ => False.elim) machine _ placed here
      refine define_simulates (grown.cell _ _ _ here') like ?_
      refine Stands.introduce ?_ (Nat.lt_of_lt_of_le made grown.size) settled free
        (seen.grow grown) fun other differ undeclared => ?_
      · rw [grown.globals]
        exact isLocal
      · rw [grown.kept frame made id]
        exact declaredThere other differ undeclared

/-! ### Opening a frame -/

/-- Computations in another frame. The current frame is the same again afterwards. -/
theorem within_simulates {α β : Type} {relation : World → α → β → Prop} {inner : Nat}
    {left : Evaluation.Eval α} {right : Eval β}
    (body : Simulates changing relation world inner left right) :
    Simulates changing relation world frame (Evaluation.within inner left) right := by
  intro machine store heap here
  have agree := body { machine with environment := inner } store (heap.setEnvironment inner) rfl
  unfold Evaluation.within
  dsimp only
  generalize left { machine with environment := inner } = result, right store = expected at agree ⊢
  cases result with
  | ok value final =>
      cases expected with
      | ok other after =>
          obtain ⟨future, leaves, related⟩ := agree
          exact ⟨future, ⟨leaves.grows, leaves.heap.setEnvironment _, leaves.recorded, rfl,
            leaves.locals⟩, related⟩
      | error => exact agree.elim
  | error halt final =>
      cases expected with
      | ok => exact agree.elim
      | error cause after =>
          obtain ⟨same, future, leaves⟩ := agree
          exact ⟨same, future, ⟨leaves.grows, leaves.heap.setEnvironment _, leaves.recorded, rfl,
            leaves.locals⟩⟩

/-- Computations one call deeper. -/
theorem deeper_simulates {α β : Type} {relation : World → α → β → Prop}
    {left : Evaluation.Eval α} {right : Eval β}
    (body : Simulates changing relation world frame left right) :
    Simulates changing relation world frame (Evaluation.deeper left) (deeper right) := by
  intro machine store heap here
  have entered := heap.setDepth (machine.depth + 1)
  have agree := body { machine with depth := machine.depth + 1 } _ entered here
  unfold Evaluation.deeper deeper
  rw [← heap.depth]
  generalize left { machine with depth := machine.depth + 1 } = result,
    right { store with depth := machine.depth + 1 } = expected at agree ⊢
  cases result with
  | ok value final =>
      cases expected with
      | ok other after =>
          obtain ⟨future, leaves, related⟩ := agree
          have left := leaves.heap.setDepth (final.depth - 1)
          dsimp only
          rw [← leaves.heap.depth]
          exact ⟨future, ⟨leaves.grows, left, leaves.recorded, leaves.environment,
            leaves.locals⟩, related⟩
      | error => exact agree.elim
  | error halt final =>
      cases expected with
      | ok => exact agree.elim
      | error cause after =>
          obtain ⟨same, future, leaves⟩ := agree
          have left := leaves.heap.setDepth (final.depth - 1)
          dsimp only
          rw [← leaves.heap.depth]
          exact ⟨same, future, ⟨leaves.grows, left, leaves.recorded, leaves.environment,
            leaves.locals⟩⟩

/-- A new frame stands for the place inside it. -/
theorem Stands.push {names : Names} {machine : Machine} {store : Store}
    (heap : Heap world machine store) (settled : scopes.Settled)
    (visible : Visible world scopes frame names) :
    Stands (world.push frame) ([] :: scopes) world.size (.inside names) := by
  refine .inside ?_ (Nat.lt_succ_self _) settled.push (visible.push heap.new) fun name _ => ?_
  · exact Nat.ne_of_gt heap.root
  · exact heap.cell_new name

/-- What happens in a new frame is no change to old ones. -/
theorem pushFrame_simulates {α β : Type} {relation : World → α → β → Prop} {parent : Nat}
    {next : Nat → Evaluation.Eval α} {right : Eval β} (older : parent < world.size)
    (following : ∀ machine store, Heap world machine store →
      Simulates (only world.size) relation (world.push parent) frame (next world.size) right) :
    Simulates changing relation world frame (Evaluation.pushFrame parent >>= next) right := by
  intro machine store heap here
  have pushed := heap.push older
  have agree := following machine store heap _ store pushed here
  rw [← heap.size] at agree
  have grows := push_grows parent heap.new
  have new : ∀ other, only machine.frames.size other → world.size ≤ other := by
    rintro other rfl
    exact Nat.le_of_eq heap.size.symm
  refine agree.imp (fun future final store leaves => ?_) fun _ _ _ _ related => related
  have grown : Grows nothing world future := grows.transNew leaves.grows new
  exact ⟨grown.weaken fun _ => False.elim, leaves.heap, leaves.recorded, leaves.environment,
    leaves.locals⟩

/-- A name that is declared with its value. -/
theorem newBound_simulates {inner : Nat} {name : Token} {names : Names} {value : Lox.Value}
    {other : Value} (stands : Stands world scopes inner (.inside names))
    (free : scopes.Free name) (like : ValueLike world value other) :
    Simulates (only inner)
      (fun future _ cell => Stands future (scopes.introduce name).1 inner
        (.inside (names.insert name.lexeme cell)))
      world frame (Evaluation.defineIn inner name.lexeme value) (newCell (some other)) := by
  intro machine store heap here
  cases stands with
  | inside isLocal made settled visible declared =>
      have new := declared name.lexeme free
      have placed := place_grows store.cells.size new
      have settles := settle_grows (world.place inner name.lexeme store.cells.size) inner
        name.lexeme
      have seen := visible.place store.cells.size new
      rw [← Scopes.declare_of_free free] at seen
      refine ⟨_, ⟨placed.trans (settles.weaken fun _ => False.elim), ?_, rfl, rfl, rfl⟩, ?_⟩
      · exact heap.newBound made isLocal new like
      · have there : inner < (world.place inner name.lexeme store.cells.size).size := made
        refine Stands.introduce isLocal there settled free seen fun other differ undeclared => ?_
        simpa [World.place, differ] using declared other undeclared

/-- Parameters come into the frame of the body one after another, each with its argument. -/
theorem bindParameters_simulates {inner : Nat} {names : Names} {parameters : List Token}
    {arguments : List Lox.Value} {others : List Value}
    (stands : Stands world scopes inner (.inside names)) (free : scopes.AllFree parameters)
    (likes : List.Forall₂ (ValueLike world) arguments others)
    (matching : parameters.length = arguments.length) :
    Simulates (only inner)
      (fun future _ names => Stands future (scopes.introduceAll parameters).1 inner
        (.inside names))
      world frame
      ((parameters.zip arguments).forM fun (parameter, argument) =>
        Evaluation.defineIn inner parameter.lexeme argument)
      (bindParameters names (parameters.zip others)) := by
  induction parameters generalizing world scopes names arguments others with
  | nil => exact Simulates.pure stands
  | cons parameter parameters inductionHypothesis =>
      cases likes with
      | nil => cases matching
      | cons like likes =>
          refine (newBound_simulates stands free.1 like).bind fun future _ cell grows inside => ?_
          have grown := likes.imp fun _ _ related => related.grow grows
          exact inductionHypothesis inside free.2 grown (Nat.succ.inj matching)

end Names

end Lox.Lexical
