import Mathlib
import Lox.Proofs.Receiver.History

/-!
Contract: `this` and initializers in a session.

Owns:
- that the frame of a bound method binds `this` to its instance and nothing else, in all states;
- that the code at a point is run for one receiver, which is what `this` yields there;
- that calls of initializers and of classes yield their instances.
-/

namespace Lox.Evaluation

variable {units : Point → Prop} {last : Machine}

/-! ### Bound methods -/

/-- On a machine the closure of a function binds `this` to an instance, inside the closure of a
method. The function is an initializer if it is named so. -/
structure BoundTo (machine : Machine) (method : FunctionValue) (id : Nat)
    (function : FunctionValue) : Prop where
  closed : function.closure < machine.frames.size
  this : machine.frames.this? function.closure = some (.instance id)
  parent : machine.frames.parent? function.closure = some method.closure
  name : function.name = method.name
  isInitializer : function.isInitializer = (function.name == initializerName)

/-- Frames that exist are the same in all states of which one last state has come. -/
theorem BoundTo.back {machine : Machine} {method function : FunctionValue} {id : Nat}
    (bound : BoundTo last method id function) (kept : Kept machine last)
    (inside : function.closure < machine.frames.size) : BoundTo machine method id function :=
  { bound with
    closed := inside
    this := (kept.frames.this _ inside).symm.trans bound.this
    parent := (kept.frames.parent _ inside).symm.trans bound.parent }

theorem BoundTo.later {machine : Machine} {method function : FunctionValue} {id : Nat}
    (bound : BoundTo machine method id function) (kept : Kept machine last) :
    BoundTo last method id function :=
  { bound with
    closed := Nat.lt_of_lt_of_le bound.closed kept.frames.size
    this := (kept.frames.this _ bound.closed).trans bound.this
    parent := (kept.frames.parent _ bound.closed).trans bound.parent }

theorem bindMethod_boundTo {name : String} {method function : FunctionValue} {id : Nat}
    {machine later : Machine} (known : MethodKnown machine name method)
    (made : bindMethod method id machine = .ok function later) :
    BoundTo later method id function := by
  cases made
  refine ⟨?_, machine.frames.this?_pushThis method.closure id,
    machine.frames.parent?_pushThis known.closed id, rfl, ?_⟩
  · show machine.frames.size < (machine.frames.pushThis method.closure id).size
    rw [Frames.pushThis, Frames.size_define, Frames.size_push]
    exact Nat.lt_succ_self _
  · show method.isInitializer = (method.name == initializerName)
    rw [known.isInitializer, known.name]

theorem final_of_ok {α : Type} {result : EStateM.Result Halt Machine α} {value : α}
    {machine : Machine} (done : result = .ok value machine) : final result = machine := by
  rw [done]
  rfl

/-- A method that an instance has comes bound to it, if no field hides it. -/
theorem property_of_method {id : Nat} {name : Token} {machine later : Machine} {target : Instance}
    {method function : FunctionValue} (present : machine.instances[id]? = some target)
    (absent : target.fields[name.lexeme]? = none)
    (has : target.owner.methods[name.lexeme]? = some method)
    (made : bindMethod method id machine = .ok function later) :
    property id name machine = .ok (.function function) later := by
  unfold property
  rw [get_bind, present, Option.bind_some, Option.bind_some, absent, has]
  show (bindMethod method id >>= fun bound => pure (.function bound) : Eval Value) machine = _
  exact bind_of_ok _ made

namespace Leads

theorem before (leads : Leads units last) {point : Point} (visited : Visited units point) :
    Kept point.machine last :=
  (leads.after visited).kept.trans (leads.visited visited).2

/-- Methods are bound as they should be. -/
theorem boundTo (leads : Leads units last) {method function : FunctionValue} {id : Nat}
    (isBound : IsBound units method id function) : BoundTo last method id function := by
  obtain ⟨point, machine, later, visited, binds, made⟩ := isBound
  cases binds with
  | initializer matching present created =>
      have next := visited.next (.initializer matching present created made)
      obtain ⟨⟨_, _, _, scene, fits⟩, _⟩ := leads.visited visited
      have after := ((makeInstance_ends scene.intact fits.1).ok created).1
      have known := (fits.1 _ method present).later after.kept
      exact (bindMethod_boundTo known made).later (leads.before next)
  | @property fuel start _ node object name _ _ _ _ evaluated present absent has =>
      have after := (Ends.ok (leads.visited (visited.next .object)).1.complete.1 evaluated).1
      have known := after.intact.owner _ _ present _ method has
      have done : evaluate (invoke fuel) (.get node object name) start =
          .ok (.function function) later :=
        (bind_of_ok _ evaluated).trans (property_of_method present absent has made)
      exact (bindMethod_boundTo known made).later
        (final_of_ok done ▸ (leads.visited visited).2)

end Leads

/-! ### Calls that are completed -/

/-- A call of an initializer yields what `this` is in its closure. -/
theorem result_of_initializer {fuel : Nat} {function : FunctionValue} {paren : Token}
    {arguments : List Value} {machine later : Machine} {value : Value}
    (isInitializer : function.isInitializer = true)
    (done : invoke fuel function paren arguments machine = .ok value later) :
    value = (later.frames.this? function.closure).getD .nil := by
  cases fuel with
  | zero => cases done
  | succ fuel =>
      change callFunction _ function paren arguments machine = _ at done
      by_cases shallow : machine.depth < maxDepth
      · rw [callFunction_of_shallow _ _ _ _ shallow] at done
        obtain ⟨_, _, _, entered⟩ := bind_ok done
        obtain ⟨_, _, _, ended⟩ := bind_ok entered
        unfold callResult at ended
        rw [if_pos isInitializer] at ended
        cases ended
        rfl
      · rw [callFunction_of_deep _ _ _ _ (Nat.le_of_not_lt shallow)] at done
        cases done

/-- A call of a class yields a new instance. If the class has an initializer, it has been bound to
that instance and called. -/
theorem result_of_class {fuel : Nat} {owner : ClassValue} {paren : Token}
    {arguments : List Value} {machine later : Machine} {value : Value}
    (done : callValue (invoke fuel) (.class owner) paren arguments machine = .ok value later) :
    value = .instance machine.instances.size ∧
      ∀ method, owner.initializer? = some method →
        ∃ function middle next result,
          owner.arity = arguments.length ∧
          makeInstance owner machine = .ok machine.instances.size middle ∧
          bindMethod method machine.instances.size middle = .ok function next ∧
          invoke fuel function paren arguments next = .ok result later := by
  obtain ⟨_, _, checked, created⟩ := bind_ok done
  obtain ⟨matching, rfl⟩ := checkArity_ok checked
  obtain ⟨id, middle, made, called⟩ := bind_ok created
  cases made
  cases present : owner.initializer? with
  | none =>
      rw [present] at called
      cases called
      exact ⟨rfl, nofun⟩
  | some method =>
      rw [present] at called
      obtain ⟨function, next, bound, invoked⟩ := bind_ok called
      obtain ⟨result, last, result', ended⟩ := bind_ok invoked
      cases ended
      refine ⟨rfl, fun _ same => ?_⟩
      cases same
      exact ⟨function, _, next, result, matching, rfl, bound, result'⟩

/-- What follows a statement that did not return goes on from it. -/
theorem executeAll_of_normal {call : Invoke} {rounds : Nat} {statement : Statement}
    {machine later : Machine}
    (done : execute call rounds statement machine = .ok .normal later) (rest : List Statement) :
    executeAll call rounds (statement :: rest) machine = executeAll call rounds rest later := by
  rw [executeAll, bind_of_ok _ done]

/-- If the initializer of a class is completed, so is the call of the class. -/
theorem callValue_of_initializer {fuel : Nat} {owner : ClassValue}
    {method function : FunctionValue} {paren : Token} {arguments : List Value}
    {machine middle next later : Machine} {id : Nat} {result : Value}
    (matching : owner.arity = arguments.length) (present : owner.initializer? = some method)
    (made : makeInstance owner machine = .ok id middle)
    (bound : bindMethod method id middle = .ok function next)
    (done : invoke fuel function paren arguments next = .ok result later) :
    callValue (invoke fuel) (.class owner) paren arguments machine = .ok (.instance id) later := by
  unfold callValue
  dsimp only
  rw [bind_of_ok _ (checkArity_of_eq paren matching machine), bind_of_ok _ made]
  simp only [present]
  rw [bind_of_ok _ bound, bind_of_ok _ done]
  rfl

/-! ### Receivers -/

mutual

/-- Whatever is run for a receiver is staged for it. By induction on how evaluation has come to
the point. -/
theorem RunsFor.staged (leads : Leads units last) {point : Point} {receiver : Option Nat} :
    RunsFor units point receiver → point.StagedFor units receiver
  | .unit isUnit => leads.staged point isUnit
  | .part runs demands same =>
      staged_part demands same (RunsFor.staged leads runs) fun _ _ staged => staged.complete.1
  | .body runs demands made => by
      obtain ⟨_, seen⟩ := MadeFor.seen leads made
      obtain ⟨_, _, scene, ⟨found, known⟩, others⟩ := RunsFor.staged leads runs
      obtain ⟨_, also, _⟩ := known.code
      have kept := leads.before runs.visited
      obtain ⟨_, rfl⟩ := (also.keep kept.frames known.closed).unique seen
      cases demands with
      | body shallow opened => exact body_staged runs scene.intact known others shallow opened

/-- The closure of a function leads to the receiver for which the function was made. -/
theorem MadeFor.seen (leads : Leads units last) {function : FunctionValue}
    {receiver : Option Nat} : MadeFor units function receiver →
    ∃ distance, last.frames.Receiver function.closure distance receiver
  | .bound isBound => ⟨some 0, .here (leads.boundTo isBound).this⟩
  | .declared runs made => by
      obtain ⟨_, distance, scene, _⟩ := RunsFor.staged leads runs
      cases made
      exact ⟨distance, scene.seen.keep (leads.before runs.visited).frames scene.inside⟩

end

section Results

variable (leads : Leads units last) {fuel : Nat} {machine : Machine}

include leads

/-- The code at a point is run for one receiver. -/
theorem RunsFor.unique {point : Point} {receiver other : Option Nat}
    (first : RunsFor units point receiver) (second : RunsFor units point other) :
    receiver = other := by
  obtain ⟨_, _, scene, _⟩ := first.staged leads
  obtain ⟨_, _, same, _⟩ := second.staged leads
  exact (scene.seen.unique same.seen).2

/-- `this` yields the receiver. -/
theorem this_yields {initialized : Option Token} {id : Nat} {keyword : Token}
    (visited : Visited units ⟨fuel, .expression initialized (.this id keyword), machine⟩) :
    ∃ receiver,
      (∀ other, RunsFor units ⟨fuel, .expression initialized (.this id keyword), machine⟩ other ↔
        other = some receiver) ∧
      evaluate (invoke fuel) (.this id keyword) machine = .ok (.instance receiver) machine := by
  obtain ⟨⟨receiver, runs, distance, scene, spelled, out, far, isLocal⟩, _⟩ :=
    leads.visited visited
  obtain ⟨found, rfl, bound⟩ := scene.seen.getAt? far
  refine ⟨found, fun other => ⟨fun also => also.unique leads runs, ?_⟩, ?_⟩
  · rintro rfl
    exact runs
  · show lookUp id keyword machine = _
    rw [lookUp_of_local isLocal, spelled, bound]
    rfl

/-- An initializer yields the instance to which it is bound. -/
theorem initializer_yields {method function : FunctionValue} {id : Nat} {paren : Token}
    {arguments : List Value} {value : Value} {later : Machine}
    (visited : Visited units ⟨fuel, .call function paren arguments, machine⟩)
    (isBound : IsBound units method id function) (named : function.name = initializerName)
    (done : invoke fuel function paren arguments machine = .ok value later) :
    value = .instance id := by
  obtain ⟨⟨_, _, _, _, ⟨_, known⟩, _⟩, kept⟩ := leads.visited visited
  have left : Point.left ⟨fuel, .call function paren arguments, machine⟩ = later :=
    final_of_ok done
  have after := (leads.after visited).kept
  rw [left] at kept after
  have inside := Nat.lt_of_lt_of_le known.closed after.frames.size
  have bound := (leads.boundTo isBound).back kept inside
  have isInitializer : function.isInitializer = true := by
    rw [bound.isInitializer, named]
    exact beq_self_eq_true _
  rw [result_of_initializer isInitializer done, show _ = _ from bound.this]
  rfl

/-- A class yields a new instance, on which its initializer has been called. -/
theorem class_yields {owner : ClassValue} {paren : Token} {arguments : List Value}
    {value : Value} {later : Machine}
    (visited : Visited units ⟨fuel, .application (.class owner) paren arguments, machine⟩)
    (done : callValue (invoke fuel) (.class owner) paren arguments machine = .ok value later) :
    value = .instance machine.instances.size ∧
      ∀ method, owner.initializer? = some method →
        ∃ function next, IsBound units method machine.instances.size function ∧
          function.name = initializerName ∧
          Demands ⟨fuel, .application (.class owner) paren arguments, machine⟩
            ⟨fuel, .call function paren arguments, next⟩ ∧
          invoke fuel function paren arguments next = .ok value later := by
  obtain ⟨rfl, called⟩ := result_of_class done
  refine ⟨rfl, fun method present => ?_⟩
  obtain ⟨function, middle, next, result, matching, made, bound, invoked⟩ := called method present
  have isBound : IsBound units method machine.instances.size function :=
    ⟨_, middle, next, visited, .initializer matching present made, bound⟩
  have demands : Demands ⟨fuel, .application (.class owner) paren arguments, machine⟩
      ⟨fuel, .call function paren arguments, next⟩ := .initializer matching present made bound
  obtain ⟨⟨_, _, _, _, fits⟩, _⟩ := leads.visited visited
  have named : function.name = initializerName :=
    (leads.boundTo isBound).name.trans (fits.1 _ method present).name
  obtain rfl := initializer_yields leads (visited.next demands) isBound named invoked
  exact ⟨function, next, isBound, named, demands, invoked⟩

end Results

/-! ### Sessions -/

/-- In a session `this` and initializers are what they should be. Binding a method makes a frame
that binds `this` to the instance and nothing else, in every state that the session goes through
from then on. Wherever `this` is evaluated, the code is run for one instance, the one to which the
innermost method around the code has been bound in this activation, and `this` yields it. A
completed call of an initializer yields the instance to which it is bound, however its body has
ended, and a completed call of a class yields a new instance, on which the initializer of the class
has been called to the end. -/
theorem receivers_are_kept (output : Output) (time : Nat → Float) (requests : List Request) :
    let session := Session.start output time
    let units := session.Starts requests
    (∀ method id function machine, IsBound units method id function →
      session.Passes requests machine → function.closure < machine.frames.size →
      machine.frames.frame? function.closure =
        some ⟨(∅ : Bindings Value).insert Keyword.this.spelling (.instance id),
          some method.closure⟩) ∧
    (∀ fuel initialized id keyword machine,
      Visited units ⟨fuel, .expression initialized (.this id keyword), machine⟩ →
      ∃ receiver,
        (∀ other,
          RunsFor units ⟨fuel, .expression initialized (.this id keyword), machine⟩ other ↔
            other = some receiver) ∧
        evaluate (invoke fuel) (.this id keyword) machine = .ok (.instance receiver) machine) ∧
    (∀ fuel function paren arguments machine method id value later,
      Visited units ⟨fuel, .call function paren arguments, machine⟩ →
      IsBound units method id function → function.name = initializerName →
      invoke fuel function paren arguments machine = .ok value later → value = .instance id) ∧
    ∀ fuel owner paren arguments machine value later,
      Visited units ⟨fuel, .application (.class owner) paren arguments, machine⟩ →
      callValue (invoke fuel) (.class owner) paren arguments machine = .ok value later →
      value = .instance machine.instances.size ∧
        ∀ method, owner.initializer? = some method →
          ∃ function next, IsBound units method machine.instances.size function ∧
            function.name = initializerName ∧
            Demands ⟨fuel, .application (.class owner) paren arguments, machine⟩
              ⟨fuel, .call function paren arguments, next⟩ ∧
            invoke fuel function paren arguments next = .ok value later := by
  intro session units
  obtain ⟨leads, passes⟩ := passes_leads output time requests
  refine ⟨?_, ?_, ?_, ?_⟩
  · intro method id function machine isBound passed inside
    obtain ⟨intact, kept⟩ := passes machine passed
    have bound := (leads.boundTo isBound).back kept inside
    exact intact.whole.frame? bound.this bound.parent
  · exact fun _ _ _ _ _ visited => this_yields leads visited
  · exact fun _ _ _ _ _ _ _ _ _ visited isBound named done =>
      initializer_yields leads visited isBound named done
  · exact fun _ _ _ _ _ _ _ visited done => class_yields leads visited done

/-- A class whose initializer uses `this` is called. -/
theorem initializer_uses_this :
    let session := Session.start (.open #[]) fun _ => 0
    let requests := [Request.run 1 "{class A{init(){this;}}A();}"]
    let units := session.Starts requests
    let paren : Token := ⟨.symbol .rightParen, ")", 1⟩
    let keyword : Token := ⟨.keyword .this, "this", 1⟩
    ∃ owner method function start machine later,
      (Visited units ⟨1, .application (.class owner) paren [], start⟩ ∧
        callValue (invoke 1) (.class owner) paren [] start = .ok (.instance 0) later) ∧
      (Visited units ⟨1, .call function paren [], machine⟩ ∧ IsBound units method 0 function ∧
        function.name = initializerName ∧
        invoke 1 function paren [] machine = .ok (.instance 0) later) ∧
      (session.Passes requests later ∧ function.closure < later.frames.size ∧
        later.frames.frame? function.closure =
          some ⟨(∅ : Bindings Value).insert Keyword.this.spelling (.instance 0),
            some method.closure⟩) ∧
      ∃ inside, Visited units ⟨0, .expression none (.this 0 keyword), inside⟩ ∧
        (∀ other, RunsFor units ⟨0, .expression none (.this 0 keyword), inside⟩ other ↔
          other = some 0) ∧
        evaluate (invoke 0) (.this 0 keyword) inside = .ok (.instance 0) inside := by
  intro session requests units paren keyword
  obtain ⟨frames, receivers, initializers, classes⟩ :=
    receivers_are_kept (.open #[]) (fun _ => 0) requests
  let declaration : FunctionDeclaration :=
    ⟨⟨.identifier, "init", 1⟩, [], [.expression (.this 0 keyword)]⟩
  let table : Scope.Locals := ((∅ : Scope.Locals).insert 0 1).insert 1 0
  have unit : AcceptedUnit "{class A{init(){this;}}A();}" session.nextId
      [.block [.class ⟨.identifier, "A", 1⟩ [declaration],
        .expression (.call 2 (.variable 1 ⟨.identifier, "A", 1⟩) paren [])]] table 3 :=
    ⟨by cbv, rfl⟩
  let method : FunctionValue := ⟨0, declaration, 1, true⟩
  let owner : ClassValue := ⟨1, "A", (∅ : Bindings FunctionValue).insert "init" method⟩
  let function : FunctionValue := ⟨2, declaration, 2, true⟩
  -- The machine when the class is called, when its initializer is called, and behind both calls.
  let start : Machine := { session.machine.addLocals table with
    frames := (session.machine.frames.push (some 0)).define 1 "A" (.class owner)
    nextIdentity := 2
    environment := 1 }
  let middle : Machine := { start with
    frames := start.frames.pushThis 1 0
    instances := #[⟨owner, ∅⟩]
    nextIdentity := 3 }
  let later : Machine := { middle with frames := middle.frames.push (some 2) }
  let inside : Machine := { later with depth := 1, environment := 3 }
  have started : units ⟨1, .statements _, session.machine.addLocals table⟩ := .here unit
  have opened := ((Visited.unit started).next .firstStatement).next .block
  have declared : Visited units ⟨1, .statements _, start⟩ :=
    opened.next (.nextStatements (Eq.trans (execute_class _ _ _ _ (Nat.lt_succ_self 1)) rfl))
  have called : Visited units ⟨1, .application (.class owner) paren [], start⟩ :=
    ((declared.next .firstStatement).next .expression).next (.application rfl rfl)
  have present : owner.initializer? = some method := rfl
  have isBound : IsBound units method 0 function :=
    ⟨_, _, middle, called, .initializer rfl present rfl, rfl⟩
  have entered : Visited units ⟨1, .call function paren [], middle⟩ :=
    called.next (.initializer rfl present rfl rfl)
  have opens : openFrame function [] middle = .ok 3 later := rfl
  have body := entered.next (.body (Nat.zero_lt_succ _) opens)
  have used : Visited units ⟨0, .expression none (.this 0 keyword), inside⟩ :=
    (body.next .firstStatement).next .expression
  obtain ⟨receiver, runs, found⟩ := receivers _ _ _ _ _ used
  have ran : executeAll (invoke 0) 0 declaration.body inside = .ok .normal inside :=
    executeAll_of_normal (bind_of_ok _ found) []
  have framed : within 3 (executeAll (invoke 0) 0 declaration.body) { later with depth := 1 } =
      .ok .normal { later with depth := 1 } :=
    @within_of_ok _ _ 3 { later with depth := 1 } inside _ ran
  have returned : deeper (within 3 (executeAll (invoke 0) 0 declaration.body)) later =
      .ok .normal later := @deeper_of_ok _ _ later { later with depth := 1 } _ framed
  obtain ⟨value, done⟩ : ∃ value, invoke 1 function paren [] middle = .ok value later := by
    refine ⟨.instance 0, ?_⟩
    show callFunction _ function paren [] middle = _
    rw [callFunction_of_shallow _ _ _ _ (Nat.zero_lt_succ _), bind_of_ok _ opens]
    exact bind_of_ok _ returned
  obtain rfl := initializers _ _ _ _ _ _ _ _ _ entered isBound rfl done
  obtain ⟨value, made⟩ :
      ∃ value, callValue (invoke 1) (.class owner) paren [] start = .ok value later :=
    ⟨.instance 0, callValue_of_initializer rfl present rfl rfl done⟩
  obtain ⟨rfl, _⟩ := classes _ _ _ _ _ _ _ called made
  have left : Point.left ⟨1, .call function paren [], middle⟩ = later := final_of_ok done
  have passes : session.Passes requests later := left ▸ .behind entered
  have older : function.closure < later.frames.size := (by decide : 2 < 4)
  have bound : inside.frames.getAt? 3 1 "this" = some (.instance 0) := rfl
  have looked : lookUp 0 keyword inside = .ok (.instance 0) inside := by
    rw [lookUp_of_local (rfl : inside.locals[0]? = some 1)]
    exact congrArg (require keyword _ · inside) bound
  cases found.symm.trans looked
  exact ⟨owner, method, function, start, middle, later, ⟨called, made⟩,
    ⟨entered, isBound, rfl, done⟩, ⟨passes, older, frames _ _ _ _ isBound passes older⟩,
    inside, used, runs, found⟩

end Lox.Evaluation
