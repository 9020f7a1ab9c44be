import Lox.Proofs.Evaluation.Restoration
import Lox.Proofs.Evaluation.Runs
import Lox.Proofs.Frames

/-!
Contract: the frames around a frame lead to the globals.

Owns:
- `Rooted`: every frame but the globals has one around it, the current frame and all closures
  are frames that are there;
- `Roots`: a computation keeps a machine rooted, however it ends, and the closures in its value
  are there;
- how it composes, and that each step and each construct of the language satisfies it.

A frame is made inside the current one or inside a closure, so that the frames need the closures:
both are kept in one induction. What is there stays there, as frames are never taken away.
-/

namespace Lox

namespace Frames

/-- Every frame but one has a frame around it. -/
def Surrounded (frames : Frames) (root : Nat) : Prop :=
  ∀ id < frames.size, id ≠ root → (frames.parent? id).isSome

/-- Then the frames around a frame lead to that one. By induction on the frames around it, which
are older. -/
theorem Surrounded.leads {frames : Frames} {root id : Nat} (surrounded : frames.Surrounded root)
    (inside : id < frames.size) : ∃ distance, frames.ancestor? id distance = some root := by
  induction id using Nat.strongRecOn with
  | ind id inductionHypothesis =>
      by_cases here : id = root
      · exact ⟨0, congrArg some here⟩
      · obtain ⟨parent, around⟩ := Option.isSome_iff_exists.mp (surrounded id inside here)
        have older := frames.parent?_lt around
        obtain ⟨distance, leads⟩ := inductionHypothesis parent older (Nat.lt_trans older inside)
        refine ⟨distance + 1, ?_⟩
        unfold ancestor?
        rw [around]
        exact leads

/-- A frame so many frames out is older. -/
theorem ancestor?_le (frames : Frames) {id distance ancestor : Nat}
    (leads : frames.ancestor? id distance = some ancestor) : ancestor + distance ≤ id := by
  induction distance generalizing id with
  | zero =>
      cases leads
      exact Nat.le_refl _
  | succ distance inductionHypothesis =>
      unfold ancestor? at leads
      obtain ⟨parent, around, further⟩ := Option.bind_eq_some_iff.mp leads
      have older := frames.parent?_lt around
      have rest := inductionHypothesis further
      omega

end Frames

namespace Evaluation

/-- The frame that a function closes over is there. -/
abbrev FunctionBelow (size : Nat) (function : FunctionValue) : Prop :=
  function.closure < size

/-- The frames that methods close over are there. -/
def MethodsBelow (size : Nat) (methods : Bindings FunctionValue) : Prop :=
  ∀ (name : String) method, methods[name]? = some method → FunctionBelow size method

/-- The frames that the functions in a value close over are there. -/
def ValueBelow (size : Nat) : Value → Prop
  | .function function => FunctionBelow size function
  | .class owner => MethodsBelow size owner.methods
  | .nil | .boolean _ | .number _ | .string _ | .native _ | .instance _ => True

theorem MethodsBelow.mono {size more : Nat} {methods : Bindings FunctionValue}
    (below : MethodsBelow size methods) (le : size ≤ more) : MethodsBelow more methods :=
  fun name method present => Nat.lt_of_lt_of_le (below name method present) le

theorem ValueBelow.mono {size more : Nat} {value : Value} (below : ValueBelow size value)
    (le : size ≤ more) : ValueBelow more value := by
  cases value with
  | function => exact Nat.lt_of_lt_of_le below le
  | «class» => exact MethodsBelow.mono below le
  | _ => trivial

theorem MethodsBelow.empty (size : Nat) : MethodsBelow size ∅ := by
  intro name method present
  rw [Std.ExtTreeMap.getElem?_empty] at present
  cases present

theorem MethodsBelow.insert {size : Nat} {methods : Bindings FunctionValue}
    (below : MethodsBelow size methods) (name : String) {method : FunctionValue}
    (inside : FunctionBelow size method) : MethodsBelow size (methods.insert name method) := by
  intro other found present
  rw [Std.ExtTreeMap.getElem?_insert] at present
  split at present
  case isTrue =>
      cases present
      exact inside
  case isFalse => exact below other found present

/-- Every frame but the globals has one around it, and the current frame and all closures on the
machine are frames that are there. -/
structure Rooted (machine : Machine) : Prop where
  current : machine.environment < machine.frames.size
  outermost : machine.frames.parent? machine.globals = none
  surrounded : machine.frames.Surrounded machine.globals
  root : machine.globals < machine.frames.size
  bound : ∀ id name value, machine.frames.lookup? id name = some value →
    ValueBelow machine.frames.size value
  target : ∀ (id : Nat) target, machine.instances[id]? = some target →
    MethodsBelow machine.frames.size target.owner.methods ∧
      ∀ (name : String) value, target.fields[name]? = some value →
        ValueBelow machine.frames.size value

namespace Rooted

variable {machine : Machine}

theorem enter (rooted : Rooted machine) {frame : Nat} (inside : frame < machine.frames.size) :
    Rooted { machine with environment := frame } :=
  { rooted with current := inside }

theorem push (rooted : Rooted machine) {parent : Nat} (inside : parent < machine.frames.size) :
    Rooted { machine with frames := machine.frames.push (some parent) } := by
  have size : (machine.frames.push (some parent)).size = machine.frames.size + 1 :=
    machine.frames.size_push _
  have more : machine.frames.size ≤ (machine.frames.push (some parent)).size := by omega
  refine {
    current := Nat.lt_of_lt_of_le rooted.current more
    outermost := ?_
    surrounded := ?_
    root := Nat.lt_of_lt_of_le rooted.root more
    bound := ?_
    target := ?_ }
  · exact (machine.frames.parent?_push_of_ne _ (Nat.ne_of_lt rooted.root)).trans rooted.outermost
  · intro id made other
    by_cases new : id = machine.frames.size
    · subst new
      show ((machine.frames.push (some parent)).parent? machine.frames.size).isSome
      rw [machine.frames.parent?_push_self inside]
      rfl
    · have old : id < machine.frames.size := by
        have inside : id < (machine.frames.push (some parent)).size := made
        omega
      show ((machine.frames.push (some parent)).parent? id).isSome
      rw [machine.frames.parent?_push_of_ne _ new]
      exact rooted.surrounded id old other
  · intro id name value found
    have here : machine.frames.lookup? id name = some value :=
      (machine.frames.lookup?_push _ _ _).symm.trans found
    exact (rooted.bound id name value here).mono more
  · intro id target found
    obtain ⟨owner, fields⟩ := rooted.target id target found
    exact ⟨owner.mono more, fun name value has => (fields name value has).mono more⟩

theorem define (rooted : Rooted machine) (frame : Nat) (name : String) {value : Value}
    (below : ValueBelow machine.frames.size value) :
    Rooted { machine with frames := machine.frames.define frame name value } := by
  have size : (machine.frames.define frame name value).size = machine.frames.size :=
    machine.frames.size_define _ _ _
  refine {
    current := size ▸ rooted.current
    outermost := (machine.frames.parent?_define _ _ _ _).trans rooted.outermost
    surrounded := ?_
    root := size ▸ rooted.root
    bound := ?_
    target := ?_ }
  · intro id made other
    show ((machine.frames.define frame name value).parent? id).isSome
    rw [machine.frames.parent?_define]
    exact rooted.surrounded id (size ▸ made) other
  · intro id different found bound
    show ValueBelow (machine.frames.define frame name value).size found
    rw [size]
    by_cases same : id = frame ∧ different = name
    · obtain ⟨rfl, rfl⟩ := same
      by_cases inside : id < machine.frames.size
      · cases (machine.frames.lookup?_define_self inside different value).symm.trans bound
        exact below
      · have none := (machine.frames.define id different value).lookup?_of_size_le
          (Nat.le_of_not_lt (size ▸ inside)) different
        cases none.symm.trans bound
    · have here := (machine.frames.lookup?_define_of_ne value same).symm.trans bound
      exact rooted.bound id different found here
  · intro id target found
    show MethodsBelow (machine.frames.define frame name value).size target.owner.methods ∧ _
    rw [size]
    exact rooted.target id target found

theorem newInstance (rooted : Rooted machine) {owner : ClassValue}
    (below : MethodsBelow machine.frames.size owner.methods) :
    Rooted { machine with instances := machine.instances.push ⟨owner, ∅⟩ } := by
  refine { rooted with target := fun id target found => ?_ }
  change (machine.instances.push ⟨owner, ∅⟩)[id]? = some target at found
  rw [Array.getElem?_push] at found
  split at found
  case isTrue =>
      cases found
      refine ⟨below, fun name value has => ?_⟩
      rw [Std.ExtTreeMap.getElem?_empty] at has
      cases has
  case isFalse => exact rooted.target id target found

theorem setField (rooted : Rooted machine) (changed : Nat) (name : String) {value : Value}
    (below : ValueBelow machine.frames.size value) :
    Rooted { machine with
      instances := machine.instances.modify changed fun target =>
        { target with fields := target.fields.insert name value } } := by
  refine { rooted with target := fun id target found => ?_ }
  change (machine.instances.modify changed _)[id]? = some target at found
  rw [Array.getElem?_modify] at found
  split at found
  case isTrue =>
      obtain ⟨old, isOld, rfl⟩ := Option.map_eq_some_iff.mp found
      obtain ⟨owner, fields⟩ := rooted.target id old isOld
      refine ⟨owner, fun different bound has => ?_⟩
      rw [Std.ExtTreeMap.getElem?_insert] at has
      split at has
      case isTrue =>
          cases has
          exact below
      case isFalse => exact fields different bound has
  case isFalse => exact rooted.target id target found

end Rooted

/-- On a rooted machine that has enough frames, a computation ends on a rooted machine that has
no fewer, and what it gives is known there. -/
def Roots {α : Type} (least : Nat) (known : Nat → α → Prop) (computation : Eval α) : Prop :=
  ∀ machine, Rooted machine → least ≤ machine.frames.size →
    Rooted (final (computation machine)) ∧
      machine.frames.size ≤ (final (computation machine)).frames.size ∧
      ∀ value later, computation machine = .ok value later → known later.frames.size value

/-- Nothing needs to be known. -/
abbrev whatever {α : Type} : Nat → α → Prop := fun _ _ => True

namespace Roots

variable {α β : Type} {least : Nat} {known : Nat → α → Prop} {better : Nat → β → Prop}

/-- A computation that gives a value on every machine. -/
theorem ofStep {computation : Eval α} (step : ∀ machine, Rooted machine →
    least ≤ machine.frames.size → ∃ value later, computation machine = .ok value later ∧
      Rooted later ∧ machine.frames.size ≤ later.frames.size ∧ known later.frames.size value) :
    Roots least known computation := by
  intro machine rooted enough
  obtain ⟨value, later, done, last, more, holds⟩ := step machine rooted enough
  rw [done]
  refine ⟨last, more, ?_⟩
  rintro _ _ ⟨⟩
  exact holds

/-- A computation that gives none and leaves the machine as it is. -/
theorem ofHalt {computation : Eval α}
    (halts : ∀ machine, ∃ halt, computation machine = .error halt machine) :
    Roots least known computation := by
  intro machine rooted _
  obtain ⟨halt, halted⟩ := halts machine
  rw [halted]
  refine ⟨rooted, Nat.le_refl _, ?_⟩
  rintro _ _ ⟨⟩

theorem pure {value : α} (holds : ∀ size, least ≤ size → known size value) :
    Roots least known (Pure.pure value : Eval α) :=
  ofStep fun _ rooted enough => ⟨_, _, rfl, rooted, Nat.le_refl _, holds _ enough⟩

theorem outOfFuel : Roots least known (throw .outOfFuel : Eval α) :=
  ofHalt fun _ => ⟨_, rfl⟩

theorem fail (token : Token) (fault : RuntimeFault) :
    Roots least known (Evaluation.fail token fault : Eval α) :=
  ofHalt fun _ => ⟨_, rfl⟩

theorem require (token : Token) (fault : RuntimeFault) {value : Option α}
    (holds : ∀ found, value = some found → ∀ size, least ≤ size → known size found) :
    Roots least known (Evaluation.require token fault value) := by
  cases value with
  | none => exact fail token fault
  | some value => exact pure (holds value rfl)

/-- The machine is rooted, and its frames stay there. -/
theorem get : Roots least (fun size machine => Rooted machine ∧ least ≤ machine.frames.size ∧
    machine.frames.size ≤ size) (MonadState.get : Eval Machine) :=
  ofStep fun machine rooted enough =>
    ⟨machine, machine, rfl, rooted, Nat.le_refl _, rooted, enough, Nat.le_refl _⟩

theorem bind {first : Eval α} {next : α → Eval β} (roots : Roots least known first)
    (further : ∀ value size, least ≤ size → known size value → Roots size better (next value)) :
    Roots least better (first >>= next) := by
  intro machine rooted enough
  obtain ⟨rootedBehind, more, gives⟩ := roots machine rooted enough
  cases result : first machine with
  | ok value middle =>
      rw [result] at rootedBehind more
      have most : least ≤ middle.frames.size := Nat.le_trans enough more
      obtain ⟨last, evenMore, result'⟩ := further value middle.frames.size most
        (gives value middle result) middle rootedBehind (Nat.le_refl _)
      rw [bind_of_ok next result]
      exact ⟨last, Nat.le_trans more evenMore, result'⟩
  | error halt middle =>
      rw [result] at rootedBehind more
      rw [bind_of_error next result]
      refine ⟨rootedBehind, more, ?_⟩
      rintro _ _ ⟨⟩

theorem ite {condition : Prop} [Decidable condition] {first second : Eval α}
    (whenTrue : Roots least known first) (whenFalse : Roots least known second) :
    Roots least known (if condition then first else second) := by
  split
  · exact whenTrue
  · exact whenFalse

/-- More frames are enough as well. -/
theorem mono {more : Nat} {computation : Eval α} (roots : Roots least known computation)
    (le : least ≤ more) : Roots more known computation :=
  fun machine rooted enough => roots machine rooted (Nat.le_trans le enough)

theorem within {frame : Nat} {computation : Eval α} (inside : frame < least)
    (roots : Roots least known computation) :
    Roots least known (Evaluation.within frame computation) := by
  intro machine rooted enough
  obtain ⟨last, more, gives⟩ := roots { machine with environment := frame }
    (rooted.enter (Nat.lt_of_lt_of_le inside enough)) enough
  have back : machine.environment <
      (final (computation { machine with environment := frame })).frames.size :=
    Nat.lt_of_lt_of_le rooted.current more
  unfold Evaluation.within
  dsimp only
  generalize computation { machine with environment := frame } = result at last more gives back ⊢
  cases result with
  | ok value after =>
      refine ⟨last.enter back, more, ?_⟩
      rintro _ _ ⟨⟩
      exact gives value after rfl
  | error halt after =>
      refine ⟨last.enter back, more, ?_⟩
      rintro _ _ ⟨⟩

theorem deeper {computation : Eval α} (roots : Roots least known computation) :
    Roots least known (Evaluation.deeper computation) := by
  intro machine rooted enough
  obtain ⟨last, more, gives⟩ := roots { machine with depth := machine.depth + 1 }
    { rooted with } enough
  unfold Evaluation.deeper
  generalize computation { machine with depth := machine.depth + 1 } = result at last more gives ⊢
  cases result with
  | ok value after =>
      refine ⟨{ last with }, more, ?_⟩
      rintro _ _ ⟨⟩
      exact gives value after rfl
  | error halt after =>
      refine ⟨{ last with }, more, ?_⟩
      rintro _ _ ⟨⟩

end Roots

/-! ### Steps -/

section Steps

variable {least : Nat}

theorem freshIdentity_roots : Roots least whatever freshIdentity :=
  Roots.ofStep fun _ rooted _ => ⟨_, _, rfl, { rooted with }, Nat.le_refl _, trivial⟩

theorem readClock_roots : Roots least whatever readClock :=
  Roots.ofStep fun _ rooted _ => ⟨_, _, rfl, { rooted with }, Nat.le_refl _, trivial⟩

theorem printValue_roots (value : Value) : Roots least whatever (printValue value) :=
  Roots.ofStep fun _ rooted _ => ⟨_, _, rfl, { rooted with }, Nat.le_refl _, trivial⟩

theorem pushFrame_roots {parent : Nat} (inside : parent < least) :
    Roots least (fun size frame => frame < size) (pushFrame parent) := by
  apply Roots.ofStep
  intro machine rooted enough
  have size := machine.frames.size_push (some parent)
  refine ⟨_, _, rfl, rooted.push (Nat.lt_of_lt_of_le inside enough), ?_, ?_⟩
  · show machine.frames.size ≤ (machine.frames.push (some parent)).size
    omega
  · show machine.frames.size < (machine.frames.push (some parent)).size
    omega

theorem defineIn_roots (frame : Nat) (name : String) (value : Value)
    (below : ValueBelow least value) :
    Roots least whatever (defineIn frame name value) := by
  apply Roots.ofStep
  intro machine rooted enough
  have size := machine.frames.size_define frame name value
  exact ⟨_, _, rfl, rooted.define frame name (below.mono enough), Nat.le_of_eq size.symm, trivial⟩

theorem define_roots (name : String) (value : Value) (below : ValueBelow least value) :
    Roots least whatever (define name value) :=
  Roots.get.bind fun _ _ more _ => defineIn_roots _ _ _ (below.mono more)

theorem lookUp_roots (id : Nat) (name : Token) :
    Roots least ValueBelow (lookUp id name) := by
  refine Roots.get.bind fun machine size _ ⟨rooted, _, more⟩ => ?_
  split
  · refine Roots.require _ _ fun value found later enough => ?_
    obtain ⟨_, _, bound⟩ := Option.bind_eq_some_iff.mp found
    exact (rooted.bound _ _ _ bound).mono (Nat.le_trans more enough)
  · refine Roots.require _ _ fun value found later enough => ?_
    obtain ⟨_, _, bound⟩ := Option.bind_eq_some_iff.mp found
    exact (rooted.bound _ _ _ bound).mono (Nat.le_trans more enough)

theorem ownerOf_roots (id : Nat) (name : Token) : Roots least whatever (ownerOf id name) := by
  refine Roots.get.bind fun machine size _ _ => ?_
  split
  · exact Roots.require _ _ fun _ _ _ _ => trivial
  · exact Roots.require _ _ fun _ _ _ _ => trivial

theorem assign_roots (id : Nat) (name : Token) {value : Value} (below : ValueBelow least value) :
    Roots least whatever (assign id name value) :=
  (ownerOf_roots id name).bind fun _ _ more _ => defineIn_roots _ _ _ (below.mono more)

theorem assignNearest_roots (name : Token) {value : Value} (below : ValueBelow least value) :
    Roots least whatever (assignNearest name value) :=
  Roots.get.bind fun _ _ more _ =>
    (Roots.require _ _ fun _ _ _ _ => trivial).bind fun _ _ still _ =>
      defineIn_roots _ _ _ (below.mono (Nat.le_trans more still))

theorem makeFunction_roots (declaration : FunctionDeclaration) {closure : Nat}
    (inside : closure < least) (isInitializer : Bool) :
    Roots least FunctionBelow (makeFunction declaration closure isInitializer) :=
  freshIdentity_roots.bind fun _ _ more _ => Roots.pure fun _ still =>
    Nat.lt_of_lt_of_le inside (Nat.le_trans more still)

/-- By induction on the declarations that are left. -/
theorem addMethods_roots {closure : Nat} (declarations : List FunctionDeclaration) {least : Nat}
    (inside : closure < least) {methods : Bindings FunctionValue}
    (below : MethodsBelow least methods) :
    Roots least MethodsBelow (declarations.foldlM (fun methods declaration => do
      let method ← makeFunction declaration closure (declaration.name.lexeme == initializerName)
      return methods.insert declaration.name.lexeme method) methods) := by
  induction declarations generalizing least methods with
  | nil => exact Roots.pure fun _ enough => below.mono enough
  | cons declaration declarations inductionHypothesis =>
      rw [List.foldlM_cons]
      have first : Roots least MethodsBelow (do
          let method ← makeFunction declaration closure
            (declaration.name.lexeme == initializerName)
          return methods.insert declaration.name.lexeme method) :=
        (makeFunction_roots _ inside _).bind fun method size more made =>
          Roots.pure fun later still => (below.mono (Nat.le_trans more still)).insert _
            (Nat.lt_of_lt_of_le made still)
      exact first.bind fun methods size more still =>
        inductionHypothesis (Nat.lt_of_lt_of_le inside more) still

theorem makeMethods_roots (declarations : List FunctionDeclaration) :
    Roots least MethodsBelow (makeMethods declarations) := by
  refine Roots.get.bind fun machine size _ ⟨rooted, _, more⟩ => ?_
  exact addMethods_roots declarations (Nat.lt_of_lt_of_le rooted.current more) (.empty size)

theorem makeInstance_roots {owner : ClassValue} (below : MethodsBelow least owner.methods) :
    Roots least whatever (makeInstance owner) :=
  Roots.ofStep fun _ rooted enough =>
    ⟨_, _, rfl, rooted.newInstance (below.mono enough), Nat.le_refl _, trivial⟩

theorem setField_roots (id : Nat) (name : Token) {value : Value} (below : ValueBelow least value) :
    Roots least whatever (setField id name value) :=
  Roots.ofStep fun _ rooted enough =>
    ⟨_, _, rfl, rooted.setField id name.lexeme (below.mono enough), Nat.le_refl _, trivial⟩

/-- A bound method closes over a new frame, which is inside the closure of the method. -/
theorem bindMethod_roots {method : FunctionValue} (inside : FunctionBelow least method) (id : Nat) :
    Roots least FunctionBelow (bindMethod method id) :=
  (pushFrame_roots inside).bind fun _ _ _ made =>
    (defineIn_roots _ _ (.instance id) trivial).bind fun _ _ more _ =>
      makeFunction_roots _ (Nat.lt_of_lt_of_le made more) _

theorem property_roots (id : Nat) (name : Token) :
    Roots least ValueBelow (property id name) := by
  refine Roots.get.bind fun machine size _ ⟨rooted, _, more⟩ => ?_
  dsimp only
  split
  case h_1 value found =>
      obtain ⟨target, present, has⟩ := Option.bind_eq_some_iff.mp found
      have below := (rooted.target id target present).2 _ _ has
      exact Roots.pure fun later enough => below.mono (Nat.le_trans more enough)
  case h_2 =>
      have asked : Roots size FunctionBelow (require name (.undefinedProperty name.lexeme)
          (machine.instances[id]?.bind (·.owner.methods[name.lexeme]?))) := by
        refine Roots.require _ _ fun method found later enough => ?_
        obtain ⟨target, present, has⟩ := Option.bind_eq_some_iff.mp found
        have below := (rooted.target id target present).1 _ _ has
        exact Nat.lt_of_lt_of_le below (Nat.le_trans more enough)
      exact asked.bind fun method _ _ inside => (bindMethod_roots inside id).bind fun _ _ _ bound =>
        Roots.pure fun _ enough => Nat.lt_of_lt_of_le bound enough

theorem applyUnary_roots (operator : Token) (operand : Value) :
    Roots least ValueBelow (applyUnary operator operand : Eval Value) := by
  unfold applyUnary
  split
  case h_1 | h_3 => exact Roots.pure fun _ _ => trivial
  case h_2 | h_4 => exact Roots.fail _ _

theorem numberOperator?_below {operator : Token} {left right : Float} {value : Value}
    (found : numberOperator? operator left right = some value) (size : Nat) :
    ValueBelow size value := by
  unfold numberOperator? at found
  split at found <;> cases found <;> trivial

theorem applyBinary_roots (operator : Token) (left right : Value) :
    Roots least ValueBelow (applyBinary operator left right : Eval Value) := by
  unfold applyBinary
  split
  case h_1 =>
      split
      case h_1 | h_2 => exact Roots.pure fun _ _ => trivial
      case h_3 => exact Roots.fail _ _
  case h_2 | h_3 => exact Roots.pure fun _ _ => trivial
  case h_4 =>
      split
      case h_1 => exact Roots.require _ _ fun _ found size _ => numberOperator?_below found size
      case h_2 => exact Roots.fail _ _

theorem checkArity_roots (paren : Token) (expected found : Nat) :
    Roots least whatever (checkArity paren expected found : Eval Unit) :=
  Roots.ite (Roots.pure fun _ _ => trivial) (Roots.fail _ _)

theorem literal_below (literal : Literal) (size : Nat) : ValueBelow size literal.toValue := by
  cases literal <;> trivial

end Steps

/-! ### Expressions -/

/-- The frames that the functions in values close over are there. -/
abbrev ValuesBelow (size : Nat) (values : List Value) : Prop :=
  ∀ value ∈ values, ValueBelow size value

/-- The same of a value that is returned. -/
def CompletionBelow (size : Nat) : Completion → Prop
  | .normal => True
  | .returned value => ValueBelow size value

/-- Calls of functions that are there keep machines rooted. -/
def CallsRoot (invoke : Invoke) : Prop :=
  ∀ least function paren arguments, FunctionBelow least function → ValuesBelow least arguments →
    Roots least ValueBelow (invoke function paren arguments)

variable {invoke : Invoke} {least : Nat}

theorem callValue_roots (calls : CallsRoot invoke) {callee : Value} (paren : Token)
    {arguments : List Value} (below : ValueBelow least callee)
    (allBelow : ValuesBelow least arguments) :
    Roots least ValueBelow (callValue invoke callee paren arguments) := by
  unfold callValue
  split
  case h_1 =>
      exact (checkArity_roots _ _ _).bind fun _ _ _ _ => readClock_roots.bind fun _ _ _ _ =>
        Roots.pure fun _ _ => trivial
  case h_2 function =>
      exact (checkArity_roots _ _ _).bind fun _ _ more _ =>
        (calls _ function paren arguments below allBelow).mono more
  case h_3 owner =>
      refine (checkArity_roots _ _ _).bind fun _ size more _ => ?_
      have methods : MethodsBelow size owner.methods := MethodsBelow.mono below more
      refine (makeInstance_roots methods).bind fun id later still _ => ?_
      cases present : owner.initializer? with
      | none => exact Roots.pure fun _ _ => trivial
      | some initializer =>
          have inside := (methods.mono still) _ _ present
          refine (bindMethod_roots inside id).bind fun bound last evenMore isBelow => ?_
          have values : ValuesBelow last arguments := fun value member =>
            (allBelow value member).mono (Nat.le_trans more (Nat.le_trans still evenMore))
          exact (calls _ bound paren arguments isBelow values).bind fun _ _ _ _ =>
            Roots.pure fun _ _ => trivial
  case h_4 => exact Roots.fail _ _

mutual

/-- By induction on the expression. -/
theorem evaluate_roots (calls : CallsRoot invoke) {least : Nat} :
    (expression : Expression) → Roots least ValueBelow (evaluate invoke expression)
  | .literal _ value => Roots.pure fun size _ => literal_below value size
  | .grouping _ inner => evaluate_roots calls inner
  | .unary _ operator operand =>
      (evaluate_roots calls operand).bind fun value _ _ _ => applyUnary_roots operator value
  | .binary _ left operator right =>
      (evaluate_roots calls left).bind fun first _ _ _ =>
        (evaluate_roots calls right).bind fun second _ _ _ =>
          applyBinary_roots operator first second
  | .logical _ left _ right =>
      (evaluate_roots calls left).bind fun _ _ _ below =>
        Roots.ite (Roots.pure fun _ enough => below.mono enough) (evaluate_roots calls right)
  | .variable id name => lookUp_roots id name
  | .this id keyword => lookUp_roots id keyword
  | .assign id name value =>
      (evaluate_roots calls value).bind fun _ _ _ below =>
        (assign_roots id name below).bind fun _ _ more _ =>
          Roots.pure fun _ enough => below.mono (Nat.le_trans more enough)
  | .call _ callee paren arguments =>
      (evaluate_roots calls callee).bind fun _ _ _ below =>
        (evaluateAll_roots calls arguments).bind fun _ _ more allBelow =>
          callValue_roots calls paren (below.mono more) allBelow
  | .get _ object name => by
      refine (evaluate_roots calls object).bind fun target _ _ _ => ?_
      cases target with
      | «instance» id => exact property_roots id name
      | _ => exact Roots.fail _ _
  | .set _ object name value => by
      refine (evaluate_roots calls object).bind fun target _ _ _ => ?_
      cases target with
      | «instance» id =>
          exact (evaluate_roots calls value).bind fun _ _ _ below =>
            (setField_roots id name below).bind fun _ _ more _ =>
              Roots.pure fun _ enough => below.mono (Nat.le_trans more enough)
      | _ => exact Roots.fail _ _

theorem evaluateAll_roots (calls : CallsRoot invoke) {least : Nat} :
    (expressions : List Expression) → Roots least ValuesBelow (evaluateAll invoke expressions)
  | [] => Roots.pure fun _ _ _ member => by cases member
  | expression :: rest =>
      (evaluate_roots calls expression).bind fun value _ _ below =>
        (evaluateAll_roots calls rest).bind fun values _ more allBelow =>
          Roots.pure fun size enough other member => by
            rcases List.mem_cons.mp member with rfl | member
            · exact below.mono (Nat.le_trans more enough)
            · exact (allBelow other member).mono enough

end

theorem evaluateOptional_roots (calls : CallsRoot invoke) (expression : Option Expression) :
    Roots least ValueBelow (evaluateOptional invoke expression) := by
  cases expression with
  | none => exact Roots.pure fun _ _ => trivial
  | some expression => exact evaluate_roots calls expression

/-! ### Statements -/

/-- By induction on the rounds. -/
theorem repeatWhile_roots {condition : Eval Value} {body : Eval Completion}
    (tests : ∀ least, Roots least ValueBelow condition)
    (goes : ∀ least, Roots least CompletionBelow body) (rounds : Nat) :
    Roots least CompletionBelow (repeatWhile condition body rounds) := by
  induction rounds generalizing least with
  | zero => exact Roots.outOfFuel
  | succ rounds inductionHypothesis =>
      refine (tests least).bind fun value _ _ _ =>
        Roots.ite ((goes _).bind fun completion _ _ below => ?_) (Roots.pure fun _ _ => trivial)
      cases completion with
      | normal => exact inductionHypothesis
      | returned value => exact Roots.pure fun _ enough => ValueBelow.mono below enough

theorem defineClass_roots (name : Token) (methods : List FunctionDeclaration) :
    Roots least whatever (defineClass name methods) :=
  (define_roots _ .nil trivial).bind fun _ _ _ _ =>
    (makeMethods_roots methods).bind fun _ _ _ below =>
      freshIdentity_roots.bind fun _ _ more _ => assignNearest_roots _ (below.mono more)

mutual

/-- By induction on the statement, whatever fuel there is for loops. -/
theorem execute_roots (calls : CallsRoot invoke) (rounds : Nat) {least : Nat} :
    (statement : Statement) → Roots least CompletionBelow (execute invoke rounds statement)
  | .expression value =>
      (evaluate_roots calls value).bind fun _ _ _ _ => Roots.pure fun _ _ => trivial
  | .print value =>
      (evaluate_roots calls value).bind fun value _ _ _ =>
        (printValue_roots value).bind fun _ _ _ _ => Roots.pure fun _ _ => trivial
  | .var _ initializer =>
      (evaluateOptional_roots calls initializer).bind fun _ _ _ below =>
        (define_roots _ _ below).bind fun _ _ _ _ => Roots.pure fun _ _ => trivial
  | .block statements =>
      Roots.get.bind fun _ _ _ ⟨rooted, _, more⟩ =>
        (pushFrame_roots (Nat.lt_of_lt_of_le rooted.current more)).bind fun _ _ _ made =>
          (executeAll_roots calls rounds statements).within made
  | .conditional condition thenBranch none =>
      (evaluate_roots calls condition).bind fun _ _ _ _ =>
        Roots.ite (execute_roots calls rounds thenBranch) (Roots.pure fun _ _ => trivial)
  | .conditional condition thenBranch (some elseBranch) =>
      (evaluate_roots calls condition).bind fun _ _ _ _ =>
        Roots.ite (execute_roots calls rounds thenBranch)
          (execute_roots calls rounds elseBranch)
  | .loop condition body =>
      repeatWhile_roots (fun _ => evaluate_roots calls condition)
        (fun _ => execute_roots calls rounds body) rounds
  | .function declaration =>
      Roots.get.bind fun _ _ _ ⟨rooted, _, more⟩ =>
        (makeFunction_roots declaration (Nat.lt_of_lt_of_le rooted.current more) false).bind
          fun function _ _ made => (define_roots _ (.function function) made).bind fun _ _ _ _ =>
            Roots.pure fun _ _ => trivial
  | .return _ value =>
      (evaluateOptional_roots calls value).bind fun _ _ _ below =>
        Roots.pure fun _ enough => below.mono enough
  | .class name methods =>
      (defineClass_roots name methods).bind fun _ _ _ _ => Roots.pure fun _ _ => trivial

theorem executeAll_roots (calls : CallsRoot invoke) (rounds : Nat) {least : Nat} :
    (statements : List Statement) →
    Roots least CompletionBelow (executeAll invoke rounds statements)
  | [] => Roots.pure fun _ _ => trivial
  | statement :: rest => by
      refine (execute_roots calls rounds statement).bind fun completion _ _ below => ?_
      cases completion with
      | normal => exact executeAll_roots calls rounds rest
      | returned value => exact Roots.pure fun _ enough => ValueBelow.mono below enough

end

/-! ### Calls -/

theorem bindParameters_roots (frame : Nat) {pairs : List (Token × Value)}
    (below : ∀ pair ∈ pairs, ValueBelow least pair.2) :
    Roots least whatever (pairs.forM fun (parameter, argument) =>
      defineIn frame parameter.lexeme argument) := by
  induction pairs generalizing least with
  | nil => exact Roots.pure fun _ _ => trivial
  | cons pair pairs inductionHypothesis =>
      exact (defineIn_roots _ _ _ (below pair List.mem_cons_self)).bind fun _ _ more _ =>
        inductionHypothesis fun other member =>
          (below other (List.mem_cons_of_mem pair member)).mono more

/-- A call runs in a new frame, which is inside the closure of the function. -/
theorem callFunction_roots {run : List Statement → Eval Completion}
    (runs : ∀ least statements, Roots least CompletionBelow (run statements)) :
    CallsRoot (callFunction run) := by
  intro least function paren arguments inside below
  refine Roots.get.bind fun machine size enough _ => Roots.ite (Roots.fail _ _) ?_
  refine (pushFrame_roots (Nat.lt_of_lt_of_le inside enough)).bind fun frame _ more made => ?_
  have values : ∀ pair ∈ function.declaration.parameters.zip arguments,
      ValueBelow _ pair.2 := fun pair member =>
    (below pair.2 (List.of_mem_zip member).2).mono (Nat.le_trans enough more)
  refine (bindParameters_roots frame values).bind fun _ _ still _ => ?_
  have ran := ((runs _ function.declaration.body).within (Nat.lt_of_lt_of_le made still)).deeper
  refine ran.bind fun completion _ _ completed => Roots.ite ?_ ?_
  · refine Roots.get.bind fun machine size _ ⟨rooted, _, grown⟩ => Roots.pure fun later last => ?_
    cases bound : machine.frames.lookup? function.closure Keyword.this.spelling with
    | none => trivial
    | some value => exact (rooted.bound _ _ _ bound).mono (Nat.le_trans grown last)
  · cases completion with
    | normal => exact Roots.pure fun _ _ => trivial
    | returned value => exact Roots.pure fun _ last => ValueBelow.mono completed last

/-- By induction on the fuel for calls. -/
theorem invoke_roots (fuel : Nat) : CallsRoot (Evaluation.invoke fuel) := by
  induction fuel with
  | zero => exact fun _ _ _ _ _ _ => Roots.outOfFuel
  | succ fuel inductionHypothesis =>
      exact callFunction_roots fun _ statements =>
        executeAll_roots inductionHypothesis fuel statements

end Evaluation

end Lox
