import Lox.Proofs.Evaluation.Restoration
import Lox.Proofs.Evaluation.Runs
import Lox.Proofs.Frames

/-!
Contract: the functions of a running program are those that its code declares.

Owns:
- `Requirement`, which functions may be required to meet, and `Statement.Meets`: the functions
  that a statement declares do;
- `MachineMeets`: all functions on a machine do, wherever they are kept;
- `Maintains`: a computation keeps it so, and the functions in its value meet the requirement;
- how it composes, and that each step and each construct of the language satisfies it, if the
  functions in the bodies of functions meet the requirement as well.

Does not own: any particular requirement.
-/

namespace Lox

/-- What is required of a declared function, given whether it is an initializer. -/
abbrev Requirement := FunctionDeclaration → Bool → Prop

section Code

variable (required : Requirement)

mutual

/-- The functions that a statement declares meet a requirement. Those in the bodies of these
functions are not looked at. -/
def Statement.Meets : Statement → Prop
  | .function declaration => required declaration false
  | .class _ methods =>
      ∀ method ∈ methods, required method (method.name.lexeme == initializerName)
  | .block statements => Statement.AllMeet statements
  | .conditional _ thenBranch none => thenBranch.Meets
  | .conditional _ thenBranch (some elseBranch) => thenBranch.Meets ∧ elseBranch.Meets
  | .loop _ body => body.Meets
  | .expression _ | .print _ | .var _ _ | .return _ _ => True

/-- The same for several statements. -/
def Statement.AllMeet : List Statement → Prop
  | [] => True
  | statement :: rest => statement.Meets ∧ Statement.AllMeet rest

end

/-- The functions in the body of a function meet the requirement if the function does. -/
def Requirement.PassesOn : Prop :=
  ∀ declaration isInitializer, required declaration isInitializer →
    Statement.AllMeet required declaration.body

end Code

namespace Evaluation

section Machines

variable (required : Requirement)

/-- A function meets a requirement. -/
abbrev FunctionMeets (function : FunctionValue) : Prop :=
  required function.declaration function.isInitializer

/-- All methods meet a requirement. -/
def MethodsMeet (methods : Bindings FunctionValue) : Prop :=
  ∀ (name : String) method, methods[name]? = some method → FunctionMeets required method

/-- The functions in a value meet a requirement. -/
def ValueMeets : Value → Prop
  | .function function => FunctionMeets required function
  | .class owner => MethodsMeet required owner.methods
  | .nil | .boolean _ | .number _ | .string _ | .native _ | .instance _ => True

/-- All functions on a machine meet a requirement. -/
structure MachineMeets (machine : Machine) : Prop where
  bound : ∀ frame name value, machine.frames.lookup? frame name = some value →
    ValueMeets required value
  target : ∀ (id : Nat) target, machine.instances[id]? = some target →
    MethodsMeet required target.owner.methods ∧
      ∀ (name : String) value, target.fields[name]? = some value → ValueMeets required value

/-- From a machine on which all functions meet a requirement a computation leads to such a
machine, however it ends, and something is known of its value. -/
def Maintains {α : Type} (known : α → Prop) (computation : Eval α) : Prop :=
  ∀ machine, MachineMeets required machine →
    MachineMeets required (final (computation machine)) ∧
      ∀ value later, computation machine = .ok value later → known value

/-- The values of a list meet a requirement. -/
abbrev ValuesMeet (values : List Value) : Prop :=
  ∀ value ∈ values, ValueMeets required value

/-- The functions in a value that is returned meet a requirement. -/
def CompletionMeets : Completion → Prop
  | .normal => True
  | .returned value => ValueMeets required value

/-- Nothing needs to be known of the value. -/
abbrev anyResult {α : Type} : α → Prop := fun _ => True

/-- Calls of functions that meet a requirement maintain it. -/
def CallsMaintain (invoke : Invoke) : Prop :=
  ∀ function paren arguments, FunctionMeets required function → ValuesMeet required arguments →
    Maintains required (ValueMeets required) (invoke function paren arguments)

end Machines

variable {required : Requirement}

theorem MethodsMeet.empty : MethodsMeet required ∅ := by
  intro name method present
  rw [Std.ExtTreeMap.getElem?_empty] at present
  cases present

theorem MethodsMeet.insert {methods : Bindings FunctionValue}
    (meet : MethodsMeet required methods) (name : String) {method : FunctionValue}
    (meets : FunctionMeets required method) :
    MethodsMeet required (methods.insert name method) := by
  intro other found present
  rw [Std.ExtTreeMap.getElem?_insert] at present
  split at present
  case isTrue =>
      cases present
      exact meets
  case isFalse => exact meet other found present

theorem literal_meets (literal : Literal) : ValueMeets required literal.toValue := by
  cases literal <;> trivial

/-! ### Changes of a machine -/

namespace MachineMeets

variable {machine : Machine}

/-- Frames and instances are all that matters. -/
theorem congr {other : Machine} (meets : MachineMeets required machine)
    (frames : other.frames = machine.frames) (instances : other.instances = machine.instances) :
    MachineMeets required other where
  bound := by
    rw [frames]
    exact meets.bound
  target := by
    rw [instances]
    exact meets.target

theorem push (meets : MachineMeets required machine) (parent : Option Nat) :
    MachineMeets required { machine with frames := machine.frames.push parent } :=
  { meets with
    bound := fun frame name value found =>
      meets.bound frame name value ((machine.frames.lookup?_push _ _ _).symm.trans found) }

theorem define (meets : MachineMeets required machine) (frame : Nat) (name : String)
    (value : Value) (new : ValueMeets required value) :
    MachineMeets required
      { machine with frames := machine.frames.define frame name value } := by
  refine { meets with bound := fun id different found bound => ?_ }
  by_cases same : id = frame ∧ different = name
  · obtain ⟨rfl, rfl⟩ := same
    by_cases inside : id < machine.frames.size
    · cases (machine.frames.lookup?_define_self inside different value).symm.trans bound
      exact new
    · have size := machine.frames.size_define id different value
      have none := (machine.frames.define id different value).lookup?_of_size_le
        (Nat.le_of_not_lt (size ▸ inside)) different
      cases none.symm.trans bound
  · exact meets.bound id different found
      ((machine.frames.lookup?_define_of_ne value same).symm.trans bound)

theorem newInstance (meets : MachineMeets required machine) {owner : ClassValue}
    (methods : MethodsMeet required owner.methods) :
    MachineMeets required
      { machine with instances := machine.instances.push ⟨owner, ∅⟩ } := by
  refine { meets with target := fun id target found => ?_ }
  change (machine.instances.push ⟨owner, ∅⟩)[id]? = some target at found
  rw [Array.getElem?_push] at found
  split at found
  case isTrue =>
      cases found
      refine ⟨methods, fun name value has => ?_⟩
      rw [Std.ExtTreeMap.getElem?_empty] at has
      cases has
  case isFalse => exact meets.target id target found

theorem setField (meets : MachineMeets required machine) (changed : Nat) (name : String)
    {value : Value} (new : ValueMeets required value) :
    MachineMeets required { machine with
      instances := machine.instances.modify changed fun target =>
        { target with fields := target.fields.insert name value } } := by
  refine { meets with target := fun id target found => ?_ }
  change (machine.instances.modify changed _)[id]? = some target at found
  rw [Array.getElem?_modify] at found
  split at found
  case isTrue =>
      obtain ⟨old, isOld, rfl⟩ := Option.map_eq_some_iff.mp found
      obtain ⟨owner, fields⟩ := meets.target id old isOld
      refine ⟨owner, fun different bound has => ?_⟩
      rw [Std.ExtTreeMap.getElem?_insert] at has
      split at has
      case isTrue =>
          cases has
          exact new
      case isFalse => exact fields different bound has
  case isFalse => exact meets.target id target found

end MachineMeets

/-! ### Composition -/

namespace Maintains

variable {α β : Type} {known : α → Prop} {better : β → Prop}

/-- A computation that gives a value on every machine. -/
theorem ofStep {computation : Eval α} (step : ∀ machine, MachineMeets required machine →
    ∃ value later, computation machine = .ok value later ∧ MachineMeets required later ∧
      known value) : Maintains required known computation := by
  intro machine meets
  obtain ⟨value, later, done, last, holds⟩ := step machine meets
  rw [done]
  refine ⟨last, ?_⟩
  rintro _ _ ⟨⟩
  exact holds

/-- A computation that gives none and leaves the machine as it is. -/
theorem ofHalt {computation : Eval α}
    (halts : ∀ machine, ∃ halt, computation machine = .error halt machine) :
    Maintains required known computation := by
  intro machine meets
  obtain ⟨halt, halted⟩ := halts machine
  rw [halted]
  refine ⟨meets, ?_⟩
  rintro _ _ ⟨⟩

theorem pure {value : α} (holds : known value) :
    Maintains required known (Pure.pure value : Eval α) :=
  ofStep fun _ meets => ⟨_, _, rfl, meets, holds⟩

theorem outOfFuel : Maintains required known (throw .outOfFuel : Eval α) :=
  ofHalt fun _ => ⟨_, rfl⟩

theorem fail (token : Token) (fault : RuntimeFault) :
    Maintains required known (Evaluation.fail token fault : Eval α) :=
  ofHalt fun _ => ⟨_, rfl⟩

theorem require (token : Token) (fault : RuntimeFault) {value : Option α}
    (holds : ∀ found, value = some found → known found) :
    Maintains required known (Evaluation.require token fault value) := by
  cases value with
  | none => exact fail token fault
  | some value => exact pure (holds value rfl)

theorem get : Maintains required (MachineMeets required) (MonadState.get : Eval Machine) :=
  ofStep fun machine meets => ⟨machine, machine, rfl, meets, meets⟩

theorem bind {first : Eval α} {next : α → Eval β} (maintains : Maintains required known first)
    (further : ∀ value, known value → Maintains required better (next value)) :
    Maintains required better (first >>= next) := by
  intro machine meets
  obtain ⟨behind, gives⟩ := maintains machine meets
  cases result : first machine with
  | ok value middle =>
      rw [result] at behind
      rw [bind_of_ok next result]
      exact further value (gives value middle result) middle behind
  | error halt middle =>
      rw [result] at behind
      rw [bind_of_error next result]
      refine ⟨behind, ?_⟩
      rintro _ _ ⟨⟩

theorem ite {condition : Prop} [Decidable condition] {first second : Eval α}
    (whenTrue : Maintains required known first) (whenFalse : Maintains required known second) :
    Maintains required known (if condition then first else second) := by
  split
  · exact whenTrue
  · exact whenFalse

theorem within (frame : Nat) {computation : Eval α}
    (maintains : Maintains required known computation) :
    Maintains required known (Evaluation.within frame computation) := by
  intro machine meets
  obtain ⟨last, gives⟩ := maintains { machine with environment := frame } (meets.congr rfl rfl)
  unfold Evaluation.within
  generalize computation { machine with environment := frame } = result at last gives ⊢
  cases result with
  | ok value after =>
      refine ⟨last.congr rfl rfl, ?_⟩
      rintro _ _ ⟨⟩
      exact gives value after rfl
  | error halt after =>
      refine ⟨last.congr rfl rfl, ?_⟩
      rintro _ _ ⟨⟩

theorem deeper {computation : Eval α} (maintains : Maintains required known computation) :
    Maintains required known (Evaluation.deeper computation) := by
  intro machine meets
  obtain ⟨last, gives⟩ := maintains { machine with depth := machine.depth + 1 }
    (meets.congr rfl rfl)
  unfold Evaluation.deeper
  generalize computation { machine with depth := machine.depth + 1 } = result at last gives ⊢
  cases result with
  | ok value after =>
      refine ⟨last.congr rfl rfl, ?_⟩
      rintro _ _ ⟨⟩
      exact gives value after rfl
  | error halt after =>
      refine ⟨last.congr rfl rfl, ?_⟩
      rintro _ _ ⟨⟩

/-- What is known of a value that has been given, and the machine behind it. -/
theorem of_ok {computation : Eval α} (maintains : Maintains required known computation)
    {machine later : Machine} {value : α} (meets : MachineMeets required machine)
    (done : computation machine = .ok value later) :
    MachineMeets required later ∧ known value := by
  obtain ⟨last, gives⟩ := maintains machine meets
  rw [done] at last
  exact ⟨last, gives value later done⟩

end Maintains

/-! ### Steps -/

theorem freshIdentity_maintains : Maintains required anyResult freshIdentity :=
  .ofStep fun _ meets => ⟨_, _, rfl, meets.congr rfl rfl, trivial⟩

theorem readClock_maintains : Maintains required anyResult readClock :=
  .ofStep fun _ meets => ⟨_, _, rfl, meets.congr rfl rfl, trivial⟩

theorem printValue_maintains (value : Value) :
    Maintains required anyResult (printValue value) :=
  .ofStep fun _ meets => ⟨_, _, rfl, meets.congr rfl rfl, trivial⟩

theorem pushFrame_maintains (parent : Nat) : Maintains required anyResult (pushFrame parent) :=
  .ofStep fun _ meets => ⟨_, _, rfl, meets.push _, trivial⟩

theorem defineIn_maintains (frame : Nat) (name : String) (value : Value)
    (new : ValueMeets required value) : Maintains required anyResult (defineIn frame name value) :=
  .ofStep fun _ meets => ⟨_, _, rfl, meets.define frame name value new, trivial⟩

theorem define_maintains (name : String) (value : Value) (new : ValueMeets required value) :
    Maintains required anyResult (define name value) :=
  Maintains.get.bind fun _ _ => defineIn_maintains _ _ _ new

theorem lookUp_maintains (id : Nat) (name : Token) :
    Maintains required (ValueMeets required) (lookUp id name) := by
  refine Maintains.get.bind fun machine meets => ?_
  split
  · refine .require _ _ fun value found => ?_
    obtain ⟨_, _, bound⟩ := Option.bind_eq_some_iff.mp found
    exact meets.bound _ _ _ bound
  · refine .require _ _ fun value found => ?_
    obtain ⟨_, _, bound⟩ := Option.bind_eq_some_iff.mp found
    exact meets.bound _ _ _ bound

theorem ownerOf_maintains (id : Nat) (name : Token) :
    Maintains required anyResult (ownerOf id name) := by
  refine Maintains.get.bind fun machine _ => ?_
  split
  · exact .require _ _ fun _ _ => trivial
  · exact .require _ _ fun _ _ => trivial

theorem assign_maintains (id : Nat) (name : Token) {value : Value}
    (new : ValueMeets required value) : Maintains required anyResult (assign id name value) :=
  (ownerOf_maintains id name).bind fun _ _ => defineIn_maintains _ _ _ new

theorem assignNearest_maintains (name : Token) {value : Value}
    (new : ValueMeets required value) : Maintains required anyResult (assignNearest name value) :=
  Maintains.get.bind fun _ _ => (Maintains.require _ _ fun _ _ => trivial).bind fun _ _ =>
    defineIn_maintains _ _ _ new

theorem makeFunction_maintains {declaration : FunctionDeclaration} {isInitializer : Bool}
    (meets : required declaration isInitializer) (closure : Nat) :
    Maintains required (FunctionMeets required)
      (makeFunction declaration closure isInitializer) :=
  freshIdentity_maintains.bind fun _ _ => .pure meets

/-- By induction on the declarations that are left. -/
theorem addMethods_maintains (closure : Nat) (declarations : List FunctionDeclaration)
    (meet : ∀ declaration ∈ declarations,
      required declaration (declaration.name.lexeme == initializerName))
    {methods : Bindings FunctionValue} (made : MethodsMeet required methods) :
    Maintains required (MethodsMeet required)
      (declarations.foldlM (fun methods declaration => do
        let method ← makeFunction declaration closure (declaration.name.lexeme == initializerName)
        return methods.insert declaration.name.lexeme method) methods) := by
  induction declarations generalizing methods with
  | nil => exact .pure made
  | cons declaration declarations inductionHypothesis =>
      rw [List.foldlM_cons]
      have first : Maintains required (MethodsMeet required) (do
          let method ← makeFunction declaration closure
            (declaration.name.lexeme == initializerName)
          return methods.insert declaration.name.lexeme method) :=
        (makeFunction_maintains (meet declaration List.mem_cons_self) closure).bind
          fun method new => .pure (made.insert _ new)
      exact first.bind fun _ still => inductionHypothesis
        (fun other member => meet other (List.mem_cons_of_mem declaration member)) still

theorem makeMethods_maintains {declarations : List FunctionDeclaration}
    (meet : ∀ declaration ∈ declarations,
      required declaration (declaration.name.lexeme == initializerName)) :
    Maintains required (MethodsMeet required) (makeMethods declarations) :=
  Maintains.get.bind fun machine _ =>
    addMethods_maintains machine.environment declarations meet .empty

theorem makeInstance_maintains {owner : ClassValue}
    (methods : MethodsMeet required owner.methods) :
    Maintains required anyResult (makeInstance owner) :=
  .ofStep fun _ meets => ⟨_, _, rfl, meets.newInstance methods, trivial⟩

theorem setField_maintains (id : Nat) (name : Token) {value : Value}
    (new : ValueMeets required value) : Maintains required anyResult (setField id name value) :=
  .ofStep fun _ meets => ⟨_, _, rfl, meets.setField id name.lexeme new, trivial⟩

/-- A bound method has the code of the method. -/
theorem bindMethod_maintains {method : FunctionValue} (meets : FunctionMeets required method)
    (id : Nat) : Maintains required (FunctionMeets required) (bindMethod method id) :=
  (pushFrame_maintains _).bind fun frame _ =>
    (defineIn_maintains frame _ (.instance id) trivial).bind fun _ _ =>
      makeFunction_maintains meets frame

theorem property_maintains (id : Nat) (name : Token) :
    Maintains required (ValueMeets required) (property id name) := by
  refine Maintains.get.bind fun machine meets => ?_
  dsimp only
  split
  case h_1 value found =>
      obtain ⟨target, present, has⟩ := Option.bind_eq_some_iff.mp found
      exact .pure ((meets.target id target present).2 _ _ has)
  case h_2 =>
      have asked : Maintains required (FunctionMeets required)
          (Evaluation.require name (.undefinedProperty name.lexeme)
            (machine.instances[id]?.bind (·.owner.methods[name.lexeme]?))) := by
        refine .require _ _ fun method found => ?_
        obtain ⟨target, present, has⟩ := Option.bind_eq_some_iff.mp found
        exact (meets.target id target present).1 _ _ has
      exact asked.bind fun method holds => (bindMethod_maintains holds id).bind fun _ bound =>
        .pure bound

theorem applyUnary_maintains (operator : Token) (operand : Value) :
    Maintains required (ValueMeets required) (applyUnary operator operand : Eval Value) := by
  unfold applyUnary
  split
  case h_1 | h_3 => exact .pure trivial
  case h_2 | h_4 => exact .fail _ _

theorem numberOperator?_meets {operator : Token} {left right : Float} {value : Value}
    (found : numberOperator? operator left right = some value) : ValueMeets required value := by
  unfold numberOperator? at found
  split at found <;> cases found <;> trivial

theorem applyBinary_maintains (operator : Token) (left right : Value) :
    Maintains required (ValueMeets required) (applyBinary operator left right : Eval Value) := by
  unfold applyBinary
  split
  case h_1 =>
      split
      case h_1 | h_2 => exact .pure trivial
      case h_3 => exact .fail _ _
  case h_2 | h_3 => exact .pure trivial
  case h_4 =>
      split
      case h_1 => exact .require _ _ fun _ found => numberOperator?_meets found
      case h_2 => exact .fail _ _

theorem checkArity_maintains (paren : Token) (expected found : Nat) :
    Maintains required anyResult (checkArity paren expected found : Eval Unit) :=
  .ite (.pure trivial) (.fail _ _)

/-! ### Expressions -/

section Constructs

variable {invoke : Invoke}

theorem callValue_maintains (calls : CallsMaintain required invoke) {callee : Value}
    (paren : Token) {arguments : List Value} (meets : ValueMeets required callee)
    (meet : ValuesMeet required arguments) :
    Maintains required (ValueMeets required) (callValue invoke callee paren arguments) := by
  unfold callValue
  split
  case h_1 =>
      exact (checkArity_maintains _ _ _).bind fun _ _ => readClock_maintains.bind fun _ _ =>
        .pure trivial
  case h_2 function =>
      exact (checkArity_maintains _ _ _).bind fun _ _ =>
        calls function paren arguments meets meet
  case h_3 owner =>
      refine (checkArity_maintains _ _ _).bind fun _ _ => ?_
      have methods : MethodsMeet required owner.methods := meets
      refine (makeInstance_maintains methods).bind fun id _ => ?_
      cases present : owner.initializer? with
      | none => exact .pure trivial
      | some initializer =>
          exact (bindMethod_maintains (methods _ _ present) id).bind fun bound holds =>
            (calls bound paren arguments holds meet).bind fun _ _ => .pure trivial
  case h_4 => exact .fail _ _

mutual

/-- By induction on the expression. -/
theorem evaluate_maintains (calls : CallsMaintain required invoke) :
    (expression : Expression) →
      Maintains required (ValueMeets required) (evaluate invoke expression)
  | .literal _ value => .pure (literal_meets value)
  | .grouping _ inner => evaluate_maintains calls inner
  | .unary _ operator operand =>
      (evaluate_maintains calls operand).bind fun value _ => applyUnary_maintains operator value
  | .binary _ left operator right =>
      (evaluate_maintains calls left).bind fun first _ =>
        (evaluate_maintains calls right).bind fun second _ =>
          applyBinary_maintains operator first second
  | .logical _ left _ right =>
      (evaluate_maintains calls left).bind fun _ meets =>
        .ite (.pure meets) (evaluate_maintains calls right)
  | .variable id name => lookUp_maintains id name
  | .this id keyword => lookUp_maintains id keyword
  | .assign id name value =>
      (evaluate_maintains calls value).bind fun _ meets =>
        (assign_maintains id name meets).bind fun _ _ => .pure meets
  | .call _ callee paren arguments =>
      (evaluate_maintains calls callee).bind fun _ meets =>
        (evaluateAll_maintains calls arguments).bind fun _ meet =>
          callValue_maintains calls paren meets meet
  | .get _ object name => by
      refine (evaluate_maintains calls object).bind fun target _ => ?_
      cases target with
      | «instance» id => exact property_maintains id name
      | _ => exact .fail _ _
  | .set _ object name value => by
      refine (evaluate_maintains calls object).bind fun target _ => ?_
      cases target with
      | «instance» id =>
          exact (evaluate_maintains calls value).bind fun _ meets =>
            (setField_maintains id name meets).bind fun _ _ => .pure meets
      | _ => exact .fail _ _

theorem evaluateAll_maintains (calls : CallsMaintain required invoke) :
    (expressions : List Expression) →
      Maintains required (ValuesMeet required) (evaluateAll invoke expressions)
  | [] => .pure fun _ member => by cases member
  | expression :: rest =>
      (evaluate_maintains calls expression).bind fun _ meets =>
        (evaluateAll_maintains calls rest).bind fun _ meet =>
          .pure (List.forall_mem_cons.mpr ⟨meets, meet⟩)

end

theorem evaluateOptional_maintains (calls : CallsMaintain required invoke)
    (expression : Option Expression) :
    Maintains required (ValueMeets required) (evaluateOptional invoke expression) := by
  cases expression with
  | none => exact .pure trivial
  | some expression => exact evaluate_maintains calls expression

/-! ### Statements -/

/-- By induction on the rounds. -/
theorem repeatWhile_maintains {condition : Eval Value} {body : Eval Completion}
    (tests : Maintains required (ValueMeets required) condition)
    (goes : Maintains required (CompletionMeets required) body) (rounds : Nat) :
    Maintains required (CompletionMeets required) (repeatWhile condition body rounds) := by
  induction rounds with
  | zero => exact .outOfFuel
  | succ rounds inductionHypothesis =>
      refine tests.bind fun _ _ => .ite (goes.bind fun completion meets => ?_) (.pure trivial)
      cases completion with
      | normal => exact inductionHypothesis
      | returned value => exact .pure meets

theorem defineClass_maintains (name : Token) {methods : List FunctionDeclaration}
    (meet : ∀ method ∈ methods, required method (method.name.lexeme == initializerName)) :
    Maintains required anyResult (defineClass name methods) :=
  (define_maintains _ .nil trivial).bind fun _ _ =>
    (makeMethods_maintains meet).bind fun _ made =>
      freshIdentity_maintains.bind fun _ _ => assignNearest_maintains _ made

mutual

/-- By induction on the statement, whatever fuel there is for loops. -/
theorem execute_maintains (calls : CallsMaintain required invoke) (rounds : Nat) :
    (statement : Statement) → statement.Meets required →
      Maintains required (CompletionMeets required) (execute invoke rounds statement)
  | .expression value, _ =>
      (evaluate_maintains calls value).bind fun _ _ => .pure trivial
  | .print value, _ =>
      (evaluate_maintains calls value).bind fun value _ =>
        (printValue_maintains value).bind fun _ _ => .pure trivial
  | .var _ initializer, _ =>
      (evaluateOptional_maintains calls initializer).bind fun _ meets =>
        (define_maintains _ _ meets).bind fun _ _ => .pure trivial
  | .block statements, meet =>
      Maintains.get.bind fun _ _ => (pushFrame_maintains _).bind fun frame _ =>
        (executeAll_maintains calls rounds statements meet).within frame
  | .conditional condition thenBranch none, meets =>
      (evaluate_maintains calls condition).bind fun _ _ =>
        .ite (execute_maintains calls rounds thenBranch meets) (.pure trivial)
  | .conditional condition thenBranch (some elseBranch), meet =>
      (evaluate_maintains calls condition).bind fun _ _ =>
        .ite (execute_maintains calls rounds thenBranch meet.1)
          (execute_maintains calls rounds elseBranch meet.2)
  | .loop condition body, meets =>
      repeatWhile_maintains (evaluate_maintains calls condition)
        (execute_maintains calls rounds body meets) rounds
  | .function _, meets =>
      Maintains.get.bind fun _ _ => (makeFunction_maintains meets _).bind fun function made =>
        (define_maintains _ (.function function) made).bind fun _ _ => .pure trivial
  | .return _ value, _ =>
      (evaluateOptional_maintains calls value).bind fun _ meets => .pure meets
  | .class name _, meet => (defineClass_maintains name meet).bind fun _ _ => .pure trivial

theorem executeAll_maintains (calls : CallsMaintain required invoke) (rounds : Nat) :
    (statements : List Statement) → Statement.AllMeet required statements →
      Maintains required (CompletionMeets required) (executeAll invoke rounds statements)
  | [], _ => .pure trivial
  | statement :: rest, meet => by
      refine (execute_maintains calls rounds statement meet.1).bind fun completion meets => ?_
      cases completion with
      | normal => exact executeAll_maintains calls rounds rest meet.2
      | returned value => exact .pure meets

end

end Constructs

/-! ### Calls -/

theorem bindParameters_maintains (frame : Nat) {pairs : List (Token × Value)}
    (meet : ∀ pair ∈ pairs, ValueMeets required pair.2) :
    Maintains required anyResult (pairs.forM fun (parameter, argument) =>
      defineIn frame parameter.lexeme argument) := by
  induction pairs with
  | nil => exact .pure trivial
  | cons pair pairs inductionHypothesis =>
      exact (defineIn_maintains _ _ _ (meet pair List.mem_cons_self)).bind fun _ _ =>
        inductionHypothesis fun other member => meet other (List.mem_cons_of_mem pair member)

/-- A call runs the body of its function, whose functions meet the requirement. -/
theorem callFunction_maintains (passesOn : required.PassesOn)
    {run : List Statement → Eval Completion}
    (runs : ∀ statements, Statement.AllMeet required statements →
      Maintains required (CompletionMeets required) (run statements)) :
    CallsMaintain required (callFunction run) := by
  intro function paren arguments meets meet
  refine Maintains.get.bind fun _ _ => .ite (.fail _ _) ?_
  refine (pushFrame_maintains _).bind fun frame _ => ?_
  refine (bindParameters_maintains frame fun pair member =>
    meet pair.2 (List.of_mem_zip member).2).bind fun _ _ => ?_
  refine ((runs _ (passesOn _ _ meets)).within frame).deeper.bind fun completion completed =>
    .ite (Maintains.get.bind fun machine known => .pure ?_) ?_
  · cases bound : machine.frames.lookup? function.closure Keyword.this.spelling with
    | none => trivial
    | some value => exact known.bound _ _ _ bound
  · cases completion with
    | normal => exact .pure trivial
    | returned value => exact .pure completed

/-- By induction on the fuel for calls. -/
theorem invoke_maintains (passesOn : required.PassesOn) (fuel : Nat) :
    CallsMaintain required (invoke fuel) := by
  induction fuel with
  | zero => exact fun _ _ _ _ _ => .outOfFuel
  | succ fuel inductionHypothesis =>
      exact callFunction_maintains passesOn fun statements meet =>
        executeAll_maintains inductionHypothesis fuel statements meet

end Evaluation

end Lox
