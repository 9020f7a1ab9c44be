import Lox.Proofs.Relabel.Evaluation
import Lox.Proofs.Session.Requests
import Lox.Proofs.Session.Units
import Lox.Proofs.Source.Seam

/-!
Contract: code on other lines.

Owns:
- `Relabelling.moved`, which moves code some lines down and leaves the numbers as they are;
- `MachineAlike.widen`: machines stay alike when more is allowed, and when tables come in;
- `MachineAlike.eq_of_unmoved`: machines whose code has not been moved are the same up to the
  tables.
-/

namespace Lox

/-- Code is moved some lines down. -/
def Relabelling.moved (lines : Nat) (among : Token → Prop) (numbered : Nat → Prop) :
    Relabelling where
  token := Token.shift lines
  number := id
  among := among
  numbered := numbered
  kind _ := rfl
  lexeme _ := rfl

section Same

variable (among : Token → Prop) (numbered : Nat → Prop)

/-- Code that is moved by no line is the same. -/
@[simp] theorem Relabelling.moved_zero_token (token : Token) :
    (moved 0 among numbered).token token = token :=
  rfl

@[simp] theorem Relabelling.moved_number (lines id : Nat) :
    (moved lines among numbered).number id = id :=
  rfl

mutual

theorem Expression.relabel_moved_zero : (expression : Expression) →
    expression.relabel (.moved 0 among numbered) = expression
  | .literal _ _ | .variable _ _ | .this _ _ => by
      simp
  | .grouping _ inner | .unary _ _ inner | .assign _ _ inner | .get _ inner _ => by
      simp [Expression.relabel_moved_zero inner]
  | .binary _ left _ right | .logical _ left _ right | .set _ left _ right => by
      simp [Expression.relabel_moved_zero left, Expression.relabel_moved_zero right]
  | .call _ callee _ arguments => by
      simp [Expression.relabel_moved_zero callee, Expression.relabelAll_moved_zero arguments]

theorem Expression.relabelAll_moved_zero : (expressions : List Expression) →
    Expression.relabelAll (.moved 0 among numbered) expressions = expressions
  | [] => rfl
  | expression :: rest => by
      simp [Expression.relabel_moved_zero expression, Expression.relabelAll_moved_zero rest]

end

theorem Expression.optionRelabel_moved_zero (expression : Option Expression) :
    expression.map (Expression.relabel (.moved 0 among numbered)) = expression := by
  cases expression with
  | none => rfl
  | some expression => simp [Expression.relabel_moved_zero]

mutual

theorem Statement.relabel_moved_zero : (statement : Statement) →
    statement.relabel (.moved 0 among numbered) = statement
  | .expression _ | .print _ => by
      simp [Expression.relabel_moved_zero]
  | .var _ _ | .return _ _ => by
      simp [Expression.optionRelabel_moved_zero]
  | .block statements => by
      simp [Statement.relabelAll_moved_zero statements]
  | .conditional _ thenBranch none => by
      simp [Expression.relabel_moved_zero, Statement.relabel_moved_zero thenBranch]
  | .conditional _ thenBranch (some elseBranch) => by
      simp [Expression.relabel_moved_zero, Statement.relabel_moved_zero thenBranch,
        Statement.relabel_moved_zero elseBranch]
  | .loop _ body => by
      simp [Expression.relabel_moved_zero, Statement.relabel_moved_zero body]
  | .function declaration => by
      simp only [Statement.relabel, Statement.relabelFunction_moved_zero declaration]
  | .class _ methods => by
      simp [Statement.relabelFunctions_moved_zero methods]

theorem Statement.relabelAll_moved_zero : (statements : List Statement) →
    Statement.relabelAll (.moved 0 among numbered) statements = statements
  | [] => rfl
  | statement :: rest => by
      simp [Statement.relabel_moved_zero statement, Statement.relabelAll_moved_zero rest]

theorem Statement.relabelFunction_moved_zero : (declaration : FunctionOf Statement) →
    Statement.relabelFunction (.moved 0 among numbered) declaration = declaration
  | ⟨_, parameters, body⟩ => by
      have names : parameters.map (Relabelling.moved 0 among numbered).token = parameters :=
        List.map_id parameters
      simp [names, Statement.relabelAll_moved_zero body]

theorem Statement.relabelFunctions_moved_zero : (declarations : List (FunctionOf Statement)) →
    Statement.relabelFunctions (.moved 0 among numbered) declarations = declarations
  | [] => rfl
  | declaration :: rest => by
      simp only [Statement.relabelFunctions, Statement.relabelFunction_moved_zero declaration,
        Statement.relabelFunctions_moved_zero rest]

end

end Same

namespace Relabelled

variable {likeness more : Likeness}

/-! ### More may be unlike -/

section Widen

variable (wider : ∀ labels, likeness.origins labels → more.origins labels)

include wider

theorem FunctionAlike.widen {function other : FunctionValue}
    (alike : FunctionAlike likeness function other) : FunctionAlike more function other := by
  obtain ⟨labels, origin, code⟩ := alike.code
  exact { alike with code := ⟨labels, wider labels origin, code⟩ }

theorem ClassAlike.widen {owner other : ClassValue} (alike : ClassAlike likeness owner other) :
    ClassAlike more owner other :=
  { alike with
    methods := fun name => optionRel_mono (fun _ _ method => method.widen wider)
      (alike.methods name) }

theorem ValueAlike.widen {value other : Value} (alike : ValueAlike likeness value other) :
    ValueAlike more value other := by
  cases alike with
  | function function => exact .function (function.widen wider)
  | «class» owner => exact .class (owner.widen wider)
  | _ => constructor

theorem InstanceAlike.widen {target other : Instance}
    (alike : InstanceAlike likeness target other) : InstanceAlike more target other where
  owner := alike.owner.widen wider
  fields name := optionRel_mono (fun _ _ value => value.widen wider) (alike.fields name)

/-- Other tables may come in. -/
theorem MachineAlike.widen {machine other : Machine}
    (alike : MachineAlike likeness machine other)
    (outputs : ∀ left right, likeness.outputs left right → more.outputs left right) :
    MachineAlike more { machine with locals := more.table } { other with locals := more.other } :=
  { alike with
    names := fun frame name => optionRel_mono (fun _ _ value => value.widen wider)
      (alike.names frame name)
    target := fun id => optionRel_mono (fun _ _ target => target.widen wider) (alike.target id)
    locals := rfl
    others := rfl
    output := outputs _ _ alike.output }

end Widen

/-! ### Code that has not been moved -/

section Unmoved

variable (unmoved : ∀ labels, likeness.origins labels →
  ∃ among numbered, labels = .moved 0 among numbered)

include unmoved

theorem FunctionAlike.eq_of_unmoved {function other : FunctionValue}
    (alike : FunctionAlike likeness function other) : other = function := by
  obtain ⟨labels, origin, _, code⟩ := alike.code
  obtain ⟨among, numbered, rfl⟩ := unmoved labels origin
  rw [Statement.relabelFunction_moved_zero] at code
  obtain ⟨identity, closure, isInitializer, -⟩ := alike
  cases function
  cases other
  cases identity
  cases closure
  cases isInitializer
  cases code
  rfl

theorem ClassAlike.eq_of_unmoved {owner other : ClassValue}
    (alike : ClassAlike likeness owner other) : other = owner := by
  obtain ⟨identity, name, methods⟩ := alike
  have same : other.methods = owner.methods := Std.ExtTreeMap.ext_getElem? fun {name} =>
    eq_of_optionRel (fun _ _ method => method.eq_of_unmoved unmoved) (methods name)
  cases owner
  cases other
  cases identity
  cases name
  cases same
  rfl

theorem ValueAlike.eq_of_unmoved {value other : Value} (alike : ValueAlike likeness value other) :
    other = value := by
  cases alike with
  | function function => rw [function.eq_of_unmoved unmoved]
  | «class» owner => rw [owner.eq_of_unmoved unmoved]
  | _ => rfl

theorem InstanceAlike.eq_of_unmoved {target other : Instance}
    (alike : InstanceAlike likeness target other) : other = target := by
  have owner := alike.owner.eq_of_unmoved unmoved
  have fields : other.fields = target.fields := Std.ExtTreeMap.ext_getElem? fun {name} =>
    eq_of_optionRel (fun _ _ value => value.eq_of_unmoved unmoved) (alike.fields name)
  cases target
  cases other
  cases owner
  cases fields
  rfl

/-- Machines that are alike differ in their tables alone, if no code has been moved. -/
theorem MachineAlike.eq_of_unmoved (outputs : likeness.outputs = Eq) {machine other : Machine}
    (alike : MachineAlike likeness machine other) :
    other = { machine with locals := likeness.other } := by
  have frames : other.frames = machine.frames :=
    Frames.ext_of_lookup? alike.size alike.parent fun frame name =>
      eq_of_optionRel (fun _ _ value => value.eq_of_unmoved unmoved) (alike.names frame name)
  have instances : other.instances = machine.instances := Array.ext_getElem? fun id =>
    eq_of_optionRel (fun _ _ target => target.eq_of_unmoved unmoved) (alike.target id)
  have output : machine.output = other.output := outputs ▸ alike.output
  obtain ⟨-, -, -, -, -, nextIdentity, globals, environment, depth, -, others, -, clock⟩ := alike
  cases machine
  cases other
  simp_all

end Unmoved

end Relabelled

end Lox
