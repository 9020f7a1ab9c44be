import Lox.Proofs.Grammar.Program
import Lox.Proofs.Scope.Rules

/-!
Contract: what the statements of parsed programs declare.

Owns:
- `Statement.name?`, the name that a statement declares itself, and that a tame statement declares
  no other one in the scope in which it stands;
- `Statement.Parsed`: a statement stands somewhere in a program that was parsed, and is tame.

Does not own: what it means to declare a name.
-/

namespace Lox

/-- The name that a statement declares itself. -/
def Statement.name? : Statement → Option String
  | .var name _ | .class name _ => some name.lexeme
  | .function declaration => some declaration.name.lexeme
  | .expression _ | .print _ | .block _ | .conditional _ _ _ | .loop _ _ | .return _ _ => none

/-- Branches and bodies that are no declarations declare nothing. -/
theorem Statement.declared_of_branch : (statement : Statement) →
    statement.isDeclaration = false → statement.Tame → statement.declared = []
  | .expression _, _, _ | .print _, _, _ | .block _, _, _ | .return _ _, _, _ => rfl
  | .conditional _ thenBranch none, _, ⟨noDeclaration, tame⟩ =>
      declared_of_branch thenBranch noDeclaration tame
  | .conditional _ thenBranch (some elseBranch), _, ⟨⟨noFirst, first⟩, ⟨noSecond, second⟩⟩ => by
      unfold declared
      rw [declared_of_branch thenBranch noFirst first,
        declared_of_branch elseBranch noSecond second]
      rfl
  | .loop _ body, _, ⟨noDeclaration, tame⟩ => declared_of_branch body noDeclaration tame

/-- A tame statement declares the name that it declares itself, if any. -/
theorem Statement.declared_of_tame {statement : Statement} (tame : statement.Tame) :
    statement.declared = statement.name?.toList := by
  cases declaration : statement.isDeclaration with
  | false =>
      rw [statement.declared_of_branch declaration tame]
      cases statement with
      | var | function | «class» => cases declaration
      | expression | print | block | conditional | loop | «return» => rfl
  | true =>
      cases statement with
      | var | function | «class» => rfl
      | expression | print | block | conditional | loop | «return» => cases declaration

namespace Scope

/-- The statements in a piece of code are tame. -/
def Code.Tame : Code → Prop
  | .program code => Statement.AllTame code
  | .statement code => code.Tame
  | .function code => Statement.FunctionTame code
  | .name _ | .expression _ => True

section Parts

variable {setting : Setting}

theorem sequence_tame {statements : List Statement} (tame : Statement.AllTame statements) :
    ∀ part ∈ setting.sequence statements, part.2.Tame := by
  induction statements generalizing setting with
  | nil => simp [Setting.sequence]
  | cons statement rest inductionHypothesis =>
      obtain ⟨first, others⟩ := tame
      intro part member
      rcases List.mem_cons.mp member with rfl | member
      · exact first
      · exact inductionHypothesis others part member

theorem parameters_tame (names : List Token) :
    ∀ part ∈ setting.parameters names, part.2.Tame := by
  induction names generalizing setting with
  | nil => simp [Setting.parameters]
  | cons name rest inductionHypothesis =>
      intro part member
      rcases List.mem_cons.mp member with rfl | member
      · trivial
      · exact inductionHypothesis part member

theorem functionTame_of_mem {methods : List FunctionDeclaration}
    (tame : Statement.FunctionsTame methods) :
    ∀ method ∈ methods, Statement.FunctionTame method := by
  induction methods with
  | nil => simp
  | cons first rest inductionHypothesis =>
      obtain ⟨here, others⟩ := tame
      intro method member
      rcases List.mem_cons.mp member with rfl | member
      · exact here
      · exact inductionHypothesis others method member

/-- Tame statements have tame parts. -/
theorem statement_parts_tame {statement : Statement} (tame : statement.Tame) :
    ∀ part ∈ setting.parts (.statement statement), part.2.Tame := by
  cases statement with
  | expression value | print value => exact List.forall_mem_singleton.mpr trivial
  | var name value =>
      cases value with
      | none => exact List.forall_mem_singleton.mpr trivial
      | some value =>
          exact List.forall_mem_cons.mpr ⟨trivial, List.forall_mem_singleton.mpr trivial⟩
  | «return» keyword value =>
      cases value with
      | none => exact List.forall_mem_nil _
      | some value => exact List.forall_mem_singleton.mpr trivial
  | block statements => exact sequence_tame tame
  | conditional condition thenBranch elseBranch =>
      cases elseBranch with
      | none =>
          exact List.forall_mem_cons.mpr ⟨trivial, List.forall_mem_singleton.mpr tame.2⟩
      | some elseBranch =>
          obtain ⟨⟨_, first⟩, ⟨_, second⟩⟩ := tame
          refine List.forall_mem_cons.mpr ⟨trivial, ?_⟩
          exact List.forall_mem_cons.mpr ⟨first, List.forall_mem_singleton.mpr second⟩
  | loop condition body =>
      exact List.forall_mem_cons.mpr ⟨trivial, List.forall_mem_singleton.mpr tame.2⟩
  | function declaration =>
      exact List.forall_mem_cons.mpr ⟨trivial, List.forall_mem_singleton.mpr tame⟩
  | «class» name methods =>
      exact List.forall_mem_cons.mpr ⟨trivial, List.forall_mem_map.mpr (functionTame_of_mem tame)⟩

/-- Tame code has tame parts. -/
theorem parts_tame {code : Code} (tame : code.Tame) :
    ∀ part ∈ setting.parts code, part.2.Tame := by
  cases code with
  | program statements => exact sequence_tame tame
  | statement statement => exact statement_parts_tame tame
  | name name => exact List.forall_mem_nil _
  | function declaration =>
      obtain ⟨name, parameters, body⟩ := declaration
      intro part member
      rcases List.mem_append.mp member with member | member
      · exact parameters_tame parameters part member
      · exact sequence_tame tame part member
  | expression expression =>
      cases expression <;> simp [Setting.parts, Code.Tame]

end Parts

/-- So are the parts of parts. By induction on the way to the part. -/
theorem At.tame {setting inner : Setting} {code part : Code} {position : Position}
    (place : At setting code position inner part) (tame : code.Tame) : part.Tame := by
  induction place with
  | here => exact tame
  | part found _ inductionHypothesis =>
      exact inductionHypothesis (parts_tame tame _ (List.mem_of_getElem? found))

end Scope

/-- A statement that stands somewhere in a program, as the parser has made it. -/
def Statement.Parsed (statement : Statement) : Prop :=
  ∃ tokens firstId program next position setting,
    Grammar.parseProgram tokens firstId = ⟨.ok program, next⟩ ∧
      Scope.At .outermost (.program program) position setting (.statement statement)

theorem Statement.Parsed.tame {statement : Statement} (parsed : statement.Parsed) :
    statement.Tame := by
  obtain ⟨tokens, firstId, program, next, position, setting, read, place⟩ := parsed
  have all : Statement.AllTame program :=
    ((Grammar.parseProgram_eq_ok_iff tokens firstId program next).mp read).tame
  exact place.tame all

end Lox
