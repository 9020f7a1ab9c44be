import Lox.Proofs.Grammar.Genuine

/-!
Contract: the functions that a program declares.

Owns:
- `Statement.outermost`: the functions and methods declared in a statement that are not part of
  another one;
- `DeclaredIn`: the functions declared in a program, at any depth;
- that the tokens in outermost functions are in their places if those in the program are.
-/

namespace Lox

mutual

/-- The functions and methods declared in a statement that are not part of another one. -/
def Statement.outermost : Statement → List FunctionDeclaration
  | .expression _ | .print _ | .var _ _ | .return _ _ => []
  | .block statements => Statement.outermostOfAll statements
  | .conditional _ thenBranch none => thenBranch.outermost
  | .conditional _ thenBranch (some elseBranch) => thenBranch.outermost ++ elseBranch.outermost
  | .loop _ body => body.outermost
  | .function declaration => [declaration]
  | .class _ methods => methods

/-- The same for several statements. -/
def Statement.outermostOfAll : List Statement → List FunctionDeclaration
  | [] => []
  | statement :: rest => statement.outermost ++ Statement.outermostOfAll rest

end

/-- A function is declared in a program, at any depth. -/
inductive DeclaredIn (program : List Statement) : FunctionDeclaration → Prop where
  | outermost {declaration : FunctionDeclaration} :
      declaration ∈ Statement.outermostOfAll program → DeclaredIn program declaration
  | inside {outer declaration : FunctionDeclaration} :
      DeclaredIn program outer → declaration ∈ Statement.outermostOfAll outer.body →
      DeclaredIn program declaration

section Tokens

variable {among : Token → Prop}

theorem Statement.functionsGenuine_iff (declarations : List FunctionDeclaration) :
    Statement.FunctionsGenuine among declarations ↔
      ∀ declaration ∈ declarations, Statement.FunctionGenuine among declaration := by
  induction declarations with
  | nil => simp [Statement.FunctionsGenuine]
  | cons declaration rest inductionHypothesis =>
      rw [Statement.FunctionsGenuine, inductionHypothesis, List.forall_mem_cons]

mutual

/-- By induction on the statement. -/
theorem Statement.outermost_genuine : (statement : Statement) → statement.Genuine among →
    ∀ declaration ∈ statement.outermost, Statement.FunctionGenuine among declaration
  | .expression _, _ | .print _, _ | .var _ _, _ | .return _ _, _ => fun _ member => by
      cases member
  | .block statements, genuine => Statement.outermostOfAll_genuine statements genuine
  | .conditional _ thenBranch none, genuine => thenBranch.outermost_genuine genuine.2
  | .conditional _ thenBranch (some elseBranch), genuine =>
      List.forall_mem_append.mpr ⟨thenBranch.outermost_genuine genuine.2.1,
        elseBranch.outermost_genuine genuine.2.2⟩
  | .loop _ body, genuine => body.outermost_genuine genuine.2
  | .function _, genuine => List.forall_mem_singleton.mpr genuine
  | .class _ methods, genuine => (Statement.functionsGenuine_iff methods).mp genuine.2

theorem Statement.outermostOfAll_genuine : (statements : List Statement) →
    Statement.AllGenuine among statements →
    ∀ declaration ∈ Statement.outermostOfAll statements,
      Statement.FunctionGenuine among declaration
  | [], _ => fun _ member => by cases member
  | statement :: rest, genuine =>
      List.forall_mem_append.mpr ⟨statement.outermost_genuine genuine.1,
        Statement.outermostOfAll_genuine rest genuine.2⟩

end

theorem Statement.FunctionGenuine.body {declaration : FunctionDeclaration}
    (genuine : Statement.FunctionGenuine among declaration) :
    Statement.AllGenuine among declaration.body := by
  obtain ⟨_, _, _⟩ := declaration
  exact genuine.2.2

end Tokens

end Lox
