import Lox.Proofs.Grammar.Lookahead
import Lox.Proofs.Grammar.Numbering

/-!
Contract: `for` statements, clause by clause.

Owns:
- `ForLoop`: what a `for` statement starts with, its condition, its increment and its body,
  with the tree that stands for it;
- `ReadsFor`, with `reads_for_iff`: the statements that start with the keyword are those that
  read clause by clause as a loop, and the tree of each is the one that stands for the loop.

Does not own: what a loop does.
-/

namespace Lox

/-- What a `for` loop starts with. -/
inductive Opening where
  | nothing
  | variable (name : Token) (value : Option Expression)
  | expression (value : Expression)

/-- The statement in front of a loop. -/
def Opening.statement? : Opening → Option Statement
  | nothing => none
  | .variable name value => some (.var name value)
  | .expression value => some (.expression value)

/-- A `for` loop. Its body is a statement, and no declaration. -/
structure ForLoop where
  opening : Opening
  condition : Option Expression
  increment : Option Expression
  body : Statement
  branch : Grammar.Branch body

/-- The tree that stands for the body and the increment behind it. -/
def ForLoop.round (loop : ForLoop) : Statement :=
  Grammar.forRound loop.increment loop.body

/-- The tree that stands for a loop. An absent condition is a node of its own, with the given
number. -/
def ForLoop.statement (loop : ForLoop) (id : Nat) : Statement :=
  Grammar.forScope loop.opening.statement?
    (.loop (Grammar.forCondition loop.condition id).1 loop.round)

theorem ForLoop.statement_of_nothing {loop : ForLoop} (id : Nat)
    (absent : loop.opening.statement? = none) :
    loop.statement id = .loop (Grammar.forCondition loop.condition id).1 loop.round := by
  unfold ForLoop.statement
  rw [absent]
  rfl

theorem ForLoop.statement_of_some {loop : ForLoop} (id : Nat) {opening : Statement}
    (present : loop.opening.statement? = some opening) :
    loop.statement id =
      .block [opening, .loop (Grammar.forCondition loop.condition id).1 loop.round] := by
  unfold ForLoop.statement
  rw [present]
  rfl

/-- The tree of a loop declares nothing where it stands. -/
theorem ForLoop.noDeclaration (loop : ForLoop) {id : Nat} :
    (loop.statement id).isDeclaration = false := by
  cases opening : loop.opening.statement? with
  | none => rw [loop.statement_of_nothing id opening]; rfl
  | some => rw [loop.statement_of_some id opening]; rfl

namespace Grammar

/-- A word reads clause by clause as a loop. The clauses and the body take numbers from
`first` up to `last`. -/
inductive ReadsFor (first : Nat) (dangling : Bool) (loop : ForLoop) (last : Nat) :
    List Token → Prop where
  | clauses {keyword left semicolon right : Token} {word₁ word₂ word₃ word₄ : List Token}
      {second third fourth : Nat} :
      keyword.isKeyword .for → left.isSymbol .leftParen →
      Reads word₁ first (.initializer loop.opening.statement?) second →
      Reads word₂ second (.optional loop.condition) third → semicolon.isSymbol .semicolon →
      Reads word₃ third (.optional loop.increment) fourth → right.isSymbol .rightParen →
      Reads word₄ fourth (.statement dangling loop.body) last →
      ReadsFor first dangling loop last
        (keyword :: left :: word₁ ++ word₂ ++ semicolon :: word₃ ++ right :: word₄)

/-- A loop starts with a variable, an expression or nothing. -/
theorem opening_of_reads {word : List Token} {first next : Nat} {initializer : Option Statement}
    (read : Reads word first (.initializer initializer) next) :
    ∃ opening : Opening, initializer = opening.statement? := by
  cases read with
  | noInitializer => exact ⟨.nothing, rfl⟩
  | variableInitializer _ declared =>
      cases declared with
      | uninitialized => exact ⟨.variable _ none, rfl⟩
      | initialized => exact ⟨.variable _ (some _), rfl⟩
  | expressionInitializer => exact ⟨.expression _, rfl⟩

/-- The keyword tells a `for` from all other statements. -/
theorem reads_for_iff {keyword : Token} {rest : List Token} {first next : Nat} {dangling : Bool}
    {statement : Statement} (isFor : keyword.isKeyword .for) :
    Reads (keyword :: rest) first (.statement dangling statement) next ↔
      ∃ loop last, ReadsFor first dangling loop last (keyword :: rest) ∧
        statement = loop.statement last ∧ next = (forCondition loop.condition last).2 := by
  constructor
  · intro read
    generalize same : keyword :: rest = word at read ⊢
    cases read with
    | «for» isFor isLeft initializer condition isEnd increment isRight body =>
        obtain ⟨opening, rfl⟩ := opening_of_reads initializer
        exact ⟨⟨opening, _, _, _, body.tame⟩, _,
          .clauses isFor isLeft initializer condition isEnd increment isRight body, rfl, rfl⟩
    | expression value =>
        obtain ⟨token, others, rfl, starts⟩ := startsExpression_of_assignment value
        obtain ⟨rfl, -⟩ := List.cons.inj same
        rw [isKeyword_of_startsExpression starts (by decide)] at isFor
        cases isFor
    | «if» is | ifElse is | print is | «return» is | «while» is =>
        obtain ⟨rfl, -⟩ := List.cons.inj same
        rw [isKeyword_of_isKeyword isFor] at is
        cases is
    | block is =>
        obtain ⟨rfl, -⟩ := List.cons.inj same
        rw [isSymbol_of_isKeyword isFor] at is
        cases is
  · rintro ⟨loop, last, read, rfl, rfl⟩
    generalize keyword :: rest = word at read
    cases read with
    | clauses isFor isLeft initializer condition isEnd increment isRight body =>
        exact .for isFor isLeft initializer condition isEnd increment isRight body

end Grammar

end Lox
