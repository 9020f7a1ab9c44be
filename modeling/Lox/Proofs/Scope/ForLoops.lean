import Lox.Proofs.Grammar.ForLoops
import Lox.Proofs.Scope.Declared
import Lox.Proofs.Scope.Walk

/-!
Contract: what the names in the clauses of a `for` loop refer to.

Owns:
- `Occurs`, the occurrences of names in an expression;
- `SeesOwnVariable`: the condition and the increment of a loop see the variable of the loop;
- that every loop in an accepted program does.

Does not own: what a loop does.
-/

namespace Lox.Scope

/-! ### Places -/

/-- A part of a part. By induction on the way to the first part. -/
theorem At.trans {setting inner last : Setting} {code part found : Code} {front back : Position}
    (outer : At setting code front inner part) (place : At inner part back last found) :
    At setting code (front ++ back) last found := by
  induction outer with
  | here => exact place
  | part here _ inductionHypothesis => exact .part here (inductionHypothesis place)

/-- The parts of an expression are expressions, and stand where it stands. -/
theorem parts_expression (expression : Expression) :
    ∃ values : List Expression, ∀ setting : Setting,
      setting.parts (.expression expression) =
        values.map fun value => (setting, .expression value) := by
  cases expression with
  | literal | «variable» | this => exact ⟨[], fun _ => rfl⟩
  | grouping _ inner | unary _ _ inner | assign _ _ inner | get _ inner _ =>
      exact ⟨[inner], fun _ => rfl⟩
  | binary _ left _ right | logical _ left _ right => exact ⟨[left, right], fun _ => rfl⟩
  | call _ callee _ arguments => exact ⟨callee :: arguments, fun _ => rfl⟩
  | set _ object _ value => exact ⟨[value, object], fun _ => rfl⟩

/-- What stands in an expression stands at the same position wherever the expression stands. By
induction on the way to it. -/
theorem At.move {setting inner : Setting} {code part : Code} {position : Position}
    (place : At setting code position inner part) :
    ∀ expression, code = .expression expression → ∀ other,
      At other (.expression expression) position other part := by
  induction place with
  | here =>
      intro expression same other
      subst same
      exact .here
  | part found _ inductionHypothesis =>
      intro expression same other
      subst same
      obtain ⟨values, parts⟩ := parts_expression expression
      rw [parts, List.getElem?_map] at found
      obtain ⟨value, member, same⟩ := Option.map_eq_some_iff.mp found
      cases same
      apply At.part _ (inductionHypothesis value rfl other)
      simp [parts, member]

/-! ### Loops -/

/-- A node in an expression is an occurrence of a name. -/
def Occurs (expression : Expression) (id : Nat) (name : Token) : Prop :=
  ∃ position setting part,
    At .outermost (.expression expression) position setting part ∧ Names part id name

/-- The condition of a loop sees the variable of the loop in the innermost scope, and the
increment, which is in the scope of a round, one scope further out. -/
structure SeesOwnVariable (table : Locals) (loop : ForLoop) (name : Token) : Prop where
  condition : ∀ condition ∈ loop.condition, ∀ id word, Occurs condition id word →
    word.lexeme = name.lexeme → table[id]? = some 0
  increment : ∀ increment ∈ loop.increment, ∀ id word, Occurs increment id word →
    word.lexeme = name.lexeme → table[id]? = some 1

section Accepted

variable {program : List Statement} {table : Locals} {setting : Setting} {position : Position}
  {expression : Expression} {id distance : Nat} {name : Token}

/-- An occurrence in an expression of a program is recorded where its name is declared. -/
theorem Occurs.recorded (distinct : (Statement.numbersOfAll program).Nodup)
    (accepted : resolve program = .ok table)
    (place : At .outermost (.program program) position setting (.expression expression))
    (occurs : Occurs expression id name) (declared : setting.DeclaredOut name.lexeme distance) :
    table[id]? = some distance := by
  obtain ⟨further, _, part, inside, names⟩ := occurs
  refine (getElem?_resolve_iff distinct accepted id distance).mpr ?_
  exact ⟨_, setting, part, name, place.trans (inside.move expression rfl setting), names, declared⟩

/-- Every loop in an accepted program sees its own variable. -/
theorem seesOwnVariable (distinct : (Statement.numbersOfAll program).Nodup)
    (accepted : resolve program = .ok table) {loop : ForLoop}
    (place : At .outermost (.program program) position setting (.statement (loop.statement id)))
    {value : Option Expression} (opening : loop.opening = .variable name value) :
    SeesOwnVariable table loop name := by
  rw [loop.statement_of_some id (by rw [opening]; rfl)] at place
  -- The rounds stand behind the variable, in the scope of the loop.
  have rounds : At .outermost (.program program) (position ++ [1])
      (setting.opened.declaring [name.lexeme])
      (.statement (.loop (Grammar.forCondition loop.condition id).1 loop.round)) :=
    place.trans (.part rfl .here)
  constructor
  · intro condition present node word occurs same
    have tested : At .outermost (.program program) (position ++ [1] ++ [0])
        (setting.opened.declaring [name.lexeme]) (.expression condition) := by
      apply rounds.trans
      apply At.part _ At.here
      rw [present]
      rfl
    apply occurs.recorded distinct accepted tested
    exact ⟨⟨[name.lexeme], rfl, by simp [same]⟩, by simp⟩
  · intro increment present node word occurs same
    have round : loop.round = .block [loop.body, .expression increment] := by
      unfold ForLoop.round Grammar.forRound
      rw [present]
    have quiet : loop.body.declared = [] :=
      loop.body.declared_of_branch loop.branch.1 loop.branch.2
    rw [round] at rounds
    have stepped : At .outermost (.program program) (position ++ [1] ++ [1, 1, 0])
        ((setting.opened.declaring [name.lexeme]).opened.declaring loop.body.declared)
        (.expression increment) :=
      rounds.trans (.part rfl (.part rfl (.part rfl .here)))
    rw [quiet] at stepped
    apply occurs.recorded distinct accepted stepped
    constructor
    · exact ⟨[name.lexeme], rfl, by simp [same]⟩
    · intro nearer inside scope found
      obtain rfl : nearer = 0 := by omega
      cases found
      simp

end Accepted

end Lox.Scope
