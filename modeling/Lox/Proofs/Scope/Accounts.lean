import Lox.Proofs.Scope.Settings
import Lox.Proofs.Scope.Table

/-!
Contract: findings that account for a piece of code in its setting.

Owns:
- what is wrong and what is located in a piece of code, at the piece itself or in its parts;
- the numbers of the nodes in the parts of a piece of code;
- `Accounts`: some findings are those of a piece of code, the violations in the order of their
  positions;
- that findings account for a piece of code if they come from findings for its parts.

Does not own: the findings of the walk over a program.
-/

namespace Lox.Scope

/-! ### Positions -/

section Positions

variable {setting : Setting} {code : Code}

/-- What is wrong in a piece of code is wrong with the piece itself or in one of its parts. -/
theorem wrongAt_iff {position : Position} {error : ScopeError} :
    WrongAt setting code position error ↔
      (position = [] ∧ Wrong setting code error) ∨
        ∃ index rest part, position = index :: rest ∧ (setting.parts code)[index]? = some part ∧
          WrongAt part.1 part.2 rest error := by
  constructor
  · rintro ⟨inner, part, leads, wrong⟩
    cases leads with
    | here => exact Or.inl ⟨rfl, wrong⟩
    | part found further => exact Or.inr ⟨_, _, _, rfl, found, _, _, further, wrong⟩
  · rintro (⟨rfl, wrong⟩ | ⟨index, rest, part, rfl, found, _, _, further, wrong⟩)
    · exact ⟨_, _, .here, wrong⟩
    · exact ⟨_, _, .part found further, wrong⟩

theorem locatedIn_iff {id distance : Nat} :
    LocatedIn setting code id distance ↔
      (∃ name, Names code id name ∧ setting.DeclaredOut name.lexeme distance) ∨
        ∃ part ∈ setting.parts code, LocatedIn part.1 part.2 id distance := by
  constructor
  · rintro ⟨_, _, _, name, leads, names, declared⟩
    cases leads with
    | here => exact Or.inl ⟨name, names, declared⟩
    | part found further =>
        exact Or.inr ⟨_, List.mem_of_getElem? found, _, _, _, name, further, names, declared⟩
  · rintro (⟨name, names, declared⟩ | ⟨part, member, _, _, _, name, further, names, declared⟩)
    · exact ⟨_, _, _, name, .here, names, declared⟩
    · obtain ⟨index, found⟩ := List.mem_iff_getElem?.mp member
      exact ⟨_, _, _, name, .part found further, names, declared⟩

end Positions

/-! ### The numbers of parts -/

/-- The number of the node that a piece of code is itself. -/
def Code.ownNumbers : Code → List Nat
  | .expression code => [code.id]
  | .program _ | .statement _ | .function _ | .name _ => []

namespace Setting

variable (setting : Setting)

theorem sequence_numbers (statements : List Statement) :
    ((setting.sequence statements).flatMap fun part => part.2.numbers) =
      Statement.numbersOfAll statements := by
  induction statements generalizing setting with
  | nil => rfl
  | cons statement rest inductionHypothesis =>
      rw [sequence, List.flatMap_cons, inductionHypothesis]
      rfl

theorem parameters_numbers (names : List Token) :
    ((setting.parameters names).flatMap fun part => part.2.numbers) = [] := by
  induction names generalizing setting with
  | nil => rfl
  | cons name rest inductionHypothesis =>
      rw [parameters, List.flatMap_cons, inductionHypothesis]
      rfl

theorem arguments_numbers (arguments : List Expression) :
    ((arguments.map fun argument => (setting, Code.expression argument)).flatMap
      fun part => part.2.numbers) = Expression.numbersOfAll arguments := by
  induction arguments with
  | nil => rfl
  | cons argument rest inductionHypothesis =>
      rw [List.map_cons, List.flatMap_cons, inductionHypothesis]
      rfl

theorem methods_numbers (methods : List FunctionDeclaration) :
    ((methods.map fun method =>
      (setting.entered (.method method.name), Code.function method)).flatMap
        fun part => part.2.numbers) = Statement.numbersOfFunctions methods := by
  induction methods with
  | nil => rfl
  | cons method rest inductionHypothesis =>
      rw [List.map_cons, List.flatMap_cons, inductionHypothesis]
      rfl

/-- The nodes of a piece of code are those of its parts, and itself if it is an expression. -/
theorem parts_numbers (code : Code) :
    code.numbers.Perm
      (code.ownNumbers ++ (setting.parts code).flatMap fun part => part.2.numbers) := by
  cases code with
  | program statements => exact .of_eq (setting.sequence_numbers statements).symm
  | name name => exact .nil
  | function declaration =>
      obtain ⟨_, parameters, body⟩ := declaration
      refine .of_eq ?_
      rw [parts, List.flatMap_append, parameters_numbers, sequence_numbers]
      rfl
  | statement statement =>
      refine .of_eq ?_
      cases statement with
      | expression value => exact (List.append_nil _).symm
      | print value => exact (List.append_nil _).symm
      | var name initializer =>
          cases initializer with
          | none => rfl
          | some value => exact (List.append_nil _).symm
      | block statements => exact (setting.opened.sequence_numbers statements).symm
      | conditional condition thenBranch elseBranch =>
          cases elseBranch <;> simp [parts, Code.numbers, Code.ownNumbers, Statement.numbers]
      | loop condition body =>
          simp [parts, Code.numbers, Code.ownNumbers, Statement.numbers]
      | function declaration => exact (List.append_nil _).symm
      | «return» keyword value =>
          cases value with
          | none => rfl
          | some value => exact (List.append_nil _).symm
      | «class» name methods =>
          exact ((setting.declaring [name.lexeme]).classBody.methods_numbers methods).symm
  | expression expression =>
      -- A node has its number behind those of its parts.
      refine .trans ?_ List.perm_append_comm
      cases expression with
      | literal | «variable» | this => exact .refl _
      | grouping | unary | assign | get | binary | logical =>
          refine .of_eq ?_
          simp [parts, Code.numbers, Code.ownNumbers, Expression.numbers, Expression.id]
      | call id callee parenthesis arguments =>
          refine .of_eq (congrArg (callee.numbers ++ · ++ [id]) ?_)
          exact (setting.arguments_numbers arguments).symm
      | set id object name value =>
          refine List.Perm.append_right [id] (List.perm_append_comm.trans (.of_eq ?_))
          simp [parts, Code.numbers]

end Setting

/-! ### Code with which nothing is wrong -/

/-- Nothing can be wrong with a piece of code itself, and it is no occurrence of a name. -/
def Code.Plain : Code → Prop
  | .program _ | .function _ => True
  | .name _ => False
  | .statement (.return _ _) => False
  | .statement _ => True
  | .expression (.variable _ _) | .expression (.this _ _) | .expression (.assign _ _ _) => False
  | .expression _ => True

theorem Wrong.not_plain {setting : Setting} {code : Code} {error : ScopeError}
    (wrong : Wrong setting code error) : ¬code.Plain := by
  cases wrong <;> exact not_false

theorem Names.not_plain {code : Code} {id : Nat} {name : Token} (names : Names code id name) :
    ¬code.Plain := by
  cases names <;> exact not_false

/-! ### Findings that account for code -/

/-- The numbers of the nodes that are located by findings. -/
def locatedIds (found : List Finding) : List Nat :=
  (located found).map Prod.fst

theorem locatedIds_append (first second : List Finding) :
    locatedIds (first ++ second) = locatedIds first ++ locatedIds second := by
  simp [locatedIds, located]

/-- Findings account for a piece of code in its setting. -/
structure Accounts (setting : Setting) (code : Code) (found : List Finding) : Prop where
  /-- The violations are those at all positions, each once and in the order of positions. -/
  errors : ∃ errors : List (Position × ScopeError), errors.map Prod.snd = violations found ∧
    errors.Pairwise (fun first second => first.1 < second.1) ∧
    ∀ position error, (position, error) ∈ errors ↔ WrongAt setting code position error
  /-- If nothing is wrong, all local names are located. -/
  locates : violations found = [] → ∀ id distance,
    .located id distance ∈ found ↔ LocatedIn setting code id distance
  /-- No node is located more often than its number occurs. -/
  once : ∀ id, (locatedIds found).count id ≤ code.numbers.count id

/-- Findings account for parts that follow one another. -/
inductive AccountsAll : List (Setting × Code) → List Finding → Prop where
  | nil : AccountsAll [] []
  | cons {setting : Setting} {code : Code} {parts : List (Setting × Code)}
      {here later : List Finding} :
      Accounts setting code here → AccountsAll parts later →
      AccountsAll ((setting, code) :: parts) (here ++ later)

namespace AccountsAll

variable {setting : Setting} {code : Code} {parts others : List (Setting × Code)}
  {found following : List Finding}

theorem single (account : Accounts setting code found) : AccountsAll [(setting, code)] found := by
  have accounts := AccountsAll.cons account .nil
  rwa [List.append_nil] at accounts

theorem append (first : AccountsAll parts found) (second : AccountsAll others following) :
    AccountsAll (parts ++ others) (found ++ following) := by
  induction first with
  | nil => exact second
  | cons account _ inductionHypothesis =>
      rw [List.append_assoc]
      exact .cons account inductionHypothesis

/-- The violations in parts that follow one another, with the index of the part in front of each
position. By induction on the parts. -/
theorem errors (accounts : AccountsAll parts found) (start : Nat) :
    ∃ errors : List (Position × ScopeError), errors.map Prod.snd = violations found ∧
      errors.Pairwise (fun first second => first.1 < second.1) ∧
      ∀ position error, (position, error) ∈ errors ↔
        ∃ index rest part, position = (start + index) :: rest ∧ parts[index]? = some part ∧
          WrongAt part.1 part.2 rest error := by
  induction accounts generalizing start with
  | nil => exact ⟨[], rfl, .nil, by simp⟩
  | @cons setting code parts _ _ account _ inductionHypothesis =>
      obtain ⟨here, hereSame, hereSorted, hereAll⟩ := account.errors
      obtain ⟨later, laterSame, laterSorted, laterAll⟩ := inductionHypothesis (start + 1)
      refine ⟨here.map (fun entry => (start :: entry.1, entry.2)) ++ later, ?_, ?_, ?_⟩
      · rw [violations_append, List.map_append, List.map_map, laterSame, ← hereSame]
        rfl
      · refine List.pairwise_append.mpr ⟨?_, laterSorted, ?_⟩
        · refine List.pairwise_map.mpr (hereSorted.imp fun earlier => ?_)
          exact List.cons_lt_cons_self.mpr earlier
        · rintro _ member ⟨position, error⟩ behind
          obtain ⟨entry, _, rfl⟩ := List.mem_map.mp member
          obtain ⟨index, rest, _, rfl, _⟩ := (laterAll position error).mp behind
          exact List.cons_lt_cons_iff.mpr (Or.inl (by omega))
      · intro position error
        rw [List.mem_append, laterAll, List.mem_map]
        constructor
        · rintro (⟨⟨rest, _⟩, member, same⟩ | ⟨index, rest, inner, rfl, present, wrong⟩)
          · cases same
            exact ⟨0, rest, (setting, code), rfl, rfl, (hereAll _ _).mp member⟩
          · refine ⟨index + 1, rest, inner, ?_, present, wrong⟩
            rw [Nat.add_assoc, Nat.add_comm 1 index]
        · rintro ⟨index, rest, inner, rfl, present, wrong⟩
          cases index with
          | zero =>
              cases present
              exact Or.inl ⟨(rest, error), (hereAll _ _).mpr wrong, rfl⟩
          | succ index =>
              refine Or.inr ⟨index, rest, inner, ?_, present, wrong⟩
              rw [Nat.add_assoc, Nat.add_comm 1 index]

theorem locates (accounts : AccountsAll parts found) (quiet : violations found = [])
    (id distance : Nat) :
    .located id distance ∈ found ↔ ∃ part ∈ parts, LocatedIn part.1 part.2 id distance := by
  induction accounts with
  | nil => simp
  | cons account _ inductionHypothesis =>
      obtain ⟨hereQuiet, laterQuiet⟩ := violations_append_eq_nil.mp quiet
      rw [List.mem_append, account.locates hereQuiet, inductionHypothesis laterQuiet,
        List.exists_mem_cons_iff]

theorem once (accounts : AccountsAll parts found) (id : Nat) :
    (locatedIds found).count id ≤ (parts.flatMap fun part => part.2.numbers).count id := by
  induction accounts with
  | nil => exact Nat.le_refl _
  | cons account _ inductionHypothesis =>
      rw [locatedIds_append, List.flatMap_cons, List.count_append, List.count_append]
      exact Nat.add_le_add (account.once id) inductionHypothesis

end AccountsAll

namespace Accounts

variable {setting : Setting} {code : Code} {rest found : List Finding}

/-- Findings account for a piece of code if they come from findings for its parts, but for at
most one violation and what is located at the piece itself. -/
theorem ofParts (own : List Finding) (accounts : AccountsAll (setting.parts code) rest)
    (same : found.Perm (own ++ rest)) (order : violations found = violations own ++ violations rest)
    (single : (violations own).length ≤ 1)
    (wrong : ∀ error, error ∈ violations own ↔ Wrong setting code error)
    (names : violations own = [] → ∀ id distance, .located id distance ∈ own ↔
      ∃ name, Names code id name ∧ setting.DeclaredOut name.lexeme distance)
    (once : ∀ id, (locatedIds own).count id ≤ code.ownNumbers.count id) :
    Accounts setting code found where
  errors := by
    obtain ⟨errors, errorsSame, sorted, all⟩ := accounts.errors 0
    refine ⟨(violations own).map (fun error => ([], error)) ++ errors, ?_, ?_, ?_⟩
    · rw [order, ← errorsSame, List.map_append, List.map_map]
      exact congrArg (· ++ _) (List.map_id _)
    · refine List.pairwise_append.mpr ⟨?_, sorted, ?_⟩
      · refine List.pairwise_map.mpr ?_
        generalize violations own = few at single
        match few, single with
        | [], _ => exact .nil
        | [_], _ => exact List.pairwise_singleton _ _
      · rintro _ member ⟨position, error⟩ behind
        obtain ⟨_, _, rfl⟩ := List.mem_map.mp member
        obtain ⟨index, rest, _, rfl, _⟩ := (all position error).mp behind
        exact List.nil_lt_cons _ _
    · intro position error
      rw [wrongAt_iff, List.mem_append, all, List.mem_map, ← wrong]
      simp only [Nat.zero_add]
      refine or_congr_left ⟨?_, ?_⟩
      · rintro ⟨_, member, same⟩
        cases same
        exact ⟨rfl, member⟩
      · rintro ⟨rfl, member⟩
        exact ⟨error, member, rfl⟩
  locates quiet id distance := by
    rw [order] at quiet
    obtain ⟨ownQuiet, partsQuiet⟩ := List.append_eq_nil_iff.mp quiet
    rw [same.mem_iff, List.mem_append, names ownQuiet, accounts.locates partsQuiet, locatedIn_iff]
  once id := by
    have together : (locatedIds found).Perm (locatedIds own ++ locatedIds rest) := by
      rw [← locatedIds_append]
      exact (same.filterMap _).map _
    rw [together.count_eq, (setting.parts_numbers code).count_eq, List.count_append,
      List.count_append]
    exact Nat.add_le_add (once id) (accounts.once id)

/-- The same if nothing is found but in the parts. -/
theorem ofRight (accounts : AccountsAll (setting.parts code) found)
    (right : ∀ error, ¬Wrong setting code error) (nameless : ∀ id name, ¬Names code id name) :
    Accounts setting code found := by
  refine ofParts [] accounts (List.Perm.refl _) rfl (Nat.zero_le _) ?_ ?_ ?_
  · exact fun error => ⟨nofun, fun wrong => absurd wrong (right error)⟩
  · exact fun _ id _ => ⟨nofun, fun ⟨name, names, _⟩ => absurd names (nameless id name)⟩
  · exact fun _ => Nat.zero_le _

theorem ofPlain (plain : code.Plain) (accounts : AccountsAll (setting.parts code) found) :
    Accounts setting code found :=
  ofRight accounts (fun _ wrong => wrong.not_plain plain) fun _ _ names => names.not_plain plain

end Accounts

/-! ### What is found at a place itself -/

theorem violations_locate (scopes : Scopes) (id : Nat) (name : Token) :
    violations (scopes.locate id name) = [] := by
  unfold Scopes.locate
  split <;> rfl

section Occurrence

variable {setting : Setting} {scopes : Scopes} {code : Code} {id : Nat} {name : Token}

/-- An occurrence of a name is located as far out as the name is declared. -/
theorem mem_locate (corresponds : Corresponds setting scopes) (names : Names code id name)
    (other distance : Nat) :
    .located other distance ∈ scopes.locate id name ↔
      ∃ name, Names code other name ∧ setting.DeclaredOut name.lexeme distance := by
  have only : (∃ name, Names code other name ∧ setting.DeclaredOut name.lexeme distance) ↔
      other = id ∧ setting.DeclaredOut name.lexeme distance := by
    constructor
    · rintro ⟨_, also, declared⟩
      cases names <;> cases also <;> exact ⟨rfl, declared⟩
    · rintro ⟨rfl, declared⟩
      exact ⟨name, names, declared⟩
  rw [only, ← corresponds.distance_iff]
  unfold Scopes.locate
  split
  case h_1 found here => simp [here, eq_comm]
  case h_2 absent => simp [absent]

theorem locate_once (names : Names code id name) (other : Nat) :
    (locatedIds (scopes.locate id name)).count other ≤ code.ownNumbers.count other := by
  have own : code.ownNumbers = [id] := by cases names <;> rfl
  rw [own]
  unfold Scopes.locate
  split
  · exact Nat.le_refl _
  · exact Nat.zero_le _

end Occurrence

/-- If something is wrong with a piece of code itself it is one thing, and then nothing need be
located. -/
theorem Accounts.ofWrong {setting : Setting} {code : Code} {rest : List Finding}
    {error : ScopeError} (accounts : AccountsAll (setting.parts code) rest)
    (wrong : ∀ other, Wrong setting code other ↔ other = error) :
    Accounts setting code (.violation error :: rest) :=
  .ofParts [.violation error] accounts (.refl _) rfl (Nat.le_refl _)
    (fun other => List.mem_singleton.trans (wrong other).symm) nofun (fun _ => Nat.zero_le _)

/-- If nothing is wrong with an occurrence of a name itself it is located. -/
theorem Accounts.ofOccurrence {setting : Setting} {scopes : Scopes} {code : Code} {id : Nat}
    {name : Token} {found : List Finding} (corresponds : Corresponds setting scopes)
    (names : Names code id name) (accounts : AccountsAll (setting.parts code) found)
    (right : ∀ error, ¬Wrong setting code error) :
    Accounts setting code (found ++ scopes.locate id name) := by
  have quiet := violations_locate scopes id name
  refine .ofParts (scopes.locate id name) accounts List.perm_append_comm ?_ ?_ ?_
    (fun _ => mem_locate corresponds names) (locate_once names)
  · rw [violations_append, quiet, List.append_nil, List.nil_append]
  · rw [quiet]
    exact Nat.zero_le _
  · intro error
    rw [quiet]
    exact ⟨nofun, fun wrong => absurd wrong (right error)⟩

end Lox.Scope
