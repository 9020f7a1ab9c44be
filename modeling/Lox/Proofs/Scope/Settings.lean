import Mathlib.Data.List.Forall2
import Lox.Proofs.Scope.Lookup
import Lox.Proofs.Scope.Rules

/-!
Contract: the open scopes of the walk and the setting of a place.

Owns:
- `Setting.context`, the context of the walk in a setting;
- `Corresponds`: the open scopes declare the names of a setting, all completely but for that of
  the variable in whose initializer the place stands;
- how both go on together: into a scope, a class or a function, into the initializer of a
  variable, and behind declarations;
- that the walk finds a name as far out as the setting says.
-/

namespace Lox.Scope

/-- What kind of code stands in a function. -/
def Enclosing.surrounding : Enclosing → Surrounding
  | .function => .function
  | .method name => methodSurrounding name

namespace Setting

/-- The context of the walk in a setting. -/
def context (setting : Setting) : Context where
  surrounding := setting.enclosing.elim .topLevel Enclosing.surrounding
  inClass := setting.inClass

variable (setting : Setting)

@[simp] theorem declaring_nil : setting.declaring [] = setting := by
  cases setting with
  | mk scopes => cases scopes <;> simp [declaring]

theorem declaring_declaring (names others : List String) :
    (setting.declaring names).declaring others = setting.declaring (names ++ others) := by
  cases setting with
  | mk scopes => cases scopes <;> simp [declaring]

end Setting

/-- A scope of the walk declares the names of a list. -/
def Declares (names : List String) (declarations : Declarations) : Prop :=
  ∀ name, (declarations.lookup name).isSome ↔ name ∈ names

/-- The open scopes of the walk are those of a setting. -/
structure Corresponds (setting : Setting) (scopes : Scopes) : Prop where
  declared : List.Forall₂ Declares setting.scopes scopes
  pending : ∀ name, scopes.innermost? name = some false ↔ setting.Initializes name

/-- The open scopes of the walk are those of a setting outside of all initializers. -/
structure Standing (setting : Setting) (scopes : Scopes) : Prop
    extends Corresponds setting scopes where
  settled : setting.initializing = none

theorem Declares.nil : Declares [] [] := by
  intro name
  simp

theorem Declares.record {names : List String} {declarations : Declarations}
    (declares : Declares names declarations) (name : String) (complete : Bool) :
    Declares (names ++ [name]) ((name, complete) :: declarations) := by
  intro other
  rw [List.lookup_cons, List.mem_append, List.mem_singleton]
  by_cases same : other = name
  · simp [same]
  · have differ : (other == name) = false := by simpa using same
    simp [differ, same, declares other]

/-- A name that is declared already may be declared again. -/
theorem Declares.again {names : List String} {declarations : Declarations}
    (declares : Declares names declarations) {name : String} (member : name ∈ names) :
    Declares (names ++ [name]) declarations := by
  intro other
  rw [declares other, List.mem_append, List.mem_singleton]
  exact ⟨Or.inl, Or.rec id fun same => same ▸ member⟩

/-- The declaration of a name may be completed. -/
theorem Declares.complete {names : List String} {declarations : Declarations}
    (declares : Declares names declarations) {name : String} (member : name ∈ names) :
    Declares names ((name, true) :: declarations) := by
  intro other
  rw [List.lookup_cons]
  by_cases same : other = name
  · simp [same, member]
  · have differ : (other == name) = false := by simpa using same
    simp [differ, declares other]

/-! ### Where names are declared -/

namespace Corresponds

variable {setting : Setting} {scopes : Scopes}

theorem innermost_iff (corresponds : Corresponds setting scopes) (name : String) :
    (scopes.innermost? name).isSome ↔ setting.Has name := by
  have declared := corresponds.declared
  unfold Scopes.innermost? Setting.Has
  revert declared
  generalize setting.scopes = names
  intro declared
  cases declared with
  | nil => simp
  | cons declares _ => simpa using declares name

/-- The walk finds a name as far out as the setting says. By induction on the scopes. -/
theorem distance_iff (corresponds : Corresponds setting scopes) (name : String)
    (distance : Nat) :
    scopes.distance? name = some distance ↔ setting.DeclaredOut name distance := by
  have declared := corresponds.declared
  unfold Scopes.distance? Setting.DeclaredOut
  revert declared
  generalize setting.scopes = names
  intro declared
  clear corresponds
  induction declared generalizing distance with
  | nil => simp
  | @cons names declarations outer rest declares _ inductionHypothesis =>
      rw [List.findIdx?_cons]
      by_cases here : name ∈ names
      · rw [if_pos ((declares name).mpr here)]
        constructor
        · rintro ⟨⟩
          exact ⟨⟨names, rfl, here⟩, nofun⟩
        · rintro ⟨_, before⟩
          cases distance with
          | zero => rfl
          | succ distance => exact absurd here (before 0 (Nat.succ_pos _) names rfl)
      · have absent : (declarations.lookup name).isSome = false :=
          Bool.eq_false_iff.mpr fun found => here ((declares name).mp found)
        rw [absent, if_neg Bool.false_ne_true]
        cases distance with
        | zero => simp [here]
        | succ distance =>
            rw [Option.map_eq_some_iff]
            simp only [Nat.add_right_cancel_iff, exists_eq_right, inductionHypothesis,
              List.getElem?_cons_succ]
            refine and_congr_right fun _ => ⟨?_, ?_⟩
            · rintro before nearer bound
              cases nearer with
              | zero => simpa using here
              | succ nearer => exact before nearer (Nat.lt_of_succ_lt_succ bound)
            · exact fun before nearer bound =>
                before (nearer + 1) (Nat.succ_lt_succ bound)

end Corresponds

/-! ### Going on -/

namespace Standing

variable {setting : Setting} {scopes : Scopes}

/-- Outside of all initializers it is enough that no declaration is incomplete. -/
theorem ofComplete (declared : List.Forall₂ Declares setting.scopes scopes)
    (complete : ∀ name, scopes.innermost? name ≠ some false)
    (settled : setting.initializing = none) : Standing setting scopes where
  declared := declared
  pending name := by
    refine ⟨fun incomplete => absurd incomplete (complete name), ?_⟩
    rintro ⟨⟨_, initializing, _⟩, _⟩
    rw [settled] at initializing
    cases initializing
  settled := settled

theorem complete (standing : Standing setting scopes) (name : String) :
    scopes.innermost? name ≠ some false := by
  intro incomplete
  obtain ⟨⟨_, initializing, _⟩, _⟩ := (standing.pending name).mp incomplete
  rw [standing.settled] at initializing
  cases initializing

theorem outermost : Standing .outermost [] :=
  ofComplete .nil nofun rfl

theorem opened (standing : Standing setting scopes) : Standing setting.opened ([] :: scopes) :=
  ofComplete (.cons .nil standing.declared) (by simp) standing.settled

theorem entered (standing : Standing setting scopes) (enclosing : Enclosing) :
    Standing (setting.entered enclosing) ([] :: scopes) :=
  ofComplete standing.opened.declared standing.opened.complete standing.settled

theorem classBody (standing : Standing setting scopes) :
    Standing setting.classBody scopes.withThis := by
  refine ofComplete (.cons (Declares.nil.record _ true) standing.declared) ?_ standing.settled
  intro name incomplete
  have recorded := Scopes.innermost?_record [] scopes Keyword.this.spelling name true
  rw [Scopes.innermost?_push] at recorded
  have found := recorded.symm.trans incomplete
  split at found <;> cases found

/-- In the initializer of a variable its declaration is incomplete, if it is the first one. -/
theorem initialized (standing : Standing setting scopes) (name : Token) :
    Corresponds (setting.initialized name) (scopes.declare name).1 := by
  obtain ⟨names, enclosing, inClass, initializing⟩ := setting
  have declared : List.Forall₂ Declares names scopes := standing.declared
  have has := standing.innermost_iff name.lexeme
  cases declared with
  | nil => exact ⟨.nil, fun other => ⟨nofun, fun ⟨_, _, absent, _⟩ => nomatch absent⟩⟩
  | @cons scope declarations outer rest declares following =>
      unfold Scopes.declare
      by_cases already : name.lexeme ∈ scope
      · -- The name counts twice from now on.
        rw [if_pos (has.mpr ⟨scope, rfl, already⟩)]
        refine ⟨.cons (declares.again already) following, fun other => ?_⟩
        refine ⟨fun incomplete => absurd incomplete (standing.complete other), ?_⟩
        rintro ⟨⟨_, ⟨⟩, rfl⟩, _, ⟨⟩, single⟩
        rw [List.count_append, List.count_singleton_self] at single
        exact absurd (List.count_pos_iff.mpr already) (by omega)
      · have absent : ¬(Scopes.innermost? (declarations :: rest) name.lexeme).isSome := by
          rintro found
          obtain ⟨_, ⟨⟩, member⟩ := has.mp found
          exact already member
        rw [if_neg absent]
        refine ⟨.cons (declares.record _ false) following, fun other => ?_⟩
        rw [Scopes.innermost?_record]
        constructor
        · intro incomplete
          split at incomplete
          case isTrue same =>
            subst same
            refine ⟨⟨name, rfl, rfl⟩, _, rfl, ?_⟩
            rw [List.count_append, List.count_singleton_self, List.count_eq_zero.mpr already]
          case isFalse => exact absurd incomplete (standing.complete other)
        · rintro ⟨⟨_, ⟨⟩, rfl⟩, _⟩
          rw [if_pos rfl]

/-- Behind the initializer the declaration is complete. -/
theorem define (standing : Standing setting scopes) (name : Token) :
    Standing (setting.declaring [name.lexeme]) ((scopes.declare name).1.define name) := by
  have corresponds := standing.initialized name
  generalize (scopes.declare name).1 = scopes at corresponds ⊢
  obtain ⟨names, enclosing, inClass, initializing⟩ := setting
  have declared : List.Forall₂ Declares (names.modifyHead (· ++ [name.lexeme])) scopes :=
    corresponds.declared
  refine ofComplete ?_ ?_ standing.settled
  · cases names with
    | nil =>
        cases declared
        exact .nil
    | cons scope outer =>
        obtain _ | ⟨declares, following⟩ := declared
        exact .cons (declares.complete (by simp)) following
  · intro other incomplete
    cases scopes with
    | nil => cases incomplete
    | cons declarations rest =>
        rw [Scopes.define, Scopes.innermost?_record] at incomplete
        split at incomplete
        case isTrue => cases incomplete
        case isFalse differ =>
          obtain ⟨⟨_, ⟨⟩, same⟩, _⟩ := (corresponds.pending other).mp incomplete
          exact differ same.symm

/-- The scopes behind parameters. -/
theorem introduceAll (standing : Standing setting scopes) (names : List Token) :
    Standing (setting.declaring (names.map Token.lexeme)) (scopes.introduceAll names).1 := by
  induction names generalizing setting scopes with
  | nil =>
      rw [List.map_nil, Setting.declaring_nil]
      exact standing
  | cons name rest inductionHypothesis =>
      have following := inductionHypothesis (standing.define name)
      rwa [Setting.declaring_declaring] at following

/-- The scopes behind a statement. By induction on the statement, for branches and bodies that
are declarations. -/
theorem behind {setting : Setting} {scopes : Scopes} (standing : Standing setting scopes) :
    (statement : Statement) →
    Standing (setting.declaring statement.declared)
      (ofStatement setting.context scopes statement).1
  | .expression _ | .print _ | .block _ | .return _ _ => by
      rw [Statement.declared, Setting.declaring_nil]
      exact standing
  | .var name _ | .class name _ => standing.define name
  | .function declaration => standing.define declaration.name
  | .conditional _ thenBranch none => behind standing thenBranch
  | .conditional _ thenBranch (some elseBranch) => by
      have following := behind (behind standing thenBranch) elseBranch
      rwa [Setting.declaring_declaring] at following
  | .loop _ body => behind standing body

end Standing

end Lox.Scope
