import Mathlib.Data.List.Nodup
import Lox.Proofs.Scope.Accounts

/-!
Contract: the walk over a program finds what the scoping rules say.

Owns:
- that the findings of the walk account for every piece of code;
- `resolve_follows_rules`: a program is refused with its violations, or else its table holds
  its local names.
-/

namespace Lox.Scope

/-! ### Declarations and returns -/

/-- A declaration is wrong if the innermost scope has the name already. -/
theorem declare_accounts {setting : Setting} {scopes : Scopes}
    (standing : Standing setting scopes) (name : Token) :
    Accounts setting (.name name) (scopes.declare name).2 := by
  have has := standing.innermost_iff name.lexeme
  unfold Scopes.declare
  split
  case isTrue already =>
      refine .ofWrong .nil fun error => ⟨?_, ?_⟩
      · rintro ⟨_⟩
        rfl
      · rintro rfl
        exact .alreadyDeclared (has.mp already)
  case isFalse new =>
      refine .ofRight .nil ?_ nofun
      rintro _ ⟨already⟩
      exact new (has.mpr already)

/-- What is found about a return itself is what is wrong with it. -/
theorem ofReturn_accounts {setting : Setting} {found : List Finding} (keyword : Token)
    (value : Option Expression)
    (accounts : AccountsAll (setting.parts (.statement (.return keyword value))) found) :
    Accounts setting (.statement (.return keyword value))
      (ofReturn setting.context.surrounding keyword value.isSome ++ found) := by
  unfold Setting.context
  dsimp only
  match enclosing : setting.enclosing with
  | none =>
      refine .ofWrong accounts fun error => ⟨?_, ?_⟩
      · intro wrong
        cases wrong with
        | returnOutsideFunction => rfl
        | returnFromInitializer inside => cases enclosing.symm.trans inside
      · rintro rfl
        exact .returnOutsideFunction enclosing
  | some .function =>
      refine .ofRight accounts (fun error wrong => ?_) nofun
      cases wrong with
      | returnOutsideFunction outside => cases enclosing.symm.trans outside
      | returnFromInitializer inside => cases enclosing.symm.trans inside
  | some (.method name) =>
      dsimp only [Option.elim_some, Enclosing.surrounding, methodSurrounding]
      by_cases initializer : name.lexeme = initializerName
      · rw [if_pos initializer]
        cases value with
        | none =>
            refine .ofRight accounts (fun error wrong => ?_) nofun
            cases wrong with
            | returnOutsideFunction outside => cases enclosing.symm.trans outside
        | some value =>
            refine .ofWrong accounts fun error => ⟨?_, ?_⟩
            · intro wrong
              cases wrong with
              | returnOutsideFunction outside => cases enclosing.symm.trans outside
              | returnFromInitializer => rfl
            · rintro rfl
              exact .returnFromInitializer enclosing initializer
      · rw [if_neg initializer]
        refine .ofRight accounts (fun error wrong => ?_) nofun
        cases wrong with
        | returnOutsideFunction outside => cases enclosing.symm.trans outside
        | returnFromInitializer inside named =>
            cases enclosing.symm.trans inside
            exact initializer named

/-! ### The walk -/

mutual

/-- By induction on the expression, each part in the same setting. -/
theorem ofExpression_accounts {setting : Setting} {scopes : Scopes}
    (corresponds : Corresponds setting scopes) : (expression : Expression) →
    Accounts setting (.expression expression) (ofExpression setting.inClass scopes expression)
  | .literal _ _ => .ofPlain trivial .nil
  | .grouping _ inner | .unary _ _ inner | .get _ inner _ =>
      .ofPlain trivial (.single (ofExpression_accounts corresponds inner))
  | .binary _ left _ right | .logical _ left _ right =>
      .ofPlain trivial (.cons (ofExpression_accounts corresponds left)
        (.single (ofExpression_accounts corresponds right)))
  | .variable id name => by
      unfold ofExpression
      split
      case isTrue pending =>
          -- The name is located all the same, but that does not matter.
          have only : violations ([.violation ⟨name, .ownInitializer⟩] ++ scopes.locate id name) =
              [⟨name, .ownInitializer⟩] :=
            congrArg (_ :: ·) (violations_locate scopes id name)
          refine .ofParts _ .nil (.of_eq (List.append_nil _).symm) (List.append_nil _).symm
            (only ▸ Nat.le_refl _) (fun error => ?_) (only ▸ nofun) (locate_once .variable)
          rw [only, List.mem_singleton]
          constructor
          · rintro rfl
            exact .ownInitializer ((corresponds.pending _).mp pending)
          · rintro ⟨_⟩
            rfl
      case isFalse complete =>
          refine .ofOccurrence corresponds .variable .nil fun error wrong => ?_
          cases wrong with
          | ownInitializer initializes =>
              exact complete ((corresponds.pending _).mpr initializes)
  | .this id keyword => by
      unfold ofExpression
      split
      case isTrue inClass =>
          refine .ofOccurrence corresponds .this .nil fun error wrong => ?_
          cases wrong with
          | thisOutsideClass outside => cases inClass.symm.trans outside
      case isFalse outside =>
          refine .ofWrong .nil fun error => ⟨?_, ?_⟩
          · rintro ⟨_⟩
            rfl
          · rintro rfl
            exact .thisOutsideClass (Bool.eq_false_iff.mpr outside)
  | .assign id name value =>
      .ofOccurrence corresponds .assign (.single (ofExpression_accounts corresponds value)) nofun
  | .call _ callee _ arguments =>
      .ofPlain trivial (.cons (ofExpression_accounts corresponds callee)
        (ofExpressions_accounts corresponds arguments))
  | .set _ object _ value =>
      .ofPlain trivial (.cons (ofExpression_accounts corresponds value)
        (.single (ofExpression_accounts corresponds object)))

theorem ofExpressions_accounts {setting : Setting} {scopes : Scopes}
    (corresponds : Corresponds setting scopes) : (expressions : List Expression) →
    AccountsAll (expressions.map fun expression => (setting, .expression expression))
      (ofExpressions setting.inClass scopes expressions)
  | [] => .nil
  | expression :: rest =>
      .cons (ofExpression_accounts corresponds expression)
        (ofExpressions_accounts corresponds rest)

end

theorem introduceAll_accounts {setting : Setting} {scopes : Scopes}
    (standing : Standing setting scopes) : (names : List Token) →
    AccountsAll (setting.parameters names) (scopes.introduceAll names).2
  | [] => .nil
  | name :: rest =>
      .cons (declare_accounts standing name) (introduceAll_accounts (standing.define name) rest)

mutual

/-- By induction on the statement, each part in its own setting. -/
theorem ofStatement_accounts {setting : Setting} {scopes : Scopes}
    (standing : Standing setting scopes) : (statement : Statement) →
    Accounts setting (.statement statement) (ofStatement setting.context scopes statement).2
  | .expression value | .print value =>
      .ofPlain trivial (.single (ofExpression_accounts standing.toCorresponds value))
  | .var name none => .ofPlain trivial (.cons (declare_accounts standing name) .nil)
  | .var name (some value) =>
      .ofPlain trivial (.cons (declare_accounts standing name)
        (.single (ofExpression_accounts (standing.initialized name) value)))
  | .block statements => .ofPlain trivial (ofStatements_accounts standing.opened statements)
  | .conditional condition thenBranch none =>
      .ofPlain trivial (.cons (ofExpression_accounts standing.toCorresponds condition)
        (.single (ofStatement_accounts standing thenBranch)))
  | .conditional condition thenBranch (some elseBranch) => by
      have accounts := AccountsAll.cons (ofExpression_accounts standing.toCorresponds condition)
        (.cons (ofStatement_accounts standing thenBranch)
          (.single (ofStatement_accounts (standing.behind thenBranch) elseBranch)))
      rw [← List.append_assoc] at accounts
      exact .ofPlain trivial accounts
  | .loop condition body =>
      .ofPlain trivial (.cons (ofExpression_accounts standing.toCorresponds condition)
        (.single (ofStatement_accounts standing body)))
  | .function declaration =>
      .ofPlain trivial (.cons (declare_accounts standing declaration.name)
        (.single (ofFunction_accounts ((standing.define declaration.name).entered .function)
          declaration)))
  | .return keyword none => ofReturn_accounts keyword none .nil
  | .return keyword (some value) =>
      ofReturn_accounts keyword (some value)
        (.single (ofExpression_accounts standing.toCorresponds value))
  | .class name methods =>
      .ofPlain trivial (.cons (declare_accounts standing name)
        (ofMethods_accounts (standing.define name).classBody rfl methods))

theorem ofStatements_accounts {setting : Setting} {scopes : Scopes}
    (standing : Standing setting scopes) : (statements : List Statement) →
    AccountsAll (setting.sequence statements) (ofStatements setting.context scopes statements)
  | [] => .nil
  | statement :: rest =>
      .cons (ofStatement_accounts standing statement)
        (ofStatements_accounts (standing.behind statement) rest)

theorem ofFunction_accounts {setting : Setting} {scopes : Scopes}
    (standing : Standing setting ([] :: scopes)) : (declaration : FunctionOf Statement) →
    Accounts setting (.function declaration) (ofFunction setting.context scopes declaration)
  | ⟨_, parameters, body⟩ =>
      .ofPlain trivial ((introduceAll_accounts standing parameters).append
        (ofStatements_accounts (standing.introduceAll parameters) body))

theorem ofMethods_accounts {setting : Setting} {scopes : Scopes}
    (standing : Standing setting scopes) (inClass : setting.inClass = true) :
    (methods : List (FunctionOf Statement)) →
    AccountsAll
      (methods.map fun method => (setting.entered (.method method.name), .function method))
      (ofMethods scopes methods)
  | [] => .nil
  | method :: rest => by
      have account := ofFunction_accounts (standing.entered (.method method.name)) method
      have inMethod : (setting.entered (.method method.name)).context =
          ⟨methodSurrounding method.name, true⟩ :=
        congrArg (Context.mk _) inClass
      rw [inMethod] at account
      exact .cons account (ofMethods_accounts standing inClass rest)

end

/-! ### Programs -/

theorem findings_accounts (program : List Statement) :
    Accounts .outermost (.program program) (findings program) :=
  .ofPlain trivial (ofStatements_accounts .outermost program)

/-- If no number is located twice the table holds all that is located. -/
theorem getElem?_locals_iff {found : List Finding} (distinct : (locatedIds found).Nodup)
    (id distance : Nat) :
    (locals found)[id]? = some distance ↔ .located id distance ∈ found := by
  rcases mem_or_absent_of_locals found id with ⟨recorded, member, same⟩ | ⟨absent, same⟩
  · rw [same, Option.some_inj]
    constructor
    · rintro rfl
      exact member
    · intro also
      have equal := List.inj_on_of_nodup_map distinct (mem_located.mpr member)
        (mem_located.mpr also) rfl
      exact congrArg Prod.snd equal
  · rw [same]
    exact ⟨nofun, fun member => absurd member (absent distance)⟩

/-- The table of a program whose nodes have different numbers holds its local names. -/
theorem getElem?_resolve_iff {program : List Statement} {table : Locals}
    (distinct : (Statement.numbersOfAll program).Nodup) (accepted : resolve program = .ok table)
    (id distance : Nat) : table[id]? = some distance ↔ Located program id distance := by
  have account := findings_accounts program
  obtain ⟨quiet, rfl⟩ := resolve_eq_ok_iff.mp accepted
  have once : (locatedIds (findings program)).Nodup :=
    List.nodup_iff_count_le_one.mpr fun id =>
      Nat.le_trans (account.once id) (List.nodup_iff_count_le_one.mp distinct id)
  rw [getElem?_locals_iff once]
  exact account.locates quiet id distance

/-- A program whose nodes have different numbers is refused if and only if it breaks a scoping
rule. The errors are then its violations, each once and in the order of their positions.
Otherwise the table holds its local names and nothing else, each with the number of scopes
between the occurrence and the innermost scope that declares the name. -/
theorem resolve_follows_rules {program : List Statement}
    (distinct : (Statement.numbersOfAll program).Nodup) :
    ((∃ errors, resolve program = .error errors) ↔
      ∃ position error, Violation program position error) ∧
    (∀ errors, resolve program = .error errors →
      ∃ found : List (Position × ScopeError), found.map Prod.snd = errors ∧
        found.Pairwise (fun first second => first.1 < second.1) ∧
        ∀ position error, (position, error) ∈ found ↔ Violation program position error) ∧
    ∀ table, resolve program = .ok table →
      ∀ id distance, table[id]? = some distance ↔ Located program id distance := by
  obtain ⟨found, same, sorted, all⟩ := (findings_accounts program).errors
  refine ⟨?_, ?_, fun _ accepted => getElem?_resolve_iff distinct accepted⟩
  · constructor
    · rintro ⟨errors, refused⟩
      obtain ⟨violated, someError⟩ := resolve_eq_error_iff.mp refused
      rw [← same] at violated
      obtain ⟨⟨position, error⟩, member⟩ := List.exists_mem_of_ne_nil found (by
        rintro rfl
        exact someError violated.symm)
      exact ⟨position, error, (all position error).mp member⟩
    · rintro ⟨position, error, violation⟩
      refine ⟨_, resolve_eq_error_iff.mpr ⟨rfl, ?_⟩⟩
      rw [← same]
      exact List.ne_nil_of_mem (List.mem_map_of_mem ((all position error).mpr violation))
  · intro errors refused
    obtain ⟨rfl, _⟩ := resolve_eq_error_iff.mp refused
    exact ⟨found, same, sorted, all⟩

/-- A name that is declared once in a block and read behind it is local. If it is declared twice
the program breaks a rule, and the read in the second initializer does not break another one. -/
theorem second_declaration_is_violation :
    let name (line : Nat) : Token := ⟨.identifier, "a", line⟩
    let once : List Statement := [.block [.var (name 1) none, .print (.variable 0 (name 2))]]
    let twice : List Statement :=
      [.block [.var (name 1) none, .var (name 2) (some (.variable 0 (name 3)))]]
    ((Statement.numbersOfAll once).Nodup ∧
      ∃ table, resolve once = .ok table ∧ table[0]? = some 0) ∧
    (Statement.numbersOfAll twice).Nodup ∧
      ∃ position, ∀ other error,
        Violation twice other error ↔ other = position ∧ error = ⟨name 2, .alreadyDeclared⟩ := by
  intro name once twice
  have distinct : (Statement.numbersOfAll once).Nodup ∧ (Statement.numbersOfAll twice).Nodup :=
    ⟨List.nodup_singleton 0, List.nodup_singleton 0⟩
  refine ⟨⟨distinct.1, _, rfl, ?_⟩, distinct.2, ?_⟩
  · refine ((resolve_follows_rules distinct.1).2.2 _ rfl 0 0).mpr ?_
    refine ⟨[0, 1, 0], _, _, name 2, .part rfl (.part rfl (.part rfl .here)), .variable, ?_, nofun⟩
    exact ⟨["a"], rfl, List.mem_singleton.mpr rfl⟩
  · have refused : resolve twice = .error [⟨name 2, .alreadyDeclared⟩] := rfl
    obtain ⟨found, same, _, all⟩ := (resolve_follows_rules distinct.2).2.1 _ refused
    obtain ⟨⟨position, _⟩, rfl, same⟩ := List.map_eq_singleton_iff.mp same
    cases same
    exact ⟨position, fun other error => by rw [← all]; simp⟩

end Lox.Scope
