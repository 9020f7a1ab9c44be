import Lox.Machine

/-!
Contract: tables of local names.

Owns:
- `insertAll`, with which the records of a list come into a table, and what is then in it;
- the table and the violations of some findings, and of findings behind others;
- when a program is accepted;
- the tables of a machine after a unit's table has come in.

Does not own: what is found in a program.
-/

namespace Lox

namespace Scope

/-- The records of a list come into a table, later ones over earlier ones. -/
def insertAll (records : List (Nat × Nat)) (table : Locals) : Locals :=
  records.foldl (fun table record => table.insert record.1 record.2) table

/-- What comes in wins over what is there. -/
theorem getElem?_insertAll (records : List (Nat × Nat)) (table : Locals) (id : Nat) :
    (insertAll records table)[id]? = (insertAll records ∅)[id]?.or table[id]? := by
  induction records generalizing table with
  | nil =>
      show table[id]? = (∅ : Locals)[id]?.or table[id]?
      rw [Std.ExtTreeMap.getElem?_empty, Option.none_or]
  | cons record records inductionHypothesis =>
      show (insertAll records (table.insert record.1 record.2))[id]? =
        (insertAll records (Std.ExtTreeMap.insert ∅ record.1 record.2))[id]?.or table[id]?
      rw [inductionHypothesis, inductionHypothesis (Std.ExtTreeMap.insert ∅ record.1 record.2),
        Option.or_assoc, Std.ExtTreeMap.getElem?_insert, Std.ExtTreeMap.getElem?_insert]
      by_cases here : compare record.1 id = .eq
      · rw [if_pos here, if_pos here, Option.some_or]
      · rw [if_neg here, if_neg here, Std.ExtTreeMap.getElem?_empty, Option.none_or]

/-- A number is in the list with what is then in the table, or it is not in the list. -/
theorem mem_or_absent_of_insertAll (records : List (Nat × Nat)) (id : Nat) :
    (∃ distance, (id, distance) ∈ records ∧ (insertAll records ∅)[id]? = some distance) ∨
      ((∀ distance, (id, distance) ∉ records) ∧ (insertAll records ∅)[id]? = none) := by
  induction records with
  | nil => exact Or.inr ⟨fun _ => List.not_mem_nil, Std.ExtTreeMap.getElem?_empty⟩
  | cons record records inductionHypothesis =>
      have whole : (insertAll (record :: records) ∅)[id]? =
          (insertAll records ∅)[id]?.or (Std.ExtTreeMap.insert ∅ record.1 record.2)[id]? :=
        getElem?_insertAll records _ id
      rw [whole]
      rcases inductionHypothesis with ⟨distance, member, same⟩ | ⟨absent, same⟩
      · rw [same]
        exact Or.inl ⟨distance, List.mem_cons_of_mem _ member, rfl⟩
      · rw [same, Option.none_or, Std.ExtTreeMap.getElem?_insert]
        by_cases here : record.1 = id
        · subst here
          exact Or.inl ⟨record.2, List.mem_cons_self, by simp⟩
        · refine Or.inr ⟨fun distance member => ?_, by simp [here]⟩
          rcases List.mem_cons.mp member with rfl | later
          · exact here rfl
          · exact absent distance later

/-! ### Findings -/

/-- The located occurrences among findings. -/
def located (found : List Finding) : List (Nat × Nat) :=
  found.filterMap fun
    | .located id distance => some (id, distance)
    | .violation _ => none

theorem mem_located {found : List Finding} {id distance : Nat} :
    (id, distance) ∈ located found ↔ .located id distance ∈ found := by
  unfold located
  rw [List.mem_filterMap]
  constructor
  · rintro ⟨finding, member, same⟩
    cases finding with
    | located =>
        cases same
        exact member
    | violation => cases same
  · exact fun member => ⟨_, member, rfl⟩

theorem locals_eq (found : List Finding) : locals found = insertAll (located found) ∅ := by
  have general : ∀ table : Locals, found.foldl (fun table finding =>
      match finding with
      | .located id distance => table.insert id distance
      | .violation _ => table) table = insertAll (located found) table := by
    induction found with
    | nil => exact fun _ => rfl
    | cons finding found inductionHypothesis =>
        intro table
        cases finding with
        | located => exact inductionHypothesis _
        | violation => exact inductionHypothesis _
  exact general ∅

/-- A number is found with what the table says, or it is not found. -/
theorem mem_or_absent_of_locals (found : List Finding) (id : Nat) :
    (∃ distance, .located id distance ∈ found ∧ (locals found)[id]? = some distance) ∨
      ((∀ distance, .located id distance ∉ found) ∧ (locals found)[id]? = none) := by
  rw [locals_eq]
  simpa only [mem_located] using mem_or_absent_of_insertAll (located found) id

/-- What is found later wins. -/
theorem getElem?_locals_append (first second : List Finding) (id : Nat) :
    (locals (first ++ second))[id]? = (locals second)[id]?.or (locals first)[id]? := by
  have both : insertAll (located (first ++ second)) ∅ =
      insertAll (located second) (insertAll (located first) ∅) := by
    unfold located insertAll
    rw [List.filterMap_append, List.foldl_append]
  rw [locals_eq, locals_eq, locals_eq, both, getElem?_insertAll]

theorem violations_append (first second : List Finding) :
    violations (first ++ second) = violations first ++ violations second :=
  List.filterMap_append

theorem violations_append_eq_nil {first second : List Finding} :
    violations (first ++ second) = [] ↔ violations first = [] ∧ violations second = [] := by
  rw [violations_append, List.append_eq_nil_iff]

/-- A program is accepted if nothing is wrong with it. -/
theorem resolve_eq_ok_iff {program : List Statement} {table : Locals} :
    resolve program = .ok table ↔
      violations (findings program) = [] ∧ locals (findings program) = table := by
  unfold resolve
  dsimp only
  split
  case h_1 quiet => simp [quiet]
  case h_2 other => exact ⟨nofun, fun both => absurd both.1 other⟩

/-- A program is refused with all that is wrong with it. -/
theorem resolve_eq_error_iff {program : List Statement} {errors : List ScopeError} :
    resolve program = .error errors ↔ violations (findings program) = errors ∧ errors ≠ [] := by
  unfold resolve
  dsimp only
  split
  case h_1 quiet =>
      rw [quiet]
      exact ⟨nofun, fun both => absurd both.1.symm both.2⟩
  case h_2 other =>
      rw [Except.error.injEq]
      exact ⟨fun same => ⟨same, same ▸ other⟩, And.left⟩

end Scope

/-! ### Machines -/

/-- The records of a new table win over those of older ones. -/
theorem Machine.getElem?_addLocals (table : Scope.Locals) (machine : Machine) (id : Nat) :
    (machine.addLocals table).locals[id]? = table[id]?.or machine.locals[id]? := by
  have entered : (machine.addLocals table).locals =
      Scope.insertAll table.toList machine.locals :=
    Std.ExtTreeMap.foldl_eq_foldl_toList
  have inside : (Scope.insertAll table.toList ∅)[id]? = table[id]? := by
    rcases Scope.mem_or_absent_of_insertAll table.toList id with
      ⟨distance, member, same⟩ | ⟨absent, same⟩
    · rw [same, Std.ExtTreeMap.mem_toList_iff_getElem?_eq_some.mp member]
    · cases recorded : table[id]? with
      | none => exact same
      | some distance =>
          exact absurd (Std.ExtTreeMap.mem_toList_iff_getElem?_eq_some.mpr recorded)
            (absent distance)
  rw [entered, Scope.getElem?_insertAll, inside]

end Lox
