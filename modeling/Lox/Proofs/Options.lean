/-!
Contract: what may be absent, on two sides that correspond.

Owns: facts about `Option.Rel` that hold of any relation.
-/

namespace Lox

variable {α β : Type} {relation weaker : α → β → Prop} {left : Option α} {right : Option β}

theorem optionRel_mono (implies : ∀ first second, relation first second → weaker first second)
    (related : Option.Rel relation left right) : Option.Rel weaker left right := by
  cases related with
  | none => exact .none
  | some related => exact .some (implies _ _ related)

theorem optionRel_refl (value : Option α) : Option.Rel Eq value value := by
  cases value with
  | none => exact .none
  | some value => exact .some rfl

/-- Nothing is absent on one side alone. -/
theorem isSome_eq_of_optionRel (related : Option.Rel relation left right) :
    right.isSome = left.isSome := by
  cases related <;> rfl

/-- What corresponds only to itself is the same on both sides. -/
theorem eq_of_optionRel {relation : α → α → Prop} {left right : Option α}
    (same : ∀ first second, relation first second → second = first)
    (related : Option.Rel relation left right) : right = left := by
  cases related with
  | none => rfl
  | some related => exact congrArg some (same _ _ related)

end Lox
