import Lox.Evaluation.Evaluate

/-!
Contract: how a computation that is made of others has ended.

Owns: for a sequence, for a computation in another frame and for one that is a call deeper,
how the parts have ended if the whole has, and how the whole has if the parts have.
-/

namespace Lox.Evaluation

section Sequence

variable {State α β : Type} {first : Run State α} {next : α → Run State β} {state final : State}

/-- What follows a value goes on from it. -/
theorem bind_of_ok (next : α → Run State β) {value : α} (result : first state = .ok value final) :
    (first >>= next) state = next value final := by
  show EStateM.bind first next state = _
  unfold EStateM.bind
  rw [result]

/-- What reads the state goes on from it. -/
theorem get_bind (next : State → Run State β) : (get >>= next) state = next state state :=
  rfl

/-- Nothing follows a halt. -/
theorem bind_of_error (next : α → Run State β) {halt : Halt}
    (result : first state = .error halt final) : (first >>= next) state = .error halt final := by
  show EStateM.bind first next state = _
  unfold EStateM.bind
  rw [result]

/-- What has ended has ended in both parts. -/
theorem bind_ok {value : β} (done : (first >>= next) state = .ok value final) :
    ∃ result middle, first state = .ok result middle ∧ next result middle = .ok value final := by
  change EStateM.bind first next state = _ at done
  unfold EStateM.bind at done
  cases result : first state with
  | ok found middle =>
      rw [result] at done
      exact ⟨found, middle, rfl, done⟩
  | error halt middle =>
      rw [result] at done
      cases done

/-- What has stopped has stopped in its first part, or behind it. -/
theorem bind_error {halt : Halt} (halts : (first >>= next) state = .error halt final) :
    first state = .error halt final ∨
      ∃ value middle, first state = .ok value middle ∧ next value middle = .error halt final := by
  change EStateM.bind first next state = _ at halts
  unfold EStateM.bind at halts
  cases result : first state with
  | ok value middle =>
      rw [result] at halts
      exact Or.inr ⟨value, middle, rfl, halts⟩
  | error cause middle =>
      rw [result] at halts
      cases halts
      exact Or.inl rfl

end Sequence

section Frame

variable {α : Type} {computation : Eval α} {frame : Nat} {machine final : Machine}

theorem within_ok {value : α} (done : within frame computation machine = .ok value final) :
    ∃ last, computation { machine with environment := frame } = .ok value last := by
  unfold within at done
  dsimp only at done
  cases result : computation { machine with environment := frame } with
  | ok found last =>
      rw [result] at done
      cases done
      exact ⟨last, rfl⟩
  | error halt last =>
      rw [result] at done
      cases done

theorem within_error {halt : Halt} (halts : within frame computation machine = .error halt final) :
    ∃ last, computation { machine with environment := frame } = .error halt last := by
  unfold within at halts
  dsimp only at halts
  cases result : computation { machine with environment := frame } with
  | ok value last =>
      rw [result] at halts
      cases halts
  | error cause last =>
      rw [result] at halts
      cases halts
      exact ⟨last, rfl⟩

theorem within_of_ok {last : Machine} {value : α}
    (done : computation { machine with environment := frame } = .ok value last) :
    within frame computation machine =
      .ok value { last with environment := machine.environment } := by
  unfold within
  rw [done]

theorem within_of_error {last : Machine} {halt : Halt}
    (halts : computation { machine with environment := frame } = .error halt last) :
    within frame computation machine =
      .error halt { last with environment := machine.environment } := by
  unfold within
  rw [halts]

theorem deeper_of_ok {last : Machine} {value : α}
    (done : computation { machine with depth := machine.depth + 1 } = .ok value last) :
    deeper computation machine = .ok value { last with depth := last.depth - 1 } := by
  unfold deeper
  rw [done]

theorem deeper_of_error {last : Machine} {halt : Halt}
    (halts : computation { machine with depth := machine.depth + 1 } = .error halt last) :
    deeper computation machine = .error halt { last with depth := last.depth - 1 } := by
  unfold deeper
  rw [halts]

theorem deeper_error {halt : Halt} (halts : deeper computation machine = .error halt final) :
    ∃ last, computation { machine with depth := machine.depth + 1 } = .error halt last := by
  unfold deeper at halts
  cases result : computation { machine with depth := machine.depth + 1 } with
  | ok value last =>
      rw [result] at halts
      cases halts
  | error cause last =>
      rw [result] at halts
      cases halts
      exact ⟨last, rfl⟩

end Frame

end Lox.Evaluation
