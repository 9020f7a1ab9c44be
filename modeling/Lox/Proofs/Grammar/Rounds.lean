import Lox.Proofs.Grammar.Progress

/-!
Contract: the repetitions of the grammar are loops, and each loop ends.

Owns:
- `Round`, what one round of a loop comes to, and `Runs`, a run of a loop as finitely many
  rounds, without a bound on their number;
- the round of each repetition of the grammar, and that the repetition is a run of it: each
  round that does not leave the loop reads a token.

Does not own: rules that are used inside themselves.
-/

namespace Lox.Grammar

open Lox.Grammar.Parser

/-- What a round of a loop comes to, if it gives a result: the loop is left, or it goes on in
another state, and what the round has read is added to what the later ones read. -/
inductive Round (State α : Type) where
  | leave (result : α)
  | again (next : State) (add : α → α)

namespace Round

variable {State α : Type}

/-- Whether the loop goes on behind a round. -/
def GoesOn : Round State α → Prop
  | .leave _ => False
  | .again _ _ => True

/-- A round, and what follows it when the loop goes on. -/
def followed (round : Parser (Round State α)) (others : State → Parser α) : Parser α := do
  match ← round with
  | .leave result => return result
  | .again next add => add <$> others next

variable {β : Type} {others : State → Parser α}

@[simp] theorem followed_leave (result : α) :
    followed (pure (.leave result)) others = pure result := rfl

@[simp] theorem followed_again (next : State) (add : α → α) :
    followed (pure (.again next add)) others = add <$> others next := rfl

@[simp] theorem followed_bind (first : Parser β) (second : β → Parser (Round State α)) :
    followed (first >>= second) others = first >>= fun value => followed (second value) others :=
  bind_assoc ..

@[simp] theorem followed_map (transform : β → Round State α) (first : Parser β) :
    followed (transform <$> first) others =
      first >>= fun value => followed (pure (transform value)) others := by
  rw [map_eq_pure_bind, followed_bind]

@[simp] theorem followed_ite (condition : Prop) [Decidable condition]
    (behind otherwise : Parser (Round State α)) :
    followed (if condition then behind else otherwise) others =
      if condition then followed behind others else followed otherwise others := by
  split <;> rfl

end Round

/-- A run of a loop: finitely many rounds, the last of which leaves the loop or fails. -/
inductive Runs {State α : Type} (round : State → Parser (Round State α)) :
    State → Cursor → EStateM.Result SyntaxError Cursor α → Prop where
  | leave {state : State} {start final : Cursor} {result : α}
      (last : round state start = .ok (.leave result) final) :
      Runs round state start (.ok result final)
  | fail {state : State} {start final : Cursor} {error : SyntaxError}
      (failed : round state start = .error error final) :
      Runs round state start (.error error final)
  | again {state next : State} {add : α → α} {start middle final : Cursor} {result : α}
      (first : round state start = .ok (.again next add) middle)
      (others : Runs round next middle (.ok result final)) :
      Runs round state start (.ok (add result) final)
  | againFail {state next : State} {add : α → α} {start middle final : Cursor}
      {error : SyntaxError} (first : round state start = .ok (.again next add) middle)
      (others : Runs round next middle (.error error final)) :
      Runs round state start (.error error final)

/-- A repetition with a bound is a loop: each of its rounds that does not leave the loop reads
a token, and a bound beyond the number of tokens is never met. -/
structure Repeats {State α : Type} (round : State → Parser (Round State α))
    (loop : Nat → State → Parser α) : Prop where
  advances : ∀ state, (round state).Advances
  shortens : ∀ state, (round state).Shortens Round.GoesOn
  runs : ∀ {bound : Nat} {start : Cursor}, start.rest.length < bound → ∀ state,
    Runs round state start (loop bound state start)

section Loops

variable {State α : Type} {round : State → Parser (Round State α)} {loop : Nat → State → Parser α}

/-- A repetition that does a round and then what is left of it. -/
theorem Repeats.ofFollowed (advances : ∀ state, (round state).Advances)
    (shortens : ∀ state, (round state).Shortens Round.GoesOn)
    (follows : ∀ bound state, loop (bound + 1) state = Round.followed (round state) (loop bound)) :
    Repeats round loop where
  advances := advances
  shortens := shortens
  runs := by
    intro bound start bounded state
    induction bound generalizing start state with
    | zero => exact absurd bounded (Nat.not_lt_zero _)
    | succ bound inductionHypothesis =>
        rw [follows]
        unfold Round.followed
        cases first : round state start with
        | error error final =>
            simp only [bind, EStateM.bind, first]
            exact .fail first
        | ok ended middle =>
            rw [bind_of_ok first]
            cases ended with
            | leave result => exact .leave first
            | again next add =>
                have fewer : middle.rest.length < start.rest.length :=
                  shortens state first trivial
                have others := inductionHypothesis
                  (Nat.lt_of_lt_of_le fewer (Nat.le_of_lt_succ bounded)) next
                simp only [Functor.map, EStateM.map]
                generalize loop bound next middle = result at others ⊢
                cases result with
                | ok result final => exact .again first others
                | error error final => exact .againFail first others

end Loops

/-! ### Expressions -/

/-- A call or a property access that may follow an expression. -/
def callRound (nested : Parser Expression) (callee : Expression) :
    Parser (Round Expression Expression) := do
  if ← skip? .leftParen then
    let (arguments, paren) ← listUpTo .argumentsClose nested .tooManyArguments
    return .again (← node (.call · callee paren arguments)) id
  else if ← skip? .dot then
    let name ← requireName .property
    return .again (← node (.get · callee name)) id
  else
    return .leave callee

/-- An operator and its right operand, which may follow the left one. -/
def operatorRound (isOperator : Token → Bool)
    (make : Nat → Expression → Token → Expression → Expression) (operand : Parser Expression)
    (left : Expression) : Parser (Round Expression Expression) := do
  match ← take? isOperator with
  | none => return .leave left
  | some operator =>
      let right ← operand
      return .again (← node (make · left operator right)) id

/-- An argument or a parameter, of which `count` were read before. -/
def itemRound {α : Type} (item : Parser α) (tooMany : SyntaxFault) (count : Nat) :
    Parser (Round Nat (List α)) := do
  if maxItems ≤ count then
    report (← get).peek tooMany
  let value ← item
  if ← skip? .comma then
    return .again (count + 1) (value :: ·)
  else
    return .leave [value]

/-- A method, or the end of the class. -/
def methodRound (declaration : Parser (Option Statement)) (_ : Unit) :
    Parser (Round Unit (List FunctionDeclaration)) := do
  if (← atEnd) || (← at? (Token.isSymbol .rightBrace)) then
    return .leave []
  else
    let method ← function declaration .method
    return .again () (method :: ·)

/-- A declaration, or the end of a block or of the program. -/
def declarationRound (stop : Token → Bool) (declaration : Parser (Option Statement)) (_ : Unit) :
    Parser (Round Unit (List Statement)) := do
  if (← atEnd) || (← at? stop) then
    return .leave []
  else
    let found ← declaration
    return .again () (found.toList ++ ·)

theorem callsFrom_followed (nested : Parser Expression) (bound : Nat) (callee : Expression) :
    callsFrom nested (bound + 1) callee =
      Round.followed (callRound nested callee) (callsFrom nested bound) := by
  simp [callRound, callsFrom]

theorem leftAssociativeFrom_followed (isOperator : Token → Bool)
    (make : Nat → Expression → Token → Expression → Expression) (operand : Parser Expression)
    (bound : Nat) (left : Expression) :
    leftAssociativeFrom isOperator make operand (bound + 1) left =
      Round.followed (operatorRound isOperator make operand left)
        (leftAssociativeFrom isOperator make operand bound) := by
  simp only [operatorRound, leftAssociativeFrom, Round.followed_bind]
  congr 1
  funext operator
  cases operator with
  | none => rfl
  | some operator => simp

theorem itemsFrom_followed {α : Type} (item : Parser α) (tooMany : SyntaxFault)
    (bound count : Nat) :
    itemsFrom item tooMany count (bound + 1) =
      Round.followed (itemRound item tooMany count) (itemsFrom item tooMany · bound) := by
  simp [itemRound, itemsFrom]

theorem methodsFrom_followed (declaration : Parser (Option Statement)) (bound : Nat)
    (state : Unit) :
    methodsFrom declaration (bound + 1) =
      Round.followed (methodRound declaration state) fun _ => methodsFrom declaration bound := by
  simp [methodRound, methodsFrom]

theorem declarationsUntil_followed (stop : Token → Bool) (declaration : Parser (Option Statement))
    (bound : Nat) (state : Unit) :
    declarationsUntil stop declaration (bound + 1) =
      Round.followed (declarationRound stop declaration state)
        fun _ => declarationsUntil stop declaration bound := by
  simp [declarationRound, declarationsUntil]

/-! ### Every repetition is a loop -/

theorem callRound_repeats {nested : Parser Expression} (inside : nested.Advances) :
    Repeats (callRound nested) (callsFrom nested) := by
  have called : ∀ callee : Expression, (do
      let (arguments, paren) ← listUpTo .argumentsClose nested .tooManyArguments
      return .again (← node (.call · callee paren arguments)) id :
      Parser (Round Expression Expression)).Advances := fun _ =>
    (Advances.listUpTo _ inside _).bind fun _ => (Advances.node _).bind fun _ => Advances.pure _
  have accessed : ∀ callee : Expression, (do
      let name ← requireName .property
      return .again (← node (.get · callee name)) id :
      Parser (Round Expression Expression)).Advances := fun _ =>
    (Advances.requireName _).bind fun _ => (Advances.node _).bind fun _ => Advances.pure _
  apply Repeats.ofFollowed
  · intro callee
    refine (Advances.skip? _).bind fun _ => Advances.ite (called callee) ?_
    exact (Advances.skip? _).bind fun _ => Advances.ite (accessed callee) (Advances.pure _)
  · intro callee
    exact Shortens.ifSymbol (called callee)
      (Shortens.ifSymbol (accessed callee) (Shortens.pure id))
  · exact callsFrom_followed nested

theorem operatorRound_repeats {operand : Parser Expression} (inside : operand.Advances)
    (isOperator : Token → Bool) (make : Nat → Expression → Token → Expression → Expression) :
    Repeats (operatorRound isOperator make operand)
      (leftAssociativeFrom isOperator make operand) := by
  have applied : ∀ (left : Expression) (operator : Token), (do
      let right ← operand
      return .again (← node (make · left operator right)) id :
      Parser (Round Expression Expression)).Advances := fun _ _ =>
    inside.bind fun _ => (Advances.node _).bind fun _ => Advances.pure _
  apply Repeats.ofFollowed
  · intro left
    refine (Advances.take? _).bind fun operator => ?_
    cases operator with
    | none => exact Advances.pure _
    | some operator => exact applied left operator
  · intro left
    exact Shortens.ifTaken (applied left) (Shortens.pure id)
  · exact leftAssociativeFrom_followed isOperator make operand

theorem itemRound_repeats {α : Type} {item : Parser α} (inside : item.Advances)
    (consumes : item.Consumes) (tooMany : SyntaxFault) :
    Repeats (itemRound item tooMany) fun bound count => itemsFrom item tooMany count bound := by
  have rest : ∀ (count : Nat) (value : α), (do
      if ← skip? .comma then
        return .again (count + 1) (value :: ·)
      else
        return .leave [value] : Parser (Round Nat (List α))).Advances := fun _ _ =>
    (Advances.skip? _).bind fun _ => Advances.ite (Advances.pure _) (Advances.pure _)
  apply Repeats.ofFollowed
  · intro count
    unfold itemRound
    split
    · exact Advances.get.bind fun _ => (Advances.report _ _).bind fun _ => inside.bind (rest count)
    · exact inside.bind (rest count)
  · intro count
    unfold itemRound
    split
    · refine Shortens.second Advances.get fun _ => Shortens.second (Advances.report _ _) ?_
      exact fun _ => consumes.first inside (rest count)
    · exact consumes.first inside (rest count)
  · exact itemsFrom_followed item tooMany

section Ends

variable {State α : Type} {stop : Token → Bool} {result : α} {behind : Parser (Round State α)}

theorem Advances.beforeEnd (advances : behind.Advances) :
    (do
      if (← atEnd) || (← at? stop) then
        return .leave result
      else
        behind : Parser (Round State α)).Advances :=
  Advances.atEnd.bind fun _ => (Advances.at? _).bind fun _ =>
    Advances.ite (Advances.pure _) advances

/-- A round at the end leaves the loop, so that other rounds have a token to read. -/
theorem Shortens.beforeEnd
    (reads : ∀ ⦃start ended final⦄, behind start = .ok ended final → start.rest ≠ [] →
      final.rest.length < start.rest.length) :
    (do
      if (← atEnd) || (← at? stop) then
        return .leave result
      else
        behind : Parser (Round State α)).Shortens Round.GoesOn := by
  intro start ended final read goesOn
  change (if start.rest.isEmpty || start.rest.head?.any stop then
    (pure (.leave result) : Parser (Round State α)) else behind) start = _ at read
  split at read
  · cases read
    exact goesOn.elim
  case isFalse continues =>
    refine reads read fun ended => ?_
    simp [ended] at continues

end Ends

theorem methodRound_repeats {declaration : Parser (Option Statement)}
    (inside : declaration.Advances) :
    Repeats (methodRound declaration) fun bound _ => methodsFrom declaration bound := by
  have advances := function_advances inside .method
  have consumes : (do
      let method ← function declaration .method
      return .again () (method :: ·) :
      Parser (Round Unit (List FunctionDeclaration))).Consumes :=
    (function_consumes inside _).first advances fun _ => Advances.pure _
  apply Repeats.ofFollowed
  · intro _
    exact Advances.beforeEnd (advances.bind fun _ => Advances.pure _)
  · intro _
    exact Shortens.beforeEnd fun start ended final read _ => consumes read trivial
  · exact methodsFrom_followed declaration

theorem declarationRound_repeats (stop : Token → Bool) (depth : Nat) :
    Repeats (declarationRound stop (declarationWithin depth))
      fun bound _ => declarationsUntil stop (declarationWithin depth) bound := by
  apply Repeats.ofFollowed
  · intro _
    exact Advances.beforeEnd ((within_advances depth).1.bind fun _ => Advances.pure _)
  · intro _
    apply Shortens.beforeEnd
    intro start ended final read inside
    have fewer := declarationWithin_shortens depth inside
    simp only [bind, EStateM.bind] at read
    split at read
    case h_1 found middle accepted =>
      rw [accepted] at fewer
      cases read
      exact fewer
    case h_2 => cases read
  · exact declarationsUntil_followed stop _

end Lox.Grammar
