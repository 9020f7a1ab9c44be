import Mathlib
import Lox.Proofs.Evaluation.Origin
import Lox.Proofs.Evaluation.Restoration
import Lox.Proofs.Syntax.SourceForm

/-!
Contract: parentheses, node numbers and lines have no part in evaluation.

Owns:
- `SameEnd`: two computations end in one way on one machine, but for the line of the token to
  blame;
- that expressions which differ in parentheses, node numbers and lines only end in one way, if
  none of their nodes has a record in the table of local names;
- that an expression and what its source form reads as are such expressions, if all numbers in
  it are finite.

Each expression is compared with one that has no parentheses, no lines and a single number for
all its nodes. That number is one of its own, so that it has no record either.
-/

namespace Lox.Evaluation

/-! ### Computations that end in one way -/

/-- Two computations end with one value, at one fault or without fuel, on one machine. The
tokens to blame are equal but for their lines. -/
inductive SameEnd {α : Type} :
    EStateM.Result Halt Machine α → EStateM.Result Halt Machine α → Prop where
  | ok (value : α) (final : Machine) : SameEnd (.ok value final) (.ok value final)
  | fault {left right : Token} (fault : RuntimeFault) (final : Machine) :
      left.kind = right.kind → left.lexeme = right.lexeme →
      SameEnd (.error (.fault ⟨left, fault⟩) final) (.error (.fault ⟨right, fault⟩) final)
  | outOfFuel (final : Machine) :
      SameEnd (.error .outOfFuel final) (.error .outOfFuel final)

namespace SameEnd

variable {α : Type} {first second third : EStateM.Result Halt Machine α}

theorem refl (result : EStateM.Result Halt Machine α) : SameEnd result result := by
  cases result with
  | ok value final => exact .ok value final
  | error halt final =>
      cases halt with
      | fault error => exact .fault error.fault final rfl rfl
      | outOfFuel => exact .outOfFuel final

theorem symm (same : SameEnd first second) : SameEnd second first := by
  cases same with
  | ok value final => exact .ok value final
  | fault fault final kind lexeme => exact .fault fault final kind.symm lexeme.symm
  | outOfFuel final => exact .outOfFuel final

theorem trans (same : SameEnd first second) (further : SameEnd second third) :
    SameEnd first third := by
  cases same with
  | ok | outOfFuel => exact further
  | fault fault final kind lexeme =>
      cases further with
      | fault _ _ furtherKind furtherLexeme =>
          exact .fault fault final (kind.trans furtherKind) (lexeme.trans furtherLexeme)

end SameEnd

/-- Two computations end in one way on every machine with a given table of local names. -/
def EndAlike {α : Type} (table : Scope.Locals) (left right : Eval α) : Prop :=
  ∀ machine, machine.locals = table → SameEnd (left machine) (right machine)

namespace EndAlike

variable {α β : Type} {table : Scope.Locals}

theorem refl (computation : Eval α) : EndAlike table computation computation :=
  fun machine _ => SameEnd.refl (computation machine)

theorem fail (token : Token) (fault : RuntimeFault) :
    EndAlike table (Evaluation.fail token fault : Eval α)
      (Evaluation.fail token.unplaced fault) :=
  fun machine _ => .fault fault machine rfl rfl

theorem require (token : Token) (fault : RuntimeFault) (value : Option α) :
    EndAlike table (Evaluation.require token fault value)
      (Evaluation.require token.unplaced fault value) := by
  cases value with
  | none => exact fail token fault
  | some value => exact refl _

/-- The first part leaves the table as it is, so the rest is compared under the same table. -/
theorem bind {left right : Eval α} {next other : α → Eval β} (restores : Restores left)
    (alike : EndAlike table left right)
    (further : ∀ value, EndAlike table (next value) (other value)) :
    EndAlike table (left >>= next) (right >>= other) := by
  intro machine located
  have kept := (restores machine).locals.trans located
  have same := alike machine located
  show SameEnd (EStateM.bind left next machine) (EStateM.bind right other machine)
  unfold EStateM.bind
  generalize left machine = first, right machine = second at kept same ⊢
  cases same with
  | ok value middle => exact further value middle kept
  | fault fault final kind lexeme => exact .fault fault final kind lexeme
  | outOfFuel final => exact .outOfFuel final

theorem ite {condition : Prop} [Decidable condition] {left right other another : Eval α}
    (whenTrue : EndAlike table left right) (whenFalse : EndAlike table other another) :
    EndAlike table (if condition then left else other) (if condition then right else another) := by
  split
  · exact whenTrue
  · exact whenFalse

end EndAlike

/-! ### Steps -/

section Steps

variable {table : Scope.Locals}

theorem applyUnary_endAlike (operator : Token) (operand : Value) :
    EndAlike table (applyUnary operator operand) (applyUnary operator.unplaced operand) := by
  unfold applyUnary
  simp only [Token.unplaced]
  split
  case h_1 | h_3 => exact EndAlike.refl _
  case h_2 | h_4 => exact EndAlike.fail operator _

theorem applyBinary_endAlike (operator : Token) (left right : Value) :
    EndAlike table (applyBinary operator left right)
      (applyBinary operator.unplaced left right) := by
  unfold applyBinary
  simp only [Token.unplaced]
  split
  case h_1 =>
      split
      case h_1 | h_2 => exact EndAlike.refl _
      case h_3 => exact EndAlike.fail operator _
  case h_2 | h_3 => exact EndAlike.refl _
  case h_4 =>
      split
      case h_1 => exact EndAlike.require operator _ _
      case h_2 => exact EndAlike.fail operator _

variable {id other : Nat}

/-- Names without a record are looked up among the globals, whatever the number of the node. -/
theorem lookUp_endAlike (absent : table[id]? = none) (otherAbsent : table[other]? = none)
    (name : Token) : EndAlike table (lookUp id name) (lookUp other name.unplaced) := by
  rintro machine rfl
  rw [lookUp_of_global absent, lookUp_of_global otherAbsent]
  exact EndAlike.require name _ _ machine rfl

theorem assign_endAlike (absent : table[id]? = none) (otherAbsent : table[other]? = none)
    (name : Token) (value : Value) :
    EndAlike table (assign id name value) (assign other name.unplaced value) := by
  have owner : EndAlike table (ownerOf id name) (ownerOf other name.unplaced) := by
    rintro machine rfl
    rw [ownerOf_of_global absent, ownerOf_of_global otherAbsent]
    exact EndAlike.require name _ _ machine rfl
  exact owner.bind (ownerOf_restores id name) fun _ => EndAlike.refl _

theorem property_endAlike (target : Nat) (name : Token) :
    EndAlike table (property target name) (property target name.unplaced) := by
  refine (EndAlike.refl _).bind Restores.get fun machine => ?_
  simp only [Token.unplaced]
  split
  case h_1 => exact EndAlike.refl _
  case h_2 =>
      exact (EndAlike.require name _ _).bind (Restores.require _ _ _) fun _ => EndAlike.refl _

theorem checkArity_endAlike (paren : Token) (expected found : Nat) :
    EndAlike table (checkArity paren expected found)
      (checkArity paren.unplaced expected found) :=
  EndAlike.ite (EndAlike.refl _) (EndAlike.fail paren _)

end Steps

/-! ### Calls -/

/-- Calls put back where they stood, and the parenthesis is only blamed. -/
structure CallsAlike (invoke : Invoke) : Prop where
  restores : CallsRestore invoke
  alike : ∀ table function paren arguments,
    EndAlike table (invoke function paren arguments) (invoke function paren.unplaced arguments)

/-- Whether there is fuel or not, and whether the call is too deep or not. -/
theorem invoke_endAlike (fuel : Nat) : CallsAlike (invoke fuel) where
  restores := invoke_restores fuel
  alike table function paren arguments := by
    cases fuel with
    | zero => exact EndAlike.refl _
    | succ fuel =>
        refine (EndAlike.refl _).bind Restores.get fun machine => ?_
        refine EndAlike.ite ?_ (EndAlike.refl _)
        exact (EndAlike.fail paren _).bind (Restores.fail paren _) fun _ => EndAlike.refl _

section Expressions

variable {table : Scope.Locals} {invoke : Invoke} {number : Nat}

theorem callValue_endAlike (calls : CallsAlike invoke) (callee : Value) (paren : Token)
    (arguments : List Value) :
    EndAlike table (callValue invoke callee paren arguments)
      (callValue invoke callee paren.unplaced arguments) := by
  have checked (expected : Nat) {next another : Unit → Eval Value}
      (further : ∀ value, EndAlike table (next value) (another value)) :
      EndAlike table (checkArity paren expected arguments.length >>= next)
        (checkArity paren.unplaced expected arguments.length >>= another) :=
    (checkArity_endAlike paren _ _).bind (checkArity_restores paren _ _) further
  unfold callValue
  split
  case h_1 => exact checked _ fun _ => EndAlike.refl _
  case h_2 function => exact checked _ fun _ => calls.alike table function paren arguments
  case h_3 owner =>
      refine checked _ fun _ => (EndAlike.refl _).bind (makeInstance_restores owner) fun id => ?_
      cases owner.initializer? with
      | none => exact EndAlike.refl _
      | some method =>
          refine (EndAlike.refl _).bind (bindMethod_restores method id) fun bound => ?_
          exact (calls.alike table bound paren arguments).bind
            (calls.restores bound paren arguments) fun _ => EndAlike.refl _
  case h_4 => exact EndAlike.fail paren _

/-! ### Expressions -/

/-- The number of a node has no record. -/
abbrev Unrecorded (table : Scope.Locals) (numbers : List Nat) : Prop :=
  ∀ id ∈ numbers, table[id]? = none

mutual

/-- An expression of which no node has a record ends as it does without parentheses and places,
and with another number without a record for all nodes. By induction on the expression. -/
theorem evaluate_endAlike (calls : CallsAlike invoke) (absent : table[number]? = none) :
    (expression : Expression) → Unrecorded table expression.numbers →
    EndAlike table (evaluate invoke expression)
      (evaluate invoke (expression.ungrouped.relabel (.uniform number)))
  | .literal _ _, _ => EndAlike.refl _
  | .grouping _ inner, free => by
      simp only [Expression.numbers, List.forall_mem_append] at free
      exact evaluate_endAlike calls absent inner free.1
  | .unary _ operator operand, free => by
      simp only [Expression.numbers, List.forall_mem_append] at free
      exact (evaluate_endAlike calls absent operand free.1).bind
        (evaluate_restores calls.restores operand) fun value => applyUnary_endAlike operator value
  | .binary _ left operator right, free => by
      simp only [Expression.numbers, List.forall_mem_append] at free
      exact (evaluate_endAlike calls absent left free.1.1).bind
        (evaluate_restores calls.restores left) fun first =>
          (evaluate_endAlike calls absent right free.1.2).bind
            (evaluate_restores calls.restores right) fun second =>
              applyBinary_endAlike operator first second
  | .logical _ left _ right, free => by
      simp only [Expression.numbers, List.forall_mem_append] at free
      exact (evaluate_endAlike calls absent left free.1.1).bind
        (evaluate_restores calls.restores left) fun _ =>
          EndAlike.ite (EndAlike.refl _) (evaluate_endAlike calls absent right free.1.2)
  | .variable id name, free | .this id name, free =>
      lookUp_endAlike (free id (List.mem_singleton_self id)) absent name
  | .assign id name value, free => by
      simp only [Expression.numbers, List.forall_mem_append] at free
      exact (evaluate_endAlike calls absent value free.1).bind
        (evaluate_restores calls.restores value) fun value =>
          (assign_endAlike (free.2 id (List.mem_singleton_self id)) absent name value).bind
            (assign_restores id name value) fun _ => EndAlike.refl _
  | .call _ callee paren arguments, free => by
      simp only [Expression.numbers, List.forall_mem_append] at free
      exact (evaluate_endAlike calls absent callee free.1.1).bind
        (evaluate_restores calls.restores callee) fun callee =>
          (evaluateAll_endAlike calls absent arguments free.1.2).bind
            (evaluateAll_restores calls.restores arguments) fun values =>
              callValue_endAlike calls callee paren values
  | .get _ object name, free => by
      simp only [Expression.numbers, List.forall_mem_append] at free
      refine (evaluate_endAlike calls absent object free.1).bind
        (evaluate_restores calls.restores object) fun target => ?_
      cases target with
      | «instance» id => exact property_endAlike id name
      | _ => exact EndAlike.fail name _
  | .set _ object name value, free => by
      simp only [Expression.numbers, List.forall_mem_append] at free
      refine (evaluate_endAlike calls absent object free.1.1).bind
        (evaluate_restores calls.restores object) fun target => ?_
      cases target with
      | «instance» id =>
          exact (evaluate_endAlike calls absent value free.1.2).bind
            (evaluate_restores calls.restores value) fun _ => EndAlike.refl _
      | _ => exact EndAlike.fail name _

theorem evaluateAll_endAlike (calls : CallsAlike invoke) (absent : table[number]? = none) :
    (expressions : List Expression) → Unrecorded table (Expression.numbersOfAll expressions) →
    EndAlike table (evaluateAll invoke expressions)
      (evaluateAll invoke
        (Expression.relabelAll (.uniform number) (Expression.ungroupedAll expressions)))
  | [], _ => EndAlike.refl _
  | expression :: rest, free => by
      simp only [Expression.numbersOfAll, List.forall_mem_append] at free
      exact (evaluate_endAlike calls absent expression free.1).bind
        (evaluate_restores calls.restores expression) fun _ =>
          (evaluateAll_endAlike calls absent rest free.2).bind
            (evaluateAll_restores calls.restores rest) fun _ => EndAlike.refl _

end

end Expressions

/-- The number of the first expression serves for the nodes of both. -/
theorem sameEnd_of_same (fuel : Nat) {left right : Expression}
    (same : left.ungrouped.Same right.ungrouped) {machine : Machine}
    (leftFree : Unrecorded machine.locals left.numbers)
    (rightFree : Unrecorded machine.locals right.numbers) :
    SameEnd (evaluateWith fuel left machine) (evaluateWith fuel right machine) := by
  have absent := leftFree left.id left.id_mem_numbers
  have first := evaluate_endAlike (invoke_endAlike fuel) absent left leftFree machine rfl
  have second := evaluate_endAlike (invoke_endAlike fuel) absent right rightFree machine rfl
  rw [same.uniform] at first
  exact first.trans second.symm

/-! ### Written forms -/

open Expression Source Grammar in
/-- If all numbers in an expression from a source are finite, its source form reads as the
expression itself, up to parentheses and places. -/
theorem sourceForm_same {source : String} {first next : Nat} {expression : Expression}
    (parsed : parseExpression (tokens (scan source)) first = ⟨.ok expression, next⟩)
    (finite : ∀ value, .number value ∈ expression.literals →
      Number.magnitudeBits value < Number.infinityBits) (second : Nat) :
    ∃ again last, parseExpression (tokens (scan expression.sourceForm)) second = ⟨.ok again, last⟩ ∧
      expression.ungrouped.Same again.ungrouped := by
  obtain ⟨genuine, written⟩ := scanned_of_parsed parsed
  obtain ⟨again, last, reparsed, same⟩ := (sourceForm_parses genuine written).2 second
  exact ⟨again, last, reparsed, (same.ungrouped_iff.mpr ((finite_iff written).mpr finite)).symm⟩

open Source Grammar in
/-- Expressions that differ in parentheses, node numbers and lines only end in one way from every
machine on which none of their nodes has a record: with one value or at one fault, or not at all
with the same fuel, and on one machine, output included. An expression from a source and what its
source form reads as are such expressions, if all numbers in it are finite. -/
theorem parentheses_change_nothing (fuel : Nat) :
    (∀ left right : Expression, left.ungrouped.Same right.ungrouped → ∀ machine,
      Unrecorded machine.locals left.numbers → Unrecorded machine.locals right.numbers →
      SameEnd (evaluateWith fuel left machine) (evaluateWith fuel right machine)) ∧
    ∀ source first next expression,
      parseExpression (tokens (scan source)) first = ⟨.ok expression, next⟩ →
      (∀ value, .number value ∈ expression.literals →
        Number.magnitudeBits value < Number.infinityBits) →
      ∀ second, ∃ again last,
        parseExpression (tokens (scan expression.sourceForm)) second = ⟨.ok again, last⟩ ∧
        ∀ machine, Unrecorded machine.locals expression.numbers →
          Unrecorded machine.locals again.numbers →
          SameEnd (evaluateWith fuel expression machine) (evaluateWith fuel again machine) := by
  refine ⟨fun _ _ same _ => sameEnd_of_same fuel same, ?_⟩
  intro source first next expression parsed finite second
  obtain ⟨again, last, reparsed, same⟩ := sourceForm_same parsed finite second
  exact ⟨again, last, reparsed, fun _ => sameEnd_of_same fuel same⟩

open Source Grammar in
/-- A negated name that is not defined, with parentheses on one line and without on another, is
blamed on either line. A negated name reads back. -/
theorem negated_name_ends_alike :
    let machine := Machine.start (.open #[]) fun _ => 0
    let name (line : Nat) : Token := ⟨.identifier, "a", line⟩
    let bang (line : Nat) : Token := ⟨.symbol .bang, "!", line⟩
    let left : Expression := .grouping 3 (.unary 2 (bang 1) (.grouping 1 (.variable 0 (name 1))))
    let right : Expression := .unary 5 (bang 2) (.variable 4 (name 2))
    (left.ungrouped.Same right.ungrouped ∧
      SameEnd (evaluateWith 1 left machine) (evaluateWith 1 right machine) ∧
      evaluateWith 1 left machine =
        .error (.fault ⟨name 1, .undefinedVariable "a"⟩) machine) ∧
    ∃ expression next,
      parseExpression (tokens (scan "!(a)")) 0 = ⟨.ok expression, next⟩ ∧
      ∃ again last,
        parseExpression (tokens (scan expression.sourceForm)) 7 = ⟨.ok again, last⟩ ∧
        SameEnd (evaluateWith 1 expression machine) (evaluateWith 1 again machine) := by
  intro machine name bang left right
  have free : ∀ numbers, Unrecorded machine.locals numbers :=
    fun _ _ _ => Std.ExtTreeMap.getElem?_empty
  have same : left.ungrouped.Same right.ungrouped := rfl
  have general := parentheses_change_nothing 1
  have blamed : evaluateWith 1 left machine =
      .error (.fault ⟨name 1, .undefinedVariable "a"⟩) machine := by
    have missing : lookUp 0 (name 1) machine =
        .error (.fault ⟨name 1, .undefinedVariable "a"⟩) machine := by
      have absent : machine.frames.lookup? machine.globals "a" = none :=
        Frames.lookup?_define_of_ne _ _ (by decide)
      rw [lookUp_of_global (free [0] 0 List.mem_cons_self), Frames.get?_of_root _ rfl, absent]
      rfl
    exact bind_of_error _ missing
  refine ⟨⟨same, general.1 left right same machine (free _) (free _), blamed⟩, ?_⟩
  have parsed : parseExpression (tokens (scan "!(a)")) 0 =
      ⟨.ok (.unary 2 (bang 1) (.grouping 1 (.variable 0 (name 1)))), 3⟩ := by
    cbv
  have noNumbers : ∀ value, .number value ∈
      (Expression.unary 2 (bang 1) (.grouping 1 (.variable 0 (name 1)))).literals →
      Number.magnitudeBits value < Number.infinityBits :=
    fun _ member => absurd member List.not_mem_nil
  obtain ⟨again, last, reparsed, alike⟩ := general.2 _ _ _ _ parsed noNumbers 7
  exact ⟨_, _, parsed, again, last, reparsed, alike machine (free _) (free _)⟩

end Lox.Evaluation
