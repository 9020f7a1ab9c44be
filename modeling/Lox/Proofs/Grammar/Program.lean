import Lox.Proofs.Grammar.Completeness
import Lox.Proofs.Grammar.Derivations
import Lox.Proofs.Grammar.Soundness

/-!
Contract: the parser of programs is the grammar of programs.

Owns: when `parseProgram` gives a tree, and which one; the same of `parseExpression`.

Does not own: the errors of other tokens.
-/

namespace Lox.Grammar

open Lox.Grammar.Parser

/-- The word of a program: the tokens before the first end token. -/
def programWord (tokens : List Token) : List Token :=
  tokens.takeWhile (!·.isEof)

theorem start_eq (tokens : List Token) (firstId : Nat) :
    Cursor.start tokens firstId =
      (Cursor.start tokens firstId).moved (programWord tokens ++ []) firstId := by
  rw [List.append_nil]
  rfl

theorem programWord_bounded (tokens : List Token) (firstId : Nat) :
    (programWord tokens).length < (Cursor.start tokens firstId).bound :=
  Nat.lt_succ_of_le (List.takeWhile_prefix _).length_le

/-- A parser that reads to the end gives the result that the whole word reads as. -/
theorem run_eq_ok_iff {α : Type} {parser : Parser α}
    {reading : List Token → Nat → α → Nat → Prop}
    (yields : parser.Yields fun word first value next rest =>
      rest = [] ∧ reading word first value next)
    (accepts : ∀ limit, parser.Accepts limit fun word first value next rest =>
      rest = [] ∧ reading word first value next)
    (tokens : List Token) (firstId : Nat) (value : α) (next : Nat) :
    parser.run tokens firstId = ⟨.ok value, next⟩ ↔
      reading (programWord tokens) firstId value next := by
  unfold Parser.run
  constructor
  · intro parsed
    split at parsed
    case h_2 => cases parsed
    case h_1 found final accepted =>
        have quiet : final.errors = [] := by
          by_cases none : final.errors = []
          · exact none
          · rw [if_neg (by simpa using none)] at parsed
            cases parsed
        obtain ⟨word, rest, _, split, rfl, reading⟩ := yields accepted quiet
        obtain ⟨rfl, read⟩ := reading (programWord_bounded tokens firstId)
        have same : programWord tokens = word := by simpa [Cursor.start, programWord] using split
        rw [if_pos (List.isEmpty_iff.mpr quiet)] at parsed
        cases parsed
        rw [same]
        exact read
  · intro read
    have accepted := accepts _ (Cursor.start tokens firstId) []
      ⟨rfl, read⟩ (Nat.le_refl _) (programWord_bounded tokens firstId)
    rw [start_eq, accepted]
    rfl

/-- A program is parsed to the tree that its word reads as, and to no other. -/
theorem parseProgram_eq_ok_iff (tokens : List Token) (firstId : Nat)
    (program : List Statement) (next : Nat) :
    parseProgram tokens firstId = ⟨.ok program, next⟩ ↔
      Reads (programWord tokens) firstId (.declarations program) next :=
  run_eq_ok_iff program_yields (fun _ => program_accepts) tokens firstId program next

/-! ### Sole expressions -/

theorem soleExpression_yields :
    soleExpression.Yields fun word first value next rest =>
      rest = [] ∧ Reads word first (.expression .assignment value) next := by
  unfold soleExpression
  refine expression_yields.bind fun value => Yields.atEnd.bind fun ended => ?_
  cases ended with
  | true =>
      refine (Yields.pure _).mono ?_
      rintro _ _ _ _ rest ⟨rfl, rfl, rfl⟩ _ _ ⟨rfl, rfl, none⟩ word _ read
      exact ⟨by simpa using none, by simpa [readsAs] using read⟩
  | false => exact Yields.failHere _ _

theorem soleExpression_accepts (limit : Nat) :
    soleExpression.Accepts limit fun word first value next rest =>
      rest = [] ∧ Reads word first (.expression .assignment value) next := by
  rintro cursor _ word first value next ⟨rfl, read⟩ within bounded
  refine then_of_ok (expression_accepts limit cursor [] ⟨read, rfl⟩ within bounded) ?_
  exact then_of_ok atEnd_moved rfl

/-- An expression is parsed to the tree that its word reads as, and to no other. -/
theorem parseExpression_eq_ok_iff (tokens : List Token) (firstId : Nat) (value : Expression)
    (next : Nat) :
    parseExpression tokens firstId = ⟨.ok value, next⟩ ↔
      Reads (programWord tokens) firstId (.expression .assignment value) next :=
  run_eq_ok_iff soleExpression_yields soleExpression_accepts tokens firstId value next

/-! ### Programs -/

/-- The parser of programs accepts the words of the grammar and nothing else, and gives the
tree that a word reads as. -/
theorem parseProgram_accepts_grammar (tokens : List Token) (firstId : Nat) :
    ((∃ program next, parseProgram tokens firstId = ⟨.ok program, next⟩) ↔
      Word .declarations (programWord tokens)) ∧
    ∀ program next, parseProgram tokens firstId = ⟨.ok program, next⟩ ↔
      Reads (programWord tokens) firstId (.declarations program) next := by
  refine ⟨⟨?_, fun derived => ?_⟩, fun program next => parseProgram_eq_ok_iff ..⟩
  · rintro ⟨program, next, parsed⟩
    exact ((parseProgram_eq_ok_iff ..).mp parsed).word
  · obtain ⟨program, next, read⟩ := derived.readable firstId
    exact ⟨program, next, (parseProgram_eq_ok_iff ..).mpr read⟩

end Lox.Grammar
