import Mathlib
import Lox.Session

/-!
Contract: the errors for which a unit is refused before it is resolved.

Owns:
- that the scanner finds its errors line by line, over strings and comments of many lines;
- that a parser that gives no tree says why;
- `MergedByLine`, two lists of errors merged by line, and that sorting is such a merge;
- that reading a unit reports what the scanner and the parser find, and nothing else.

Does not own: which errors the scanner and the parser find.
-/

namespace Lox

/-! ### The lines of lexical errors -/

namespace Source

/-- The error of a piece that starts on a line. A string that is never closed is blamed on the
line on which the source ends. -/
def Piece.error? (line : Nat) (piece : Piece) : Option LexicalError :=
  match piece.kind with
  | .unexpected c => some ⟨.unexpected c, line⟩
  | .unterminated => some ⟨.unterminatedString, line + piece.text.count '\n'⟩
  | .token _ | .skipped => none

/-- The error of a piece lies between its first line and its last. -/
theorem Piece.line_of_error? {line : Nat} {piece : Piece} {error : LexicalError}
    (found : piece.error? line = some error) :
    line ≤ error.line ∧ error.line ≤ line + piece.text.count '\n' := by
  unfold error? at found
  split at found <;> cases found <;> simp

theorem lexicalErrors_cons (line : Nat) (piece : Piece) (rest : List Piece) :
    lexicalErrors (itemsFrom line (piece :: rest)) =
      (piece.error? line).toList ++
        lexicalErrors (itemsFrom (line + piece.text.count '\n') rest) := by
  rw [itemsFrom, Piece.error?]
  cases piece.kind <;> rfl

/-- What starts on a line has no errors before that line. -/
theorem line_le_of_mem {line : Nat} {found : List Piece} {error : LexicalError}
    (member : error ∈ lexicalErrors (itemsFrom line found)) : line ≤ error.line := by
  induction found generalizing line with
  | nil => cases member
  | cons piece rest inductionHypothesis =>
      rw [lexicalErrors_cons, List.mem_append, Option.mem_toList] at member
      rcases member with here | behind
      · exact (Piece.line_of_error? here).1
      · have later := inductionHypothesis behind
        omega

/-- The errors of a source are met in the order of their lines. By induction on the pieces: what
is behind a piece starts on the line on which the piece ends. -/
theorem lexicalErrors_ordered (line : Nat) (found : List Piece) :
    (lexicalErrors (itemsFrom line found)).Pairwise fun earlier later =>
      earlier.line ≤ later.line := by
  induction found generalizing line with
  | nil => exact .nil
  | cons piece rest inductionHypothesis =>
      rw [lexicalErrors_cons, List.pairwise_append]
      refine ⟨?_, inductionHypothesis _, ?_⟩
      · cases piece.error? line <;> simp
      · intro earlier here later behind
        have ends := (Piece.line_of_error? (Option.mem_toList.mp here)).2
        exact Nat.le_trans ends (line_le_of_mem behind)

end Source

/-! ### The reasons of a parser -/

/-- A parser that gives no tree reports an error. -/
theorem Grammar.Parser.run_error_ne_nil {α : Type} {parser : Parser α} {tokens : List Token}
    {firstId : Nat} {errors : List SyntaxError}
    (fails : (parser.run tokens firstId).result = .error errors) : errors ≠ [] := by
  unfold run at fails
  split at fails
  case h_1 value cursor _ =>
      by_cases quiet : cursor.errors.isEmpty
      · simp [quiet] at fails
      · rw [if_neg quiet] at fails
        cases fails
        simpa using quiet
  case h_2 error cursor _ =>
      cases fails
      simp

/-! ### Merging by line -/

/-- Errors merged by line: no line comes before an earlier one, every error of the two lists is
there as often as in them, and on each line the errors of the first list come before those of the
second, each list in its own order. -/
structure MergedByLine (first second errors : List StaticError) : Prop where
  sorted : errors.Pairwise fun earlier later => earlier.line ≤ later.line
  complete : errors.Perm (first ++ second)
  stable : ∀ line, errors.filter (·.line = line) =
    first.filter (·.line = line) ++ second.filter (·.line = line)

namespace StaticError

theorem sortByLine_perm (errors : List StaticError) : (sortByLine errors).Perm errors :=
  List.mergeSort_perm errors _

theorem line_trans (first second third : StaticError)
    (before : decide (first.line ≤ second.line)) (after : decide (second.line ≤ third.line)) :
    decide (first.line ≤ third.line) :=
  decide_eq_true (Nat.le_trans (of_decide_eq_true before) (of_decide_eq_true after))

theorem line_total (first second : StaticError) :
    decide (first.line ≤ second.line) || decide (second.line ≤ first.line) := by
  rcases Nat.le_total first.line second.line with before | after
  · simp [before]
  · simp [after]

theorem sortByLine_sorted (errors : List StaticError) :
    (sortByLine errors).Pairwise fun earlier later => earlier.line ≤ later.line :=
  (List.pairwise_mergeSort line_trans line_total errors).imp of_decide_eq_true

/-- Sorting keeps the errors of one line in their order. They are sorted already, so they are
still a part of the sorted list, and no other errors of that line can have come in. -/
theorem filter_sortByLine (errors : List StaticError) (line : Nat) :
    (sortByLine errors).filter (·.line = line) = errors.filter (·.line = line) := by
  have level : (errors.filter (·.line = line)).Pairwise fun left right =>
      decide (left.line ≤ right.line) := by
    apply List.pairwise_of_forall_mem_list
    intro left here right there
    have same := of_decide_eq_true (List.mem_filter.mp here).2
    have also := of_decide_eq_true (List.mem_filter.mp there).2
    exact decide_eq_true (by omega)
  have kept : (errors.filter (·.line = line)).Sublist (sortByLine errors) :=
    List.sublist_mergeSort line_trans line_total level List.filter_sublist
  have inside := kept.filter (·.line = line)
  rw [List.filter_filter] at inside
  simp only [Bool.and_self] at inside
  exact (inside.eq_of_length ((sortByLine_perm errors).filter _).length_eq.symm).symm

end StaticError

/-- Sorting two lists of errors together merges them by line. -/
theorem mergedByLine_sortByLine (first second : List StaticError) :
    MergedByLine first second (StaticError.sortByLine (first ++ second)) where
  sorted := StaticError.sortByLine_sorted _
  complete := StaticError.sortByLine_perm _
  stable := by
    intro line
    rw [StaticError.filter_sortByLine, List.filter_append]

/-- A sorted list is merged with nothing. -/
theorem mergedByLine_nil {errors : List StaticError}
    (sorted : errors.Pairwise fun earlier later => earlier.line ≤ later.line) :
    MergedByLine errors [] errors where
  sorted := sorted
  complete := by rw [List.append_nil]
  stable := by simp

/-! ### The errors of a unit -/

/-- What the scanner finds wrong with a unit. -/
def lexicalErrorsOf (source : String) : List StaticError :=
  (Source.lexicalErrors (Source.scan source)).map .lexical

/-- What the parser finds wrong with the tokens of a unit. -/
def grammarErrorsOf (source : String) (firstId : Nat) : List StaticError :=
  match (Grammar.parseProgram (Source.tokens (Source.scan source)) firstId).result with
  | .ok _ => []
  | .error errors => errors.map .grammar

theorem lexicalErrorsOf_sorted (source : String) :
    (lexicalErrorsOf source).Pairwise fun earlier later => earlier.line ≤ later.line :=
  List.pairwise_map.mpr (Source.lexicalErrors_ordered 1 _)

/-- A unit can be read if neither the scanner nor the parser finds an error. -/
theorem readUnit_ok_iff (source : String) (firstId : Nat) :
    (∃ program, (readUnit source firstId).1 = .ok program) ↔
      lexicalErrorsOf source = [] ∧ grammarErrorsOf source firstId = [] := by
  unfold readUnit grammarErrorsOf lexicalErrorsOf
  dsimp only
  cases parsed : (Grammar.parseProgram (Source.tokens (Source.scan source)) firstId).result with
  | ok program => cases (Source.lexicalErrors (Source.scan source)).map StaticError.lexical <;> simp
  | error errors =>
      have reason : errors ≠ [] := Grammar.Parser.run_error_ne_nil parsed
      simp [reason]

/-- The errors for which reading refuses a unit are those of the scanner and those of the parser,
merged by line. If the parser finds none, those of the scanner are not sorted: they are in the
order of their lines as they are. -/
theorem mergedByLine_of_readUnit {source : String} {firstId : Nat} {errors : List StaticError}
    (fails : (readUnit source firstId).1 = .error errors) :
    MergedByLine (lexicalErrorsOf source) (grammarErrorsOf source firstId) errors := by
  have ordered := lexicalErrorsOf_sorted source
  unfold readUnit at fails
  unfold grammarErrorsOf
  unfold lexicalErrorsOf at ordered ⊢
  dsimp only at fails
  cases parsed : (Grammar.parseProgram (Source.tokens (Source.scan source)) firstId).result with
  | ok program =>
      rw [parsed] at fails
      cases lexical : (Source.lexicalErrors (Source.scan source)).map StaticError.lexical with
      | nil =>
          rw [lexical] at fails
          cases fails
      | cons first rest =>
          rw [lexical] at fails ordered
          cases fails
          exact mergedByLine_nil ordered
  | error found =>
      rw [parsed] at fails
      cases fails
      exact mergedByLine_sortByLine _ _

/-- Reading a unit in any session reports every error of the scanner and of the parser once, by
line, and on one line those of the scanner first; and a unit is read exactly if there are
none. -/
theorem parse_reports_by_line (session : Session) (source : String) :
    (∀ errors, (session.parse source).1 = .error errors →
      MergedByLine (lexicalErrorsOf source) (grammarErrorsOf source session.nextId) errors) ∧
    ((∃ program, (session.parse source).1 = .ok program) ↔
      lexicalErrorsOf source = [] ∧ grammarErrorsOf source session.nextId = []) :=
  ⟨fun _ fails => mergedByLine_of_readUnit fails, readUnit_ok_iff source session.nextId⟩

/-- Two characters that start nothing, and between them a parenthesis that closes nothing. -/
theorem stray_characters_by_line :
    ∃ errors, ((Session.start .broken fun _ => 0).parse "@ )\n$").1 = .error errors ∧
      errors.map StaticError.message = ["Unexpected character: @", "Expect expression.",
        "Unexpected character: $"] ∧
      MergedByLine (lexicalErrorsOf "@ )\n$") (grammarErrorsOf "@ )\n$" 0) errors := by
  have refused : ((Session.start .broken fun _ => 0).parse "@ )\n$").1 = .error
      [.lexical ⟨.unexpected '@', 1⟩,
        .grammar ⟨⟨.symbol .rightParen, ")", 1⟩, .missingExpression⟩,
        .lexical ⟨.unexpected '$', 2⟩] := by
    cbv
  exact ⟨_, refused, rfl, (parse_reports_by_line _ _).1 _ refused⟩

end Lox
