import Lox.Proofs.Source.Lexemes

/-!
Contract: texts that are laid out as tokens and blanks.

Owns:
- `Laid`, which says that pieces stand in front of a text and are cut off again;
- the tokens of such pieces, wherever they stand.

Does not own: what is laid out.
-/

namespace Lox

/-- A token without its place. -/
def Token.unplaced (token : Token) : Token :=
  { token with line := 0 }

namespace Source

/-- The piece that a token is cut from. -/
def Piece.ofToken (token : Token) : Piece :=
  ⟨.token token.kind, token.lexeme.toList⟩

/-- One blank. -/
def Piece.blank : Piece :=
  ⟨.skipped, [' ']⟩

@[simp] theorem Piece.text_ofToken (token : Token) :
    (Piece.ofToken token).text = token.lexeme.toList :=
  rfl

@[simp] theorem Piece.text_blank : Piece.blank.text = [' '] :=
  rfl

/-- The text of pieces in a row. -/
abbrev textOf (found : List Piece) : List Char :=
  found.flatMap Piece.text

/-- Blanks and tokens that stand in front of a text. No token is extended by what follows. -/
inductive Laid : List Piece → List Char → Prop where
  | nil {rest : List Char} : Laid [] rest
  | blank {found : List Piece} {rest : List Char} :
      Laid found rest → Laid (Piece.blank :: found) rest
  | token {token : Token} {found : List Piece} {rest : List Char} :
      token.Scanned → Separate token.kind (textOf found ++ rest) → Laid found rest →
      Laid (Piece.ofToken token :: found) rest

namespace Laid

variable {found others : List Piece} {rest : List Char}

/-- By induction on the pieces. -/
theorem pieces_append (laid : Laid found rest) :
    pieces (textOf found ++ rest) = found ++ pieces rest := by
  induction laid with
  | nil => rfl
  | @blank found rest _ inductionHypothesis =>
      have here : textOf (Piece.blank :: found) ++ rest = ' ' :: (textOf found ++ rest) := rfl
      rw [here, pieces, List.cons_append, ← inductionHypothesis]
      rfl
  | @token token found rest scanned apart _ inductionHypothesis =>
      have here : textOf (Piece.ofToken token :: found) ++ rest =
          token.lexeme.toList ++ (textOf found ++ rest) := by simp
      rw [here, pieces_of_lexeme scanned apart, inductionHypothesis]
      rfl

/-- A text that is laid out scans to its pieces. -/
theorem scan (laid : Laid found []) {text : String} (same : text.toList = textOf found) :
    scan text = itemsFrom 1 found := by
  have cut := laid.pieces_append
  have none : pieces [] = [] := by rw [pieces]
  rw [List.append_nil, none, List.append_nil, ← same] at cut
  unfold Source.scan
  rw [cut]

theorem append (front : Laid found (textOf others ++ rest)) (behind : Laid others rest) :
    Laid (found ++ others) rest := by
  induction found with
  | nil => exact behind
  | cons piece found inductionHypothesis =>
      cases front with
      | blank front => exact .blank (inductionHypothesis front)
      | token scanned apart front =>
          refine .token scanned ?_ (inductionHypothesis front)
          simpa using apart

theorem single {token : Token} (scanned : token.Scanned) (apart : Separate token.kind rest) :
    Laid [Piece.ofToken token] rest :=
  .token scanned apart .nil

/-- Nothing is wrong with what is laid out. -/
theorem lexicalErrors_itemsFrom (laid : Laid found rest) (line : Nat) :
    lexicalErrors (itemsFrom line found) = [] := by
  induction laid generalizing line with
  | nil => rfl
  | blank _ inductionHypothesis => exact inductionHypothesis _
  | token _ _ _ inductionHypothesis => exact inductionHypothesis _

end Laid

/-- The token that a piece is, without a place. -/
def Piece.token? (piece : Piece) : Option Token :=
  match piece.kind with
  | .token kind => some ⟨kind, String.ofList piece.text, 0⟩
  | _ => none

@[simp] theorem Piece.token?_ofToken (token : Token) :
    (Piece.ofToken token).token? = some token.unplaced := by
  simp [Piece.token?, Piece.ofToken, Token.unplaced]

@[simp] theorem Piece.token?_blank : Piece.blank.token? = none :=
  rfl

theorem tokens_itemsFrom (line : Nat) (found : List Piece) :
    (tokens (itemsFrom line found)).map Token.unplaced =
      found.filterMap Piece.token? ++ [⟨.eof, "", 0⟩] := by
  induction found generalizing line with
  | nil => rfl
  | cons piece found inductionHypothesis =>
      have later := inductionHypothesis (line + piece.text.count '\n')
      unfold itemsFrom
      dsimp only
      split
      case h_1 kind isToken =>
          have here : piece.token? = some ⟨kind, String.ofList piece.text, 0⟩ := by
            simp only [Piece.token?, isToken]
          rw [List.filterMap_cons_some here, List.cons_append, ← later]
          rfl
      all_goals
        rename_i noToken
        have here : piece.token? = none := by simp only [Piece.token?, noToken]
        rw [List.filterMap_cons_none here]
        exact later

end Source

end Lox
