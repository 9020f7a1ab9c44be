import Lox.Number.Decimal
import Lox.Token

/-!
Contract: a source text cut into pieces.

A piece is a token, something to skip, or a lexical fault, together with the
text it covers. `Piece.first` cuts one piece off the front of a text that is not
empty, and `pieces` cuts the whole text.

Owns:
- the lexical rules: blanks, comments, strings, numbers, names, symbols;
- the facts that a piece and what follows it make up the text, and that no piece
  is empty, so that cutting ends.

Does not own: line numbers.
-/

namespace Lox.Source

/-- What a piece of source text is. -/
inductive PieceKind where
  | token (kind : TokenKind)
  /-- Blanks and comments, which only separate. -/
  | skipped
  /-- A character that starts nothing. -/
  | unexpected (c : Char)
  /-- A string that the source does not close. -/
  | unterminated

/-- A piece of source text. -/
structure Piece where
  kind : PieceKind
  text : List Char

/-- Blanks: spaces, tabs, carriage returns and newlines. -/
def isBlank (c : Char) : Bool :=
  c == ' ' || c == '\r' || c == '\t' || c == '\n'

/-- Characters that names start with: ASCII letters and the underscore. -/
def isNameStart (c : Char) : Bool :=
  c.isAlpha || c == '_'

/-- Characters that names go on with: also ASCII digits. -/
def isNamePart (c : Char) : Bool :=
  c.isAlphanum || c == '_'

namespace Piece

/-- The kind of a name, which is reserved words or an identifier. -/
def nameKind (text : List Char) : TokenKind :=
  match Keyword.ofSpelling? (String.ofList text) with
  | some keyword => .keyword keyword
  | none => .identifier

/-- The piece that an opening quote starts: all up to the next quote, over lines
if need be. -/
def string (rest : List Char) : Piece × List Char :=
  let contents := rest.takeWhile (· != '"')
  match rest.dropWhile (· != '"') with
  | [] => (⟨.unterminated, '"' :: contents⟩, [])
  | quote :: following =>
      (⟨.token (.string (String.ofList contents)), '"' :: contents ++ [quote]⟩, following)

/-- The number piece with the given digits before and after the point. -/
def ofDigits (whole fraction : List Char) : Piece where
  kind := .token (.number (Number.Decimal.ofDigitChars whole fraction).toNumber)
  text := if fraction.isEmpty then whole else whole ++ '.' :: fraction

/-- The piece that a digit starts: digits, then a point and digits if both follow. -/
def number (first : Char) (rest : List Char) : Piece × List Char :=
  let whole := first :: rest.takeWhile Char.isDigit
  match rest.dropWhile Char.isDigit with
  | '.' :: digit :: following =>
      if digit.isDigit then
        (ofDigits whole (digit :: following.takeWhile Char.isDigit),
          following.dropWhile Char.isDigit)
      else
        (ofDigits whole [], '.' :: digit :: following)
  | following => (ofDigits whole [], following)

/-- The piece that a symbol starts, which takes in an equals sign if it can. -/
def symbol (symbol : Symbol) (first : Char) (rest : List Char) : Piece × List Char :=
  match symbol.withEqual?, rest with
  | some longer, '=' :: following => (⟨.token (.symbol longer), [first, '=']⟩, following)
  | _, _ => (⟨.token (.symbol symbol), [first]⟩, rest)

/-- Cut the first piece off a text that starts with a given character. -/
def first (c : Char) (rest : List Char) : Piece × List Char :=
  if isBlank c then
    (⟨.skipped, [c]⟩, rest)
  else if c == '"' then
    string rest
  else if c.isDigit then
    number c rest
  else if isNameStart c then
    let text := c :: rest.takeWhile isNamePart
    (⟨.token (nameKind text), text⟩, rest.dropWhile isNamePart)
  else if c == '/' && rest.head? == some '/' then
    (⟨.skipped, c :: rest.takeWhile (· != '\n')⟩, rest.dropWhile (· != '\n'))
  else
    match Symbol.ofChar? c with
    | some found => symbol found c rest
    | none => (⟨.unexpected c, [c]⟩, rest)

/-- A string piece and what follows it make up the text from the opening quote. -/
theorem string_append (rest : List Char) :
    (string rest).1.text ++ (string rest).2 = '"' :: rest := by
  have split := List.takeWhile_append_dropWhile (p := (· != '"')) (l := rest)
  unfold string
  split
  · rename_i noQuote
    rw [noQuote] at split
    simpa using split
  · rename_i found
    rw [found] at split
    simpa using split

/-- A number piece and what follows it make up the text from its first digit. -/
theorem number_append (c : Char) (rest : List Char) :
    (number c rest).1.text ++ (number c rest).2 = c :: rest := by
  have split := List.takeWhile_append_dropWhile (p := Char.isDigit) (l := rest)
  unfold number
  split
  · rename_i digit following found
    rw [found] at split
    split <;> simp [ofDigits, split]
  · simp [ofDigits, split]

/-- A symbol piece and what follows it make up the text from the symbol on. -/
theorem symbol_append (found : Symbol) (c : Char) (rest : List Char) :
    (symbol found c rest).1.text ++ (symbol found c rest).2 = c :: rest := by
  unfold symbol
  split <;> simp

/-- The first piece and what follows it make up the text. -/
theorem first_append (c : Char) (rest : List Char) :
    (first c rest).1.text ++ (first c rest).2 = c :: rest := by
  unfold first
  split
  · simp
  · split
    · rename_i quote
      rw [eq_of_beq quote]
      exact string_append rest
    · split
      · exact number_append c rest
      · split
        · simp
        · split
          · simp
          · split
            · exact symbol_append _ c rest
            · simp

/-- The first piece covers at least one character. -/
theorem first_text_ne_nil (c : Char) (rest : List Char) : (first c rest).1.text ≠ [] := by
  unfold first string number symbol
  repeat' split
  all_goals simp [ofDigits]

/-- What follows the first piece is shorter than the text. -/
theorem first_rest_length_lt (c : Char) (rest : List Char) :
    (first c rest).2.length < (c :: rest).length := by
  have lengths := congrArg List.length (first_append c rest)
  have nonempty := List.length_pos_iff.mpr (first_text_ne_nil c rest)
  rw [List.length_append] at lengths
  omega

end Piece

/-- The pieces of a source text, in order. -/
def pieces : List Char → List Piece
  | [] => []
  | c :: rest => (Piece.first c rest).1 :: pieces (Piece.first c rest).2
termination_by text => text.length
decreasing_by exact Piece.first_rest_length_lt c rest

/-- The pieces of a source make it up: nothing is lost and nothing overlaps. -/
theorem flatMap_text_pieces (text : List Char) : (pieces text).flatMap Piece.text = text := by
  fun_induction pieces text with
  | case1 => rfl
  | case2 c rest inductionHypothesis =>
      simp [inductionHypothesis, Piece.first_append]

end Lox.Source
