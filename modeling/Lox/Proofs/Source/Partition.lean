import Lox.Proofs.Source.Lexemes
import Lox.Proofs.Source.Seam

/-!
Contract: scanning cuts a source into consecutive spans of bytes.

Owns:
- `Reading`, which says what a span of a source is read as: a token, a blank, a comment, a
  character that starts nothing, or a string that is left open;
- `Contiguous`: spans follow one another without gaps, and none is empty;
- that the items of a source are read from such spans, from its first byte to its last one,
  and that one end token comes behind them.

Does not own: which of several lexemes at one place is taken.
-/

namespace Lox.Source

/-- The line on which a text ends that starts on the first line. -/
def lineBehind (text : String) : Nat :=
  1 + text.toList.count '\n'

/-- A character with which no blank, comment or lexeme starts. -/
structure StartsNothing (c : Char) : Prop where
  blank : isBlank c = false
  quote : c ≠ '"'
  digit : c.isDigit = false
  name : isNameStart c = false
  symbol : Symbol.ofChar? c = none

/-- What a text is read as that stands in a source between two others, and the item it yields.
A token and an unexpected character are on the line on which the text in front of them ends, an
unterminated string is on the last line of the source. -/
inductive Reading (before : String) : String → String → Option Item → Prop where
  | token {kind : TokenKind} {text behind : String} :
      Lexeme kind text.toList →
      Reading before text behind (some (.ok ⟨kind, text, lineBehind before⟩))
  | blank {c : Char} {behind : String} :
      isBlank c → Reading before (String.singleton c) behind none
  /-- A comment goes up to the next newline or the end of the source. -/
  | comment {text behind : String} {rest : List Char} :
      text.toList = '/' :: '/' :: rest → '\n' ∉ text.toList →
      (∀ c ∈ behind.toList.head?, c = '\n') → Reading before text behind none
  | unexpected {c : Char} {behind : String} :
      StartsNothing c →
      Reading before (String.singleton c) behind
        (some (.error ⟨.unexpected c, lineBehind before⟩))
  | unterminated {text : String} {rest : List Char} :
      text.toList = '"' :: rest → '"' ∉ rest →
      Reading before text "" (some (.error ⟨.unterminatedString, lineBehind (before ++ text)⟩))

/-- A span of bytes of a source, with its text and the item that it yields, if it yields one. -/
structure Stretch where
  start : Nat
  stop : Nat
  text : String
  item? : Option Item

/-- A source has a text in a span of bytes, and it is read so. The span starts and stops between
two characters. -/
def Stretch.In (source : String) (stretch : Stretch) : Prop :=
  ∃ before behind, source = before ++ stretch.text ++ behind ∧
    stretch.start = before.utf8ByteSize ∧
    stretch.stop = (before ++ stretch.text).utf8ByteSize ∧
    Reading before stretch.text behind stretch.item?

/-- Spans follow one another from one byte to another. None of them is empty. -/
def Contiguous : Nat → List Stretch → Nat → Prop
  | start, [], stop => start = stop
  | start, stretch :: rest, stop =>
      stretch.start = start ∧ stretch.start < stretch.stop ∧ Contiguous stretch.stop rest stop

/-! ### The first piece -/

namespace Piece

variable {before : String} {c : Char} {rest : List Char}

/-- The item that a piece yields, given the text in front of it. -/
def item? (before : String) (piece : Piece) : Option Item :=
  match piece.kind with
  | .token kind => some (.ok ⟨kind, String.ofList piece.text, lineBehind before⟩)
  | .skipped => none
  | .unexpected c => some (.error ⟨.unexpected c, lineBehind before⟩)
  | .unterminated =>
      some (.error ⟨.unterminatedString, lineBehind (before ++ String.ofList piece.text)⟩)

theorem reading_of_token {piece : Piece} {kind : TokenKind} (isToken : piece.kind = .token kind)
    (lexeme : Lexeme kind piece.text) (behind : String) :
    Reading before (String.ofList piece.text) behind (piece.item? before) := by
  unfold item?
  rw [isToken]
  exact .token (by rwa [String.toList_ofList])

theorem string_reading (before : String) (rest : List Char) :
    Reading before (String.ofList (string rest).1.text) (String.ofList (string rest).2)
      ((string rest).1.item? before) := by
  cases found : rest.dropWhile (· != '"') with
  | nil =>
      have isOpen : string rest = (⟨.unterminated, '"' :: rest.takeWhile (· != '"')⟩, []) := by
        unfold string
        rw [found]
      rw [isOpen]
      refine .unterminated String.toList_ofList fun member => ?_
      exact absurd (mem_takeWhile member) (by decide)
  | cons quote following =>
      have isToken : (string rest).1.kind =
          .token (.string (String.ofList (rest.takeWhile (· != '"')))) := by
        unfold string
        rw [found]
      exact reading_of_token isToken (string_lexeme isToken) _

/-- A number or a symbol is a token. -/
theorem number_isToken (c : Char) (rest : List Char) :
    ∃ kind, (number c rest).1.kind = .token kind := by
  unfold number
  repeat' split
  all_goals exact ⟨_, rfl⟩

theorem symbol_isToken (found : Symbol) (c : Char) (rest : List Char) :
    ∃ kind, (symbol found c rest).1.kind = .token kind := by
  unfold symbol
  split
  all_goals exact ⟨_, rfl⟩

theorem comment_reading (follows : rest.head? = some '/') :
    Reading before (String.ofList ('/' :: rest.takeWhile (· != '\n')))
      (String.ofList (rest.dropWhile (· != '\n'))) none := by
  obtain ⟨tail, rfl⟩ := List.head?_eq_some_iff.mp follows
  have starts : (String.ofList ('/' :: ('/' :: tail).takeWhile (· != '\n'))).toList =
      '/' :: '/' :: tail.takeWhile (· != '\n') := by
    rw [String.toList_ofList]
    rfl
  refine .comment starts ?_ ?_
  · rw [String.toList_ofList]
    intro member
    rcases List.mem_cons.mp member with same | later
    · exact absurd same (by decide)
    · exact absurd (mem_takeWhile later) (by decide)
  · rw [String.toList_ofList]
    intro c starts
    obtain ⟨_, ends⟩ := List.head?_eq_some_iff.mp starts
    simpa using dropWhile_cons ends

/-- What the first piece of a text is read as. The cases are those of `first`. -/
theorem first_reading (before : String) (c : Char) (rest : List Char) :
    Reading before (String.ofList (first c rest).1.text) (String.ofList (first c rest).2)
      ((first c rest).1.item? before) := by
  by_cases isToken : ∃ kind, (first c rest).1.kind = .token kind
  · obtain ⟨kind, isToken⟩ := isToken
    exact reading_of_token isToken (first_lexeme isToken) _
  · unfold first at isToken ⊢
    by_cases blank : isBlank c
    · simp only [if_pos blank]
      exact .blank blank
    · by_cases quote : (c == '"') = true
      · simp only [if_neg blank, if_pos quote]
        exact string_reading before rest
      · by_cases digit : c.isDigit
        · simp only [if_neg blank, if_neg quote, if_pos digit] at isToken
          exact absurd (number_isToken c rest) isToken
        · by_cases name : isNameStart c
          · simp only [if_neg blank, if_neg quote, if_neg digit, if_pos name] at isToken
            exact absurd ⟨_, rfl⟩ isToken
          · simp only [if_neg blank, if_neg quote, if_neg digit, if_neg name] at isToken ⊢
            by_cases comment : (c == '/' && rest.head? == some '/') = true
            · simp only [if_pos comment]
              obtain ⟨slash, follows⟩ := Bool.and_eq_true_iff.mp comment
              rw [eq_of_beq slash]
              exact comment_reading (eq_of_beq follows)
            · simp only [if_neg comment] at isToken ⊢
              cases symbol : Symbol.ofChar? c with
              | some found =>
                  simp only [symbol] at isToken
                  exact absurd (symbol_isToken found c rest) isToken
              | none =>
                  exact .unexpected ⟨by simpa using blank, by simpa using quote,
                    by simpa using digit, by simpa using name, symbol⟩

end Piece

/-! ### All pieces -/

theorem Contiguous.start_le {start stop : Nat} {stretches : List Stretch}
    (contiguous : Contiguous start stretches stop) : start + stretches.length ≤ stop := by
  induction stretches generalizing start with
  | nil => exact Nat.le_of_eq contiguous
  | cons stretch rest inductionHypothesis =>
      obtain ⟨rfl, nonempty, behind⟩ := contiguous
      have further := inductionHypothesis behind
      rw [List.length_cons]
      omega

theorem lineBehind_append (before : String) (text : List Char) :
    lineBehind (before ++ String.ofList text) = lineBehind before + text.count '\n' := by
  unfold lineBehind
  rw [String.toList_append, List.count_append, String.toList_ofList, Nat.add_assoc]

/-- The item of a piece comes first among the items of the pieces from it on. -/
theorem itemsFrom_cons (before : String) (piece : Piece) (rest : List Piece) :
    itemsFrom (lineBehind before) (piece :: rest) = (piece.item? before).toList ++
      itemsFrom (lineBehind (before ++ String.ofList piece.text)) rest := by
  obtain ⟨kind, text⟩ := piece
  cases kind <;> simp [itemsFrom, Piece.item?, lineBehind_append]

/-- A source has a text in a span of bytes, and the text has a property there, with what stands in
front of it and behind it and with the item that it yields. -/
def Stretch.Stands (property : String → String → String → Option Item → Prop) (source : String)
    (stretch : Stretch) : Prop :=
  ∃ before behind, source = before ++ stretch.text ++ behind ∧
    stretch.start = before.utf8ByteSize ∧
    stretch.stop = (before ++ stretch.text).utf8ByteSize ∧
    property before stretch.text behind stretch.item?

/-- The pieces of a text come one after another, and each has what properties all first pieces
have. By induction on the pieces, with all that stands in front of the first one. -/
theorem exists_stretches {property : String → String → String → Option Item → Prop}
    (holds : ∀ before c rest, property before (String.ofList (Piece.first c rest).1.text)
      (String.ofList (Piece.first c rest).2) ((Piece.first c rest).1.item? before))
    (before : String) (text : List Char) :
    ∃ stretches, Contiguous before.utf8ByteSize stretches
        (before ++ String.ofList text).utf8ByteSize ∧
      (∀ stretch ∈ stretches, stretch.Stands property (before ++ String.ofList text)) ∧
      itemsFrom (lineBehind before) (pieces text) = stretches.filterMap Stretch.item? ++
        [.ok ⟨.eof, "", lineBehind (before ++ String.ofList text)⟩] := by
  fun_induction pieces text generalizing before with
  | case1 =>
      exact ⟨[], by simp [Contiguous], fun _ member => absurd member List.not_mem_nil,
        by simp [itemsFrom]⟩
  | case2 c rest inductionHypothesis =>
      let piece := (Piece.first c rest).1
      have whole : before ++ String.ofList (c :: rest) =
          before ++ String.ofList piece.text ++ String.ofList (Piece.first c rest).2 := by
        rw [String.append_assoc, ← String.ofList_append, Piece.first_append]
      obtain ⟨stretches, contiguous, within, items⟩ :=
        inductionHypothesis (before ++ String.ofList piece.text)
      rw [← whole] at contiguous within items
      refine ⟨⟨before.utf8ByteSize, (before ++ String.ofList piece.text).utf8ByteSize,
        String.ofList piece.text, piece.item? before⟩ :: stretches, ⟨rfl, ?_, contiguous⟩, ?_, ?_⟩
      · have nonempty : (String.ofList piece.text).utf8ByteSize ≠ 0 := by
          rw [Ne, String.utf8ByteSize_eq_zero_iff, String.ofList_eq_empty_iff]
          exact Piece.first_text_ne_nil c rest
        show before.utf8ByteSize < (before ++ String.ofList piece.text).utf8ByteSize
        rw [String.utf8ByteSize_append]
        omega
      · refine List.forall_mem_cons.mpr ⟨?_, within⟩
        exact ⟨before, _, whole, rfl, rfl, holds before c rest⟩
      · rw [itemsFrom_cons, items, List.filterMap_cons]
        cases piece.item? before <;> simp

/-- The same for the spans of a whole source. -/
theorem scan_stretches {property : String → String → String → Option Item → Prop}
    (holds : ∀ before c rest, property before (String.ofList (Piece.first c rest).1.text)
      (String.ofList (Piece.first c rest).2) ((Piece.first c rest).1.item? before))
    (source : String) :
    ∃ stretches, Contiguous 0 stretches source.utf8ByteSize ∧
      (∀ stretch ∈ stretches, stretch.Stands property source) ∧
      scan source = stretches.filterMap Stretch.item? ++
        [.ok ⟨.eof, "", lineBehind source⟩] := by
  have found := exists_stretches holds "" source.toList
  rwa [String.ofList_toList, String.empty_append] at found

/-! ### The whole source -/

theorem Lexeme.kind_ne_eof {kind : TokenKind} {text : List Char} (lexeme : Lexeme kind text) :
    kind ≠ .eof := by
  cases lexeme with
  | word => exact nameKind_ne_eof _
  | _ => nofun

/-- The ends of a span are ends of characters. -/
theorem Stretch.In.isValid {source : String} {stretch : Stretch} (within : stretch.In source) :
    (⟨stretch.start⟩ : String.Pos.Raw).IsValid source ∧
      (⟨stretch.stop⟩ : String.Pos.Raw).IsValid source := by
  obtain ⟨before, behind, whole, starts, stops, _⟩ := within
  refine ⟨String.Pos.Raw.isValid_iff_exists_append.mpr ⟨before, stretch.text ++ behind, ?_, ?_⟩,
    String.Pos.Raw.isValid_iff_exists_append.mpr ⟨before ++ stretch.text, behind, whole, ?_⟩⟩
  · rw [whole, String.append_assoc]
  · rw [starts]
    rfl
  · rw [stops]
    rfl

theorem Stretch.In.kind_ne_eof {source : String} {stretch : Stretch} (within : stretch.In source)
    {token : Token} (yields : stretch.item? = some (.ok token)) : token.kind ≠ .eof := by
  obtain ⟨before, behind, _, _, _, reading⟩ := within
  rw [yields] at reading
  generalize stretch.text = text at reading
  cases reading with
  | token lexeme => exact lexeme.kind_ne_eof

/-- A source is cut into consecutive spans, from its first byte to its last one. Each is not
empty, starts and stops between two characters, and is read as a token, a blank, a comment, an
unexpected character or an unterminated string; the tokens and errors come in the order of their
spans. One end token, on the last line, comes behind them and nothing behind that, so there are
no more items than bytes and one. -/
theorem scan_partitions (source : String) :
    ∃ stretches : List Stretch,
      Contiguous 0 stretches source.utf8ByteSize ∧
      (∀ stretch ∈ stretches, stretch.In source ∧
        (⟨stretch.start⟩ : String.Pos.Raw).IsValid source ∧
        (⟨stretch.stop⟩ : String.Pos.Raw).IsValid source ∧
        ∀ token, stretch.item? = some (.ok token) → token.kind ≠ .eof) ∧
      scan source = stretches.filterMap Stretch.item? ++
        [.ok ⟨.eof, "", lineBehind source⟩] ∧
      (scan source).length ≤ source.utf8ByteSize + 1 := by
  obtain ⟨stretches, contiguous, within, scanned⟩ := scan_stretches Piece.first_reading source
  refine ⟨stretches, contiguous, fun stretch member => ?_, scanned, ?_⟩
  · have here : stretch.In source := within stretch member
    exact ⟨here, here.isValid.1, here.isValid.2, fun token yields => here.kind_ne_eof yields⟩
  · have fewer := List.length_filterMap_le Stretch.item? stretches
    have short : 0 + stretches.length ≤ source.utf8ByteSize := contiguous.start_le
    rw [scanned, List.length_append, List.length_singleton]
    omega

/-- A character of two bytes, and a string that is left open over a newline. -/
example : scan "é\n\"\n" =
    [.error ⟨.unexpected 'é', 1⟩, .error ⟨.unterminatedString, 3⟩, .ok ⟨.eof, "", 3⟩] := by
  cbv

end Lox.Source
