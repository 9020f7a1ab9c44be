import Lox.Source.Scan

/-!
Contract: the lexical grammar, independent of the scanner.

Owns:
- `Lexeme`, which says how each kind of token is spelled;
- `Token.Scanned`, and that every token of a scanned text is spelled so;
- that a lexeme is cut off again in front of any text that does not extend it.

Does not own: blanks, comments and what is no token.
-/

namespace Lox

namespace Source

/-- How tokens are spelled. -/
inductive Lexeme : TokenKind → List Char → Prop where
  | string {contents : List Char} :
      '"' ∉ contents → Lexeme (.string (String.ofList contents)) ('"' :: contents ++ ['"'])
  | number {first : Char} {whole fraction : List Char} :
      first.isDigit → (∀ c ∈ whole, c.isDigit) → (∀ c ∈ fraction, c.isDigit) →
      Lexeme (.number (Number.Decimal.ofDigitChars (first :: whole) fraction).toNumber)
        (Piece.ofDigits (first :: whole) fraction).text
  | word {first : Char} {tail : List Char} :
      isNameStart first → (∀ c ∈ tail, isNamePart c) →
      Lexeme (Piece.nameKind (first :: tail)) (first :: tail)
  | symbol {c : Char} {symbol : Symbol} :
      Symbol.ofChar? c = some symbol → Lexeme (.symbol symbol) [c]
  | withEqual {c : Char} {short long : Symbol} :
      Symbol.ofChar? c = some short → short.withEqual? = some long →
      Lexeme (.symbol long) [c, '=']

/-- A word is a name or reserved. -/
theorem nameKind_cases (text : List Char) :
    Piece.nameKind text = .identifier ∨ ∃ keyword, Piece.nameKind text = .keyword keyword := by
  unfold Piece.nameKind
  split
  · exact Or.inr ⟨_, rfl⟩
  · exact Or.inl rfl

/-- A symbol is one character, or two of which the second is an equals sign. -/
theorem Lexeme.symbol_inv {symbol : Symbol} {text : List Char}
    (lexeme : Lexeme (.symbol symbol) text) :
    (∃ c, Symbol.ofChar? c = some symbol ∧ text = [c]) ∨
      ∃ c short, Symbol.ofChar? c = some short ∧ short.withEqual? = some symbol ∧
        text = [c, '='] := by
  generalize same : TokenKind.symbol symbol = kind at lexeme
  cases lexeme with
  | string | number => cases same
  | @word first tail =>
      rcases nameKind_cases (first :: tail) with name | ⟨_, reserved⟩
      · rw [name] at same
        cases same
      · rw [reserved] at same
        cases same
  | @symbol c symbol stands =>
      cases same
      exact Or.inl ⟨c, stands, rfl⟩
  | @withEqual c short long stands longer =>
      cases same
      exact Or.inr ⟨c, short, stands, longer, rfl⟩

/-! ### Tokens are lexemes -/

/-- Everything in a run satisfies its condition. -/
theorem mem_takeWhile {condition : Char → Bool} {text : List Char} {c : Char}
    (member : c ∈ text.takeWhile condition) : condition c = true :=
  List.all_eq_true.mp List.all_takeWhile c member

/-- What ends a run does not satisfy its condition. -/
theorem dropWhile_cons {condition : Char → Bool} {text rest : List Char} {c : Char}
    (ends : text.dropWhile condition = c :: rest) : condition c = false := by
  have fails := List.head?_dropWhile_not condition text
  rw [ends] at fails
  exact fails

theorem string_lexeme {rest : List Char} {kind : TokenKind}
    (isToken : (Piece.string rest).1.kind = .token kind) :
    Lexeme kind (Piece.string rest).1.text := by
  unfold Piece.string at isToken ⊢
  split at isToken
  case h_1 => cases isToken
  case h_2 quote following found =>
      cases isToken
      obtain rfl : quote = '"' := by simpa using dropWhile_cons found
      exact .string fun member => absurd (mem_takeWhile member) (by decide)

theorem number_lexeme {c : Char} (digit : c.isDigit) {rest : List Char} {kind : TokenKind}
    (isToken : (Piece.number c rest).1.kind = .token kind) :
    Lexeme kind (Piece.number c rest).1.text := by
  have whole : ∀ c ∈ rest.takeWhile Char.isDigit, c.isDigit := fun _ => mem_takeWhile
  unfold Piece.number at isToken ⊢
  split
  case h_1 point following found =>
      rw [found] at isToken
      by_cases more : point.isDigit
      · simp only [more, if_true] at isToken ⊢
        cases isToken
        refine .number digit whole fun c member => ?_
        rcases List.mem_cons.mp member with rfl | later
        · exact more
        · exact mem_takeWhile later
      · simp only [more, if_false, Bool.false_eq_true] at isToken ⊢
        cases isToken
        exact .number digit whole nofun
  case h_2 other =>
      split at isToken
      case h_1 found => exact absurd found (other _ _)
      case h_2 =>
          cases isToken
          exact .number digit whole nofun

theorem symbol_lexeme {c : Char} {found : Symbol} (stands : Symbol.ofChar? c = some found)
    {rest : List Char} {kind : TokenKind}
    (isToken : (Piece.symbol found c rest).1.kind = .token kind) :
    Lexeme kind (Piece.symbol found c rest).1.text := by
  unfold Piece.symbol at isToken ⊢
  split
  case h_1 longer following longerIs =>
      rw [longerIs] at isToken
      cases isToken
      exact .withEqual stands longerIs
  case h_2 other =>
      split at isToken
      case h_1 longerIs => exact absurd rfl (other _ _ longerIs)
      case h_2 =>
          cases isToken
          exact .symbol stands

/-- A token that is cut off the front of a text is spelled as its kind is. -/
theorem first_lexeme {c : Char} {rest : List Char} {kind : TokenKind}
    (isToken : (Piece.first c rest).1.kind = .token kind) :
    Lexeme kind (Piece.first c rest).1.text := by
  unfold Piece.first at isToken ⊢
  split
  case isTrue blank => simp [blank] at isToken
  case isFalse blank =>
    rw [if_neg blank] at isToken
    split
    case isTrue quote =>
        rw [if_pos quote] at isToken
        exact string_lexeme isToken
    case isFalse quote =>
      rw [if_neg quote] at isToken
      split
      case isTrue digit =>
          rw [if_pos digit] at isToken
          exact number_lexeme digit isToken
      case isFalse digit =>
        rw [if_neg digit] at isToken
        split
        case isTrue name =>
            rw [if_pos name] at isToken
            cases isToken
            exact .word name fun _ => mem_takeWhile
        case isFalse name =>
          rw [if_neg name] at isToken
          split
          case isTrue comment => simp [comment] at isToken
          case isFalse comment =>
            rw [if_neg comment] at isToken
            split
            case h_1 found stands =>
                rw [stands] at isToken
                exact symbol_lexeme stands isToken
            case h_2 none =>
                rw [none] at isToken
                cases isToken

/-- Every piece of a text is cut off the front of some of it. -/
theorem mem_pieces {text : List Char} {piece : Piece} (member : piece ∈ pieces text) :
    ∃ c rest, (Piece.first c rest).1 = piece := by
  fun_induction pieces text with
  | case1 => cases member
  | case2 c rest inductionHypothesis =>
      rcases List.mem_cons.mp member with rfl | later
      · exact ⟨c, rest, rfl⟩
      · exact inductionHypothesis later

/-- Every token among items comes from a piece, unless it is the end. -/
theorem mem_itemsFrom {line : Nat} {found : List Piece} {token : Token}
    (member : .ok token ∈ itemsFrom line found) :
    token.kind = .eof ∨
      ∃ piece ∈ found, piece.kind = .token token.kind ∧ piece.text = token.lexeme.toList := by
  induction found generalizing line with
  | nil =>
      obtain rfl : token = ⟨.eof, "", line⟩ := by simpa [itemsFrom] using member
      exact Or.inl rfl
  | cons piece rest inductionHypothesis =>
      have later {next : Nat} (member : .ok token ∈ itemsFrom next rest) :
          token.kind = .eof ∨ ∃ found ∈ piece :: rest,
            found.kind = .token token.kind ∧ found.text = token.lexeme.toList :=
        (inductionHypothesis member).imp_right fun ⟨found, among, same⟩ =>
          ⟨found, List.mem_cons_of_mem _ among, same⟩
      unfold itemsFrom at member
      dsimp only at member
      split at member
      case h_1 kind isToken =>
          rcases List.mem_cons.mp member with same | further
          · cases same
            exact Or.inr ⟨piece, List.mem_cons_self, isToken, String.toList_ofList.symm⟩
          · exact later further
      case h_2 => exact later member
      all_goals
        rcases List.mem_cons.mp member with same | further
        · cases same
        · exact later further

end Source

/-- A token is spelled as its kind is. -/
def Token.Scanned (token : Token) : Prop :=
  Source.Lexeme token.kind token.lexeme.toList

namespace Source

theorem scan_scanned {text : String} {token : Token} (member : token ∈ tokens (scan text))
    (inside : token.isEof = false) : token.Scanned := by
  obtain ⟨item, among, isToken⟩ := List.mem_filterMap.mp member
  cases item with
  | error => cases isToken
  | ok found =>
      cases isToken
      rcases mem_itemsFrom among with ends | ⟨piece, cut, kind, spelled⟩
      · unfold Token.isEof at inside
        rw [ends] at inside
        cases inside
      · obtain ⟨c, rest, rfl⟩ := mem_pieces cut
        unfold Token.Scanned
        rw [← spelled]
        exact first_lexeme kind

/-! ### Lexemes are cut off again -/

/-- A text does not extend the lexeme of a token in front of it. -/
def Separate : TokenKind → List Char → Prop
  | .string _, _ => True
  | .symbol _, text => text.head? ≠ some '=' ∧ text.head? ≠ some '/'
  | .number _, text =>
      text.head?.any Char.isDigit = false ∧
        ∀ c rest, text = '.' :: c :: rest → c.isDigit = false
  | _, text => text.head?.any isNamePart = false

theorem takeWhile_run {condition : Char → Bool} {run back : List Char}
    (all : ∀ c ∈ run, condition c = true) (stops : back.head?.any condition = false) :
    (run ++ back).takeWhile condition = run := by
  rw [List.takeWhile_append_of_pos all]
  cases back with
  | nil => simp
  | cons c back =>
      have fails : condition c = false := stops
      simp [fails]

theorem dropWhile_run {condition : Char → Bool} {run back : List Char}
    (all : ∀ c ∈ run, condition c = true) (stops : back.head?.any condition = false) :
    (run ++ back).dropWhile condition = back := by
  rw [List.dropWhile_append_of_pos all]
  cases back with
  | nil => rfl
  | cons c back =>
      have fails : condition c = false := stops
      simp [fails]

theorem string_closed {contents : List Char} (inside : '"' ∉ contents) (back : List Char) :
    Piece.string (contents ++ ['"'] ++ back) =
      (⟨.token (.string (String.ofList contents)), '"' :: contents ++ ['"']⟩, back) := by
  have all : ∀ c ∈ contents, (c != '"') = true := fun c member =>
    bne_iff_ne.mpr fun same => inside (same ▸ member)
  unfold Piece.string
  rw [List.append_assoc, takeWhile_run all rfl, dropWhile_run all rfl]
  rfl

theorem number_ended {first : Char} {whole fraction back : List Char}
    (wholeDigits : ∀ c ∈ whole, c.isDigit) (fractionDigits : ∀ c ∈ fraction, c.isDigit)
    {value : Float} (apart : Separate (.number value) back) :
    Piece.number first ((Piece.ofDigits (first :: whole) fraction).text.tail ++ back) =
      (Piece.ofDigits (first :: whole) fraction, back) := by
  unfold Piece.number
  cases fraction with
  | nil =>
      have text : (Piece.ofDigits (first :: whole) []).text.tail ++ back = whole ++ back := rfl
      rw [text, takeWhile_run wholeDigits apart.1, dropWhile_run wholeDigits apart.1]
      split
      case h_1 digit following =>
          rw [if_neg (by simp [apart.2 digit following rfl])]
      case h_2 => rfl
  | cons digit fraction =>
      obtain ⟨isDigit, others⟩ := List.forall_mem_cons.mp fractionDigits
      have text : (Piece.ofDigits (first :: whole) (digit :: fraction)).text.tail ++ back =
          whole ++ '.' :: digit :: (fraction ++ back) := by simp [Piece.ofDigits]
      rw [text, takeWhile_run wholeDigits rfl, dropWhile_run wholeDigits rfl]
      simp only [isDigit, if_true, takeWhile_run others apart.1, dropWhile_run others apart.1]

theorem symbol_ended (c : Char) (symbol : Symbol) {back : List Char}
    (apart : Separate (.symbol symbol) back) :
    Piece.symbol symbol c back = (⟨.token (.symbol symbol), [c]⟩, back) := by
  unfold Piece.symbol
  split
  case h_1 => exact absurd rfl apart.1
  case h_2 => rfl

theorem symbol_withEqual (c : Char) {short long : Symbol} (longer : short.withEqual? = some long)
    (back : List Char) :
    Piece.symbol short c ('=' :: back) = (⟨.token (.symbol long), [c, '=']⟩, back) := by
  unfold Piece.symbol
  rw [longer]
  rfl

theorem other_of_isDigit {c : Char} (digit : c.isDigit) :
    isBlank c = false ∧ (c == '"') = false := by
  refine ⟨Bool.eq_false_iff.mpr fun blank => ?_, Bool.eq_false_iff.mpr fun quote => ?_⟩
  · simp only [isBlank, Bool.or_eq_true, beq_iff_eq] at blank
    rcases blank with ((rfl | rfl) | rfl) | rfl <;> cases digit
  · obtain rfl := eq_of_beq quote
    cases digit

theorem other_of_isNameStart {c : Char} (name : isNameStart c) :
    isBlank c = false ∧ (c == '"') = false ∧ c.isDigit = false := by
  refine ⟨Bool.eq_false_iff.mpr fun blank => ?_, Bool.eq_false_iff.mpr fun quote => ?_,
    Bool.eq_false_iff.mpr fun digit => ?_⟩
  · simp only [isBlank, Bool.or_eq_true, beq_iff_eq] at blank
    rcases blank with ((rfl | rfl) | rfl) | rfl <;> cases name
  · obtain rfl := eq_of_beq quote
    cases name
  · rcases Bool.or_eq_true_iff.mp name with letter | underscore
    · have most : c.val ≤ '9'.val := of_decide_eq_true (Bool.and_eq_true_iff.mp digit).2
      rcases Bool.or_eq_true_iff.mp letter with upper | lower
      · have least : 'A'.val ≤ c.val := (of_decide_eq_true upper).1
        exact absurd (UInt32.le_trans least most) (by decide)
      · have least : 'a'.val ≤ c.val := of_decide_eq_true (Bool.and_eq_true_iff.mp lower).1
        exact absurd (UInt32.le_trans least most) (by decide)
    · obtain rfl := eq_of_beq underscore
      cases digit

/-- A symbol starts nothing else, unless it starts a comment. -/
theorem first_of_symbol {c : Char} {symbol : Symbol} (stands : Symbol.ofChar? c = some symbol)
    {back : List Char} (noComment : c = '/' → back.head? ≠ some '/') :
    Piece.first c back = Piece.symbol symbol c back := by
  have comment : (c == '/' && back.head? == some '/') = false := by
    rw [Bool.and_eq_false_iff]
    by_cases slash : c = '/'
    · exact Or.inr (beq_eq_false_iff_ne.mpr (noComment slash))
    · exact Or.inl (beq_eq_false_iff_ne.mpr slash)
  unfold Piece.first
  rw [comment, stands]
  unfold Symbol.ofChar? at stands
  split at stands <;> first | rfl | cases stands

theorem separate_nameKind {text back : List Char} (apart : Separate (Piece.nameKind text) back) :
    back.head?.any isNamePart = false := by
  rcases nameKind_cases text with name | ⟨_, reserved⟩
  · rw [name] at apart
    exact apart
  · rw [reserved] at apart
    exact apart

/-- A lexeme is cut off the front of a text if what follows does not extend it. -/
theorem pieces_of_lexeme {kind : TokenKind} {text back : List Char} (lexeme : Lexeme kind text)
    (apart : Separate kind back) :
    pieces (text ++ back) = ⟨.token kind, text⟩ :: pieces back := by
  suffices cut : ∃ c tail, text = c :: tail ∧
      Piece.first c (tail ++ back) = (⟨.token kind, text⟩, back) by
    obtain ⟨c, tail, rfl, first⟩ := cut
    rw [List.cons_append, pieces, first]
  cases lexeme with
  | @string contents inside =>
      exact ⟨'"', contents ++ ['"'], rfl, string_closed inside back⟩
  | @number first whole fraction digit wholeDigits fractionDigits =>
      obtain ⟨blank, quote⟩ := other_of_isDigit digit
      refine ⟨first, (Piece.ofDigits (first :: whole) fraction).text.tail, ?_, ?_⟩
      · cases fraction <;> rfl
      · unfold Piece.first
        rw [blank, quote, digit, number_ended wholeDigits fractionDigits apart]
        rfl
  | @word first tail start parts =>
      obtain ⟨blank, quote, digit⟩ := other_of_isNameStart start
      have stops := separate_nameKind apart
      refine ⟨first, tail, rfl, ?_⟩
      unfold Piece.first
      rw [blank, quote, digit, start, takeWhile_run parts stops, dropWhile_run parts stops]
      rfl
  | @symbol c symbol stands =>
      refine ⟨c, [], rfl, ?_⟩
      rw [List.nil_append, first_of_symbol stands fun _ => apart.2, symbol_ended c symbol apart]
  | @withEqual c short long stands longer =>
      refine ⟨c, ['='], rfl, ?_⟩
      rw [first_of_symbol stands (by simp)]
      exact symbol_withEqual c longer back

end Source

end Lox
