import Lox.Proofs.Source.Partition
import Lox.Proofs.Source.Spelling

/-!
Contract: scanning takes the longest lexeme.

Owns:
- `Matches`, the lexical grammar by character ranges and tables of spellings, which says nothing
  of how a scanner goes about it;
- `Longest`, that a text is the longest lexeme at the front of another one;
- `Cut`, what is taken where the scan stops: a comment, a blank, the longest lexeme, or an error
  where none of these starts.

Does not own: which positions the scan stops at.
-/

namespace Lox

/-- How a symbol is written in a source. -/
def Symbol.spelling : Symbol → List Char
  | leftParen => ['(']
  | rightParen => [')']
  | leftBrace => ['{']
  | rightBrace => ['}']
  | comma => [',']
  | dot => ['.']
  | minus => ['-']
  | plus => ['+']
  | semicolon => [';']
  | slash => ['/']
  | star => ['*']
  | bang => ['!']
  | bangEqual => ['!', '=']
  | equal => ['=']
  | equalEqual => ['=', '=']
  | greater => ['>']
  | greaterEqual => ['>', '=']
  | less => ['<']
  | lessEqual => ['<', '=']

namespace Source

/-! ### The lexical grammar -/

/-- Digits. -/
abbrev IsDigit (c : Char) : Prop :=
  '0' ≤ c ∧ c ≤ '9'

/-- Letters, to which the underscore belongs. -/
abbrev IsLetter (c : Char) : Prop :=
  ('A' ≤ c ∧ c ≤ 'Z') ∨ ('a' ≤ c ∧ c ≤ 'z') ∨ c = '_'

/-- Whitespace. -/
abbrev IsWhitespace (c : Char) : Prop :=
  c = ' ' ∨ c = '\r' ∨ c = '\t' ∨ c = '\n'

/-- The number that digits denote, with or without a point among them. -/
def decimalValue (text : List Char) : Float :=
  (Number.Decimal.ofDigitChars (text.takeWhile (· != '.'))
    ((text.dropWhile (· != '.')).drop 1)).toNumber

/-- The lexical grammar: what tokens of each kind look like. -/
inductive Matches : TokenKind → List Char → Prop where
  | symbol (symbol : Symbol) : Matches (.symbol symbol) symbol.spelling
  | string {contents : List Char} :
      '"' ∉ contents → Matches (.string (String.ofList contents)) ('"' :: contents ++ ['"'])
  | whole {digits : List Char} :
      digits ≠ [] → (∀ c ∈ digits, IsDigit c) → Matches (.number (decimalValue digits)) digits
  | fraction {whole digits : List Char} :
      whole ≠ [] → (∀ c ∈ whole, IsDigit c) → digits ≠ [] → (∀ c ∈ digits, IsDigit c) →
      Matches (.number (decimalValue (whole ++ '.' :: digits))) (whole ++ '.' :: digits)
  | reserved (keyword : Keyword) : Matches (.keyword keyword) keyword.spelling.toList
  | name {first : Char} {tail : List Char} :
      IsLetter first → (∀ c ∈ tail, IsLetter c ∨ IsDigit c) →
      (∀ keyword : Keyword, first :: tail ≠ keyword.spelling.toList) →
      Matches .identifier (first :: tail)

/-- A comment starts with two slashes. -/
abbrev StartsComment (following : List Char) : Prop :=
  ['/', '/'] <+: following

/-- Something of the lexical grammar is at the front of a text. -/
inductive StartsSomething (following : List Char) : Prop where
  | lexeme {kind : TokenKind} {text : List Char} :
      Matches kind text → text <+: following → StartsSomething following
  | whitespace {c : Char} : IsWhitespace c → [c] <+: following → StartsSomething following
  | comment : StartsComment following → StartsSomething following

/-- A text is the longest lexeme at the front of another one. It is a lexeme of one kind only. -/
structure Longest (kind : TokenKind) (text following : List Char) : Prop where
  lexeme : Matches kind text
  unique : ∀ other, Matches other text → other = kind
  front : text <+: following
  longest : ∀ other shorter, Matches other shorter → shorter <+: following →
    shorter.length ≤ text.length

/-- What is taken from the front of a source, in front of what is behind it, and the item that
this yields. -/
structure Cut (text behind : String) (item? : Option Item) : Prop where
  /-- A token is the longest lexeme, unless a comment starts. -/
  token : ∀ token, item? = some (.ok token) → token.lexeme = text ∧
    ¬StartsComment (text ++ behind).toList ∧
    Longest token.kind text.toList (text ++ behind).toList
  /-- A comment goes up to the next newline or the end. -/
  comment : StartsComment (text ++ behind).toList →
    item? = none ∧ '\n' ∉ text.toList ∧ ∀ c ∈ behind.toList.head?, c = '\n'
  /-- Nothing but whitespace and comments is skipped. -/
  skipped : item? = none →
    StartsComment (text ++ behind).toList ∨ ∃ c, IsWhitespace c ∧ text = String.singleton c
  error : (∃ error, item? = some (.error error)) ↔ ¬StartsSomething (text ++ behind).toList

/-! ### Both grammars are one -/

theorem isDigit_iff {c : Char} : c.isDigit = true ↔ IsDigit c := by
  simp [Char.isDigit, IsDigit, Char.le_def]

theorem isNameStart_iff {c : Char} : isNameStart c = true ↔ IsLetter c := by
  have ranges : isNameStart c =
      ((decide (c.val ≥ 'A'.val ∧ c.val ≤ 'Z'.val) ||
        (c.val ≥ 'a'.val && c.val ≤ 'z'.val)) || c == '_') := rfl
  rw [ranges]
  simp [IsLetter, Char.le_def, or_assoc]

theorem isNamePart_iff {c : Char} : isNamePart c = true ↔ IsLetter c ∨ IsDigit c := by
  rw [← isNameStart_iff, ← isDigit_iff]
  simp [isNamePart, isNameStart, Char.isAlphanum, or_right_comm]

theorem isBlank_iff {c : Char} : isBlank c = true ↔ IsWhitespace c := by
  simp [isBlank, IsWhitespace, or_assoc]

theorem dot_not_digit {digits : List Char} (all : ∀ c ∈ digits, c.isDigit) :
    ∀ c ∈ digits, (c != '.') = true := by
  intro c member
  refine bne_iff_ne.mpr fun dot => ?_
  have digit := all c member
  rw [dot] at digit
  cases digit

theorem decimalValue_whole {digits : List Char} (all : ∀ c ∈ digits, c.isDigit) :
    decimalValue digits = (Number.Decimal.ofDigitChars digits []).toNumber := by
  have run : (digits ++ []).takeWhile (· != '.') = digits :=
    takeWhile_run (dot_not_digit all) rfl
  have rest : (digits ++ []).dropWhile (· != '.') = [] :=
    dropWhile_run (dot_not_digit all) rfl
  rw [List.append_nil] at run rest
  unfold decimalValue
  rw [run, rest]
  rfl

theorem decimalValue_fraction {whole : List Char} (all : ∀ c ∈ whole, c.isDigit)
    (digits : List Char) :
    decimalValue (whole ++ '.' :: digits) =
      (Number.Decimal.ofDigitChars whole digits).toNumber := by
  unfold decimalValue
  rw [takeWhile_run (dot_not_digit all) rfl, dropWhile_run (dot_not_digit all) rfl]
  rfl

theorem spelling_of_ofChar? {c : Char} {symbol : Symbol}
    (stands : Symbol.ofChar? c = some symbol) : [c] = symbol.spelling := by
  unfold Symbol.ofChar? at stands
  split at stands <;> cases stands <;> rfl

theorem spelling_of_withEqual? {short long : Symbol} (longer : short.withEqual? = some long) :
    short.spelling ++ ['='] = long.spelling := by
  cases short <;> cases longer <;> rfl

theorem nameKind_spelling (keyword : Keyword) :
    Piece.nameKind keyword.spelling.toList = .keyword keyword := by
  unfold Piece.nameKind
  rw [String.ofList_toList, Keyword.ofSpelling?_spelling]

theorem nameKind_of_name {text : List Char}
    (free : ∀ keyword : Keyword, text ≠ keyword.spelling.toList) :
    Piece.nameKind text = .identifier := by
  unfold Piece.nameKind
  cases found : Keyword.ofSpelling? (String.ofList text) with
  | none => rfl
  | some keyword =>
      have same := congrArg String.toList (Keyword.spelling_of_ofSpelling? found)
      rw [String.toList_ofList] at same
      exact absurd same (free keyword)

/-- A reserved word is made of letters. -/
theorem keyword_lexeme (keyword : Keyword) :
    Lexeme (.keyword keyword) keyword.spelling.toList := by
  have shape : ∃ first tail, keyword.spelling.toList = first :: tail ∧ isNameStart first = true ∧
      tail.all isNamePart = true := by
    cases keyword <;> exact ⟨_, _, rfl, rfl, rfl⟩
  obtain ⟨first, tail, same, start, letters⟩ := shape
  have parts := List.all_eq_true.mp letters
  have kind := nameKind_spelling keyword
  rw [same] at kind ⊢
  rw [← kind]
  exact .word start parts

theorem Matches.lexeme {kind : TokenKind} {text : List Char} (matching : Matches kind text) :
    Lexeme kind text := by
  cases matching with
  | symbol symbol =>
      cases symbol with
      | bangEqual | equalEqual | greaterEqual | lessEqual => exact .withEqual rfl rfl
      | _ => exact .symbol rfl
  | string inside => exact .string inside
  | @whole digits nonempty all =>
      obtain ⟨first, whole, rfl⟩ := List.exists_cons_of_ne_nil nonempty
      have digits : ∀ c ∈ first :: whole, c.isDigit := fun c member =>
        isDigit_iff.mpr (all c member)
      obtain ⟨digit, others⟩ := List.forall_mem_cons.mp digits
      rw [decimalValue_whole digits]
      exact .number digit others nofun
  | @fraction whole fraction nonempty all some fractionAll =>
      obtain ⟨first, whole, rfl⟩ := List.exists_cons_of_ne_nil nonempty
      have digits : ∀ c ∈ first :: whole, c.isDigit := fun c member =>
        isDigit_iff.mpr (all c member)
      obtain ⟨digit, others⟩ := List.forall_mem_cons.mp digits
      rw [decimalValue_fraction digits]
      have text : (Piece.ofDigits (first :: whole) fraction).text =
          first :: whole ++ '.' :: fraction := by
        unfold Piece.ofDigits
        rw [if_neg (by simpa using some)]
      rw [← text]
      exact .number digit others fun c member => isDigit_iff.mpr (fractionAll c member)
  | reserved keyword => exact keyword_lexeme keyword
  | name start parts free =>
      rw [← nameKind_of_name free]
      exact .word (isNameStart_iff.mpr start) fun c member => isNamePart_iff.mpr (parts c member)

theorem Lexeme.matching {kind : TokenKind} {text : List Char} (lexeme : Lexeme kind text) :
    Matches kind text := by
  cases lexeme with
  | string inside => exact .string inside
  | @number first whole fraction digit others fractionAll =>
      have digits : ∀ c ∈ first :: whole, c.isDigit := List.forall_mem_cons.mpr ⟨digit, others⟩
      have all : ∀ c ∈ first :: whole, IsDigit c := fun c member =>
        isDigit_iff.mp (digits c member)
      cases fraction with
      | nil =>
          rw [← decimalValue_whole digits]
          exact .whole nofun all
      | cons point fraction =>
          rw [← decimalValue_fraction digits]
          exact .fraction nofun all nofun fun c member => isDigit_iff.mp (fractionAll c member)
  | @word first tail start parts =>
      unfold Piece.nameKind
      cases found : Keyword.ofSpelling? (String.ofList (first :: tail)) with
      | none =>
          refine .name (isNameStart_iff.mp start)
            (fun c member => isNamePart_iff.mp (parts c member)) fun keyword same => ?_
          rw [same, String.ofList_toList, Keyword.ofSpelling?_spelling] at found
          cases found
      | some keyword =>
          have same := congrArg String.toList (Keyword.spelling_of_ofSpelling? found)
          rw [String.toList_ofList] at same
          rw [same]
          exact .reserved keyword
  | symbol stands =>
      rw [spelling_of_ofChar? stands]
      exact .symbol _
  | @withEqual c short long stands longer =>
      have text : [c, '='] = long.spelling := by
        rw [← spelling_of_withEqual? longer, ← spelling_of_ofChar? stands]
        rfl
      rw [text]
      exact .symbol _

/-- No text is a lexeme of two kinds, as it is cut off again as a token of its kind. -/
theorem Matches.unique {kind other : TokenKind} {text : List Char} (matching : Matches kind text)
    (also : Matches other text) : other = kind := by
  have apart : ∀ kind, Separate kind [] := fun kind => by
    cases kind <;> simp [Separate]
  have first := pieces_of_lexeme matching.lexeme (apart kind)
  have second := pieces_of_lexeme also.lexeme (apart other)
  cases first.symm.trans second
  rfl

/-! ### The first piece is the longest lexeme -/

/-- A run at the front of a text is not longer than the whole run there. -/
theorem length_le_takeWhile {condition : Char → Bool} {run text : List Char}
    (all : ∀ c ∈ run, condition c = true) (front : run <+: text) :
    run.length ≤ (text.takeWhile condition).length := by
  obtain ⟨back, rfl⟩ := front
  rw [List.takeWhile_append_of_pos all, List.length_append]
  exact Nat.le_add_right _ _

namespace Piece

variable {c : Char} {rest : List Char}

theorem first_of_quote (rest : List Char) : first '"' rest = string rest :=
  rfl

theorem first_of_digit (digit : c.isDigit) : first c rest = number c rest := by
  obtain ⟨blank, quote⟩ := other_of_isDigit digit
  unfold first
  rw [blank, quote, digit]
  rfl

theorem first_of_name (name : isNameStart c) :
    first c rest = (⟨.token (nameKind (c :: rest.takeWhile isNamePart)),
      c :: rest.takeWhile isNamePart⟩, rest.dropWhile isNamePart) := by
  obtain ⟨blank, quote, digit⟩ := other_of_isNameStart name
  unfold first
  rw [blank, quote, digit, name]
  rfl

theorem first_of_comment (rest : List Char) :
    first '/' ('/' :: rest) = (⟨.skipped, '/' :: ('/' :: rest).takeWhile (· != '\n')⟩,
      ('/' :: rest).dropWhile (· != '\n')) :=
  rfl

/-- A number takes in all digits that follow the first one. -/
theorem whole_length_le (c : Char) (rest : List Char) :
    (rest.takeWhile Char.isDigit).length + 1 ≤ (number c rest).1.text.length := by
  unfold number
  repeat' split
  all_goals simp [ofDigits]

/-- A number takes in a fraction. -/
theorem fraction_length_le {whole fraction back : List Char} (c : Char)
    (wholeDigits : ∀ c ∈ whole, c.isDigit) (nonempty : fraction ≠ [])
    (fractionDigits : ∀ c ∈ fraction, c.isDigit) :
    (c :: whole ++ '.' :: fraction).length ≤
      (number c (whole ++ '.' :: (fraction ++ back))).1.text.length := by
  obtain ⟨digit, fraction, rfl⟩ := List.exists_cons_of_ne_nil nonempty
  obtain ⟨isDigit, others⟩ := List.forall_mem_cons.mp fractionDigits
  have more := length_le_takeWhile others (List.prefix_append fraction back)
  unfold number
  rw [takeWhile_run wholeDigits rfl, dropWhile_run wholeDigits rfl]
  simp only [List.cons_append, isDigit, if_true, ofDigits, List.isEmpty_cons,
    Bool.false_eq_true, if_false, List.length_cons, List.length_append]
  omega

/-- Where a lexeme starts and no comment does, a token is cut off that is as long as the lexeme.
The cases are those of the grammar. -/
theorem first_of_lexeme {kind : TokenKind} {text : List Char} (lexeme : Lexeme kind text)
    (front : text <+: c :: rest) (noComment : ¬StartsComment (c :: rest)) :
    ∃ found, (first c rest).1.kind = .token found ∧
      text.length ≤ (first c rest).1.text.length := by
  obtain ⟨back, whole⟩ := front
  cases lexeme with
  | @string contents inside =>
      obtain rfl : '"' = c := (List.cons.inj whole).1
      obtain rfl : contents ++ ['"'] ++ back = rest := (List.cons.inj whole).2
      rw [first_of_quote, string_closed inside back]
      exact ⟨_, rfl, Nat.le_refl _⟩
  | @number digit digits fraction isDigit wholeDigits fractionDigits =>
      cases fraction with
      | nil =>
          obtain rfl : digit = c := (List.cons.inj whole).1
          obtain rfl : digits ++ back = rest := (List.cons.inj whole).2
          rw [first_of_digit isDigit]
          obtain ⟨found, isToken⟩ := number_isToken digit (digits ++ back)
          have run := length_le_takeWhile wholeDigits (List.prefix_append digits back)
          have long := whole_length_le digit (digits ++ back)
          exact ⟨found, isToken, Nat.le_trans (Nat.succ_le_succ run) long⟩
      | cons point fraction =>
          have text : (ofDigits (digit :: digits) (point :: fraction)).text ++ back =
              digit :: (digits ++ '.' :: (point :: fraction ++ back)) := by
            simp [ofDigits]
          obtain ⟨rfl, rfl⟩ := List.cons.inj (text.symm.trans whole)
          rw [first_of_digit isDigit]
          obtain ⟨found, isToken⟩ :=
            number_isToken digit (digits ++ '.' :: (point :: fraction ++ back))
          exact ⟨found, isToken, fraction_length_le digit wholeDigits
            (List.cons_ne_nil _ _) fractionDigits⟩
  | @word first tail start parts =>
      obtain rfl : first = c := (List.cons.inj whole).1
      obtain rfl : tail ++ back = rest := (List.cons.inj whole).2
      rw [first_of_name start]
      exact ⟨_, rfl, Nat.succ_le_succ (length_le_takeWhile parts (List.prefix_append tail back))⟩
  | @symbol first symbol stands =>
      obtain rfl : first = c := (List.cons.inj whole).1
      obtain rfl : back = rest := (List.cons.inj whole).2
      have plain : first = '/' → back.head? ≠ some '/' := by
        rintro rfl slash
        obtain ⟨tail, rfl⟩ := List.head?_eq_some_iff.mp slash
        exact noComment ⟨tail, rfl⟩
      obtain ⟨found, isToken⟩ := symbol_isToken symbol first back
      rw [first_of_symbol stands plain]
      refine ⟨found, isToken, ?_⟩
      unfold Piece.symbol
      split <;> simp
  | @withEqual first short long stands longer =>
      obtain rfl : first = c := (List.cons.inj whole).1
      obtain rfl : '=' :: back = rest := (List.cons.inj whole).2
      rw [first_of_symbol stands (by simp),
        symbol_withEqual first longer back]
      exact ⟨_, rfl, Nat.le_refl _⟩

/-- What is skipped is a blank or a comment. -/
theorem first_skipped (isSkipped : (first c rest).1.kind = .skipped) :
    StartsComment (c :: rest) ∨ isBlank c ∧ (first c rest).1.text = [c] := by
  by_cases blank : isBlank c
  · refine Or.inr ⟨blank, ?_⟩
    unfold first
    rw [if_pos blank]
  · by_cases comment : (c == '/' && rest.head? == some '/') = true
    · obtain ⟨slash, follows⟩ := Bool.and_eq_true_iff.mp comment
      obtain ⟨tail, rfl⟩ := List.head?_eq_some_iff.mp (eq_of_beq follows)
      exact Or.inl ⟨tail, by rw [eq_of_beq slash]; rfl⟩
    · unfold first string number symbol at isSkipped
      simp only [if_neg blank, if_neg comment] at isSkipped
      repeat' split at isSkipped
      all_goals cases isSkipped

/-! ### What is taken -/

theorem item?_eq_ok {piece : Piece} {before : String} {token : Token}
    (yields : piece.item? before = some (.ok token)) :
    piece.kind = .token token.kind ∧ token.lexeme = String.ofList piece.text := by
  obtain ⟨kind, text⟩ := piece
  cases kind <;> cases yields
  exact ⟨rfl, rfl⟩

theorem item?_eq_none_iff {piece : Piece} {before : String} :
    piece.item? before = none ↔ piece.kind = .skipped := by
  obtain ⟨kind, text⟩ := piece
  cases kind <;> simp [item?]

/-- A piece yields an error if it is no token and is not skipped. -/
theorem item?_eq_error_iff {piece : Piece} {before : String} :
    (∃ error, piece.item? before = some (.error error)) ↔
      piece.kind ≠ .skipped ∧ ∀ kind, piece.kind ≠ .token kind := by
  obtain ⟨kind, text⟩ := piece
  cases kind <;> simp [item?]

theorem first_isSkipped_of_comment (comment : StartsComment (c :: rest)) :
    (first c rest).1.kind = .skipped ∧ '\n' ∉ (first c rest).1.text ∧
      ∀ next ∈ (first c rest).2.head?, next = '\n' := by
  obtain ⟨tail, same⟩ := comment
  obtain rfl : '/' = c := (List.cons.inj same).1
  obtain rfl : '/' :: tail = rest := (List.cons.inj same).2
  rw [first_of_comment]
  refine ⟨rfl, fun member => ?_, fun next starts => ?_⟩
  · rcases List.mem_cons.mp member with slash | later
    · exact absurd slash (by decide)
    · exact absurd (mem_takeWhile later) (by decide)
  · obtain ⟨_, ends⟩ := List.head?_eq_some_iff.mp starts
    simpa using dropWhile_cons ends

theorem first_longest {kind : TokenKind} (isToken : (first c rest).1.kind = .token kind) :
    Longest kind (first c rest).1.text (c :: rest) where
  lexeme := (first_lexeme isToken).matching
  unique _ also := (first_lexeme isToken).matching.unique also
  front := ⟨_, first_append c rest⟩
  longest other shorter matching front := by
    have noComment : ¬StartsComment (c :: rest) := fun comment => by
      cases isToken.symm.trans (first_isSkipped_of_comment comment).1
    obtain ⟨_, _, long⟩ := first_of_lexeme matching.lexeme front noComment
    exact long

/-- Something starts at the front of a text if and only if the first piece is no error. -/
theorem startsSomething_iff :
    StartsSomething (c :: rest) ↔
      (first c rest).1.kind = .skipped ∨ ∃ kind, (first c rest).1.kind = .token kind := by
  constructor
  · intro starts
    by_cases comment : StartsComment (c :: rest)
    · exact Or.inl (first_isSkipped_of_comment comment).1
    · cases starts with
      | lexeme matching front =>
          obtain ⟨kind, isToken, _⟩ := first_of_lexeme matching.lexeme front comment
          exact Or.inr ⟨kind, isToken⟩
      | whitespace white front =>
          obtain ⟨_, same⟩ := front
          obtain rfl := (List.cons.inj same).1
          refine Or.inl ?_
          unfold first
          rw [if_pos (isBlank_iff.mpr white)]
      | comment starts => exact absurd starts comment
  · rintro (isSkipped | ⟨kind, isToken⟩)
    · rcases first_skipped isSkipped with comment | ⟨blank, _⟩
      · exact .comment comment
      · exact .whitespace (isBlank_iff.mp blank) ⟨rest, rfl⟩
    · have found := first_longest isToken
      exact .lexeme found.lexeme found.front

theorem first_cut (before : String) (c : Char) (rest : List Char) :
    Cut (String.ofList (first c rest).1.text) (String.ofList (first c rest).2)
      ((first c rest).1.item? before) := by
  have whole : (String.ofList (first c rest).1.text ++
      String.ofList (first c rest).2).toList = c :: rest := by
    rw [← String.ofList_append, String.toList_ofList, first_append]
  constructor
  case token =>
      intro token yields
      obtain ⟨isToken, lexeme⟩ := item?_eq_ok yields
      rw [whole, String.toList_ofList]
      refine ⟨lexeme, fun comment => ?_, first_longest isToken⟩
      cases isToken.symm.trans (first_isSkipped_of_comment comment).1
  case comment =>
      rw [whole, String.toList_ofList, String.toList_ofList]
      intro comment
      obtain ⟨isSkipped, inside, ends⟩ := first_isSkipped_of_comment comment
      exact ⟨item?_eq_none_iff.mpr isSkipped, inside, ends⟩
  case skipped =>
      rw [whole]
      intro yields
      refine (first_skipped (item?_eq_none_iff.mp yields)).imp_right ?_
      rintro ⟨blank, text⟩
      exact ⟨c, isBlank_iff.mp blank, by rw [text]; rfl⟩
  case error =>
      rw [whole, item?_eq_error_iff, startsSomething_iff, not_or, not_exists]

end Piece

/-- A source is cut into consecutive spans, and its items are what these yield, in their order,
with one end token behind them. What is taken at each place is a comment up to the end of its line
if one starts there, and else the longest text that the lexical grammar has for a token, which gets
the kind of that text: a reserved word is no name, a string token carries what is between the
quotes, and a number token what the digits denote. Else a whitespace character is skipped. An
error is yielded at a place if and only if none of these starts there. -/
theorem tokens_are_longest (source : String) :
    ∃ stretches : List Stretch,
      Contiguous 0 stretches source.utf8ByteSize ∧
      (∀ stretch ∈ stretches, stretch.Stands
        (fun before text behind item? => Reading before text behind item? ∧ Cut text behind item?)
        source) ∧
      scan source = stretches.filterMap Stretch.item? ++
        [.ok ⟨.eof, "", lineBehind source⟩] :=
  scan_stretches
    (fun before c rest => ⟨Piece.first_reading before c rest, Piece.first_cut before c rest⟩) source

/-- Reserved words and operators end where the longest lexeme does. -/
example : (tokens (scan "orchid or!==<!//")).map Token.lexeme =
    ["orchid", "or", "!=", "=", "<", "!", ""] := by
  cbv

end Source

end Lox
