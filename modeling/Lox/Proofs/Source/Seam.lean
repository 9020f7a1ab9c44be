import Lox.Source.Scan

/-!
Contract: scanning a text of two parts with a newline between them.

Owns:
- that the first part is cut into the pieces that it is cut into alone, unless it leaves a
  string open;
- that the items of the second part follow, so many lines further down.
-/

namespace Lox

/-- The token on a later line. -/
def Token.shift (lines : Nat) (token : Token) : Token :=
  { token with line := token.line + lines }

namespace Source

/-- The item on a later line. -/
def Item.shift (lines : Nat) : Item → Item
  | .ok token => .ok (token.shift lines)
  | .error error => .error { error with line := error.line + lines }

/-! ### Runs of characters -/

section Runs

variable {condition : Char → Bool} {front back : List Char}

/-- A run that ends before the seam is not longer with more text behind. -/
theorem takeWhile_append_of_stops (stops : front.dropWhile condition = [] →
    back.head?.any condition = false) :
    (front ++ back).takeWhile condition = front.takeWhile condition := by
  induction front with
  | nil =>
      cases back with
      | nil => rfl
      | cons c back =>
          have fails : condition c = false := stops rfl
          simp [fails]
  | cons c front inductionHypothesis =>
      by_cases holds : condition c
      · simp only [List.dropWhile_cons, holds, if_true] at stops
        simp [holds, inductionHypothesis stops]
      · simp [holds]

theorem dropWhile_append_of_stops (stops : front.dropWhile condition = [] →
    back.head?.any condition = false) :
    (front ++ back).dropWhile condition = front.dropWhile condition ++ back := by
  induction front with
  | nil =>
      cases back with
      | nil => rfl
      | cons c back =>
          have fails : condition c = false := stops rfl
          simp [fails]
  | cons c front inductionHypothesis =>
      by_cases holds : condition c
      · simp only [List.dropWhile_cons, holds, if_true] at stops
        simp [holds, inductionHypothesis stops]
      · simp [holds]

end Runs

/-! ### Pieces -/

namespace Piece

variable (c : Char) (front back : List Char)

/-- A string that is closed is the same whatever follows. -/
theorem string_append_of_closed (closed : (string front).1.kind ≠ .unterminated) :
    string (front ++ back) = ((string front).1, (string front).2 ++ back) := by
  have stops : front.dropWhile (· != '"') = [] → back.head?.any (· != '"') = false := by
    intro isOpen
    unfold string at closed
    rw [isOpen] at closed
    exact absurd rfl closed
  unfold string
  rw [takeWhile_append_of_stops stops, dropWhile_append_of_stops stops]
  cases quoted : front.dropWhile (· != '"') with
  | nil =>
      unfold string at closed
      rw [quoted] at closed
      exact absurd rfl closed
  | cons quote following => rfl

/-- A number ends at a newline, as does a point that no digit follows. -/
theorem number_append_newline :
    number c (front ++ '\n' :: back) =
      ((number c front).1, (number c front).2 ++ '\n' :: back) := by
  have stops : ∀ digits : List Char, digits.dropWhile Char.isDigit = [] →
      ('\n' :: back).head?.any Char.isDigit = false := fun _ _ => rfl
  unfold number
  rw [takeWhile_append_of_stops (stops front), dropWhile_append_of_stops (stops front)]
  cases front.dropWhile Char.isDigit with
  | nil => rfl
  | cons point fraction =>
      by_cases isPoint : point = '.'
      · subst isPoint
        cases fraction with
        | nil => rfl
        | cons digit fraction =>
            by_cases isDigit : digit.isDigit
            · simp only [List.cons_append, isDigit, if_true,
                takeWhile_append_of_stops (stops fraction),
                dropWhile_append_of_stops (stops fraction)]
            · simp only [List.cons_append, isDigit, if_false, Bool.false_eq_true]
      · split
        case h_1 same => exact absurd (List.cons.inj same).1 isPoint
        case h_2 =>
            split
            case h_1 same => exact absurd (List.cons.inj same).1 isPoint
            case h_2 => rfl

theorem symbol_append_newline (found : Symbol) :
    symbol found c (front ++ '\n' :: back) =
      ((symbol found c front).1, (symbol found c front).2 ++ '\n' :: back) := by
  unfold symbol
  cases found.withEqual? with
  | none => rfl
  | some longer =>
      cases front with
      | nil => rfl
      | cons next front =>
          by_cases equal : next = '='
          · subst equal
            rfl
          · split
            case h_1 same => exact absurd (List.cons.inj same).1 equal
            case h_2 =>
                split
                case h_1 same => exact absurd (List.cons.inj same).1 equal
                case h_2 => rfl

/-- The first piece of a text that is not left open is the same with a newline behind the
text, whatever comes after that. -/
theorem first_append_newline (closed : (first c front).1.kind ≠ .unterminated) :
    first c (front ++ '\n' :: back) =
      ((first c front).1, (first c front).2 ++ '\n' :: back) := by
  unfold first at closed ⊢
  by_cases blank : isBlank c
  · simp only [if_pos blank]
  · by_cases quote : (c == '"') = true
    · simp only [if_neg blank, if_pos quote] at closed ⊢
      exact string_append_of_closed front _ closed
    · by_cases digit : c.isDigit
      · simp only [if_neg blank, if_neg quote, if_pos digit]
        exact number_append_newline c front back
      · by_cases name : isNameStart c
        · have stops : front.dropWhile isNamePart = [] →
              ('\n' :: back).head?.any isNamePart = false := fun _ => rfl
          simp only [if_neg blank, if_neg quote, if_neg digit, if_pos name,
            takeWhile_append_of_stops stops, dropWhile_append_of_stops stops]
        · simp only [if_neg blank, if_neg quote, if_neg digit, if_neg name]
          have following : ((front ++ '\n' :: back).head? == some '/') =
              (front.head? == some '/') := by
            cases front <;> rfl
          rw [following]
          split
          case isTrue =>
              have stops : front.dropWhile (· != '\n') = [] →
                  ('\n' :: back).head?.any (· != '\n') = false := fun _ => rfl
              rw [takeWhile_append_of_stops stops, dropWhile_append_of_stops stops]
          case isFalse =>
              cases Symbol.ofChar? c with
              | none => rfl
              | some found => exact symbol_append_newline c front back found

end Piece

/-- A text is cut before the newline as it is without what follows. By induction on the
pieces. -/
theorem pieces_append_newline (front back : List Char)
    (closed : ∀ piece ∈ pieces front, piece.kind ≠ .unterminated) :
    pieces (front ++ '\n' :: back) = pieces front ++ pieces ('\n' :: back) := by
  fun_induction pieces front with
  | case1 => rfl
  | case2 c rest inductionHypothesis =>
      have here := closed _ List.mem_cons_self
      have later := fun piece member => closed piece (List.mem_cons_of_mem _ member)
      rw [List.cons_append, pieces, Piece.first_append_newline c rest back here,
        inductionHypothesis later, List.cons_append]

theorem pieces_newline (back : List Char) :
    pieces ('\n' :: back) = ⟨.skipped, ['\n']⟩ :: pieces back := by
  rw [pieces]
  rfl

/-! ### Items -/

theorem itemsFrom_ne_nil (line : Nat) (found : List Piece) : itemsFrom line found ≠ [] := by
  induction found generalizing line with
  | nil => nofun
  | cons piece rest inductionHypothesis =>
      unfold itemsFrom
      dsimp only
      split
      case h_2 => exact inductionHypothesis _
      all_goals nofun

/-- The items of pieces go on behind those of other pieces, without the end in between. -/
theorem itemsFrom_append (line : Nat) (front back : List Piece) :
    itemsFrom line (front ++ back) = (itemsFrom line front).dropLast ++
      itemsFrom (line + (front.flatMap Piece.text).count '\n') back := by
  induction front generalizing line with
  | nil => simp [itemsFrom]
  | cons piece front inductionHypothesis =>
      have behind := inductionHypothesis (line + piece.text.count '\n')
      have more := itemsFrom_ne_nil (line + piece.text.count '\n') front
      simp only [itemsFrom, List.cons_append, List.flatMap_cons, List.count_append,
        ← Nat.add_assoc, behind]
      split <;> simp [List.dropLast_cons_of_ne_nil more]

/-- Pieces that start some lines further down give items some lines further down. -/
theorem itemsFrom_shift (line lines : Nat) (found : List Piece) :
    itemsFrom (line + lines) found = (itemsFrom line found).map (Item.shift lines) := by
  induction found generalizing line with
  | nil => rfl
  | cons piece rest inductionHypothesis =>
      have order : line + lines + piece.text.count '\n' =
          line + piece.text.count '\n' + lines := by omega
      simp only [itemsFrom, order, inductionHypothesis]
      split <;> rfl

/-- A piece of a string that is left open is an error. -/
theorem mem_itemsFrom_of_unterminated (line : Nat) {found : List Piece} {piece : Piece}
    (member : piece ∈ found) (isOpen : piece.kind = .unterminated) :
    ∃ last, .error ⟨.unterminatedString, last⟩ ∈ itemsFrom line found := by
  induction found generalizing line with
  | nil => cases member
  | cons other rest inductionHypothesis =>
      unfold itemsFrom
      dsimp only
      rcases List.mem_cons.mp member with rfl | later
      · rw [isOpen]
        exact ⟨_, List.mem_cons_self⟩
      · obtain ⟨last, among⟩ := inductionHypothesis (line + other.text.count '\n') later
        refine ⟨last, ?_⟩
        split
        case h_2 => exact among
        all_goals exact List.mem_cons_of_mem _ among

/-! ### The end of a source -/

theorem nameKind_ne_eof (text : List Char) : Piece.nameKind text ≠ .eof := by
  unfold Piece.nameKind
  split <;> nofun

/-- No piece of a text is its end. -/
theorem first_kind_ne_eof (c : Char) (rest : List Char) :
    (Piece.first c rest).1.kind ≠ .token .eof := by
  unfold Piece.first Piece.string Piece.number Piece.symbol Piece.ofDigits
  repeat' split
  all_goals simp [nameKind_ne_eof]

theorem pieces_kind_ne_eof (text : List Char) :
    ∀ piece ∈ pieces text, piece.kind ≠ .token .eof := by
  fun_induction pieces text with
  | case1 => exact fun _ member => absurd member List.not_mem_nil
  | case2 c rest inductionHypothesis =>
      intro piece member
      rcases List.mem_cons.mp member with rfl | later
      · exact first_kind_ne_eof c rest
      · exact inductionHypothesis piece later

/-- Items end with the end of the source, and no other item is one. -/
theorem itemsFrom_ends (line : Nat) {found : List Piece}
    (noEnd : ∀ piece ∈ found, piece.kind ≠ .token .eof) :
    ∃ body last, itemsFrom line found = body ++ [.ok ⟨.eof, "", last⟩] ∧
      ∀ token, .ok token ∈ body → token.isEof = false := by
  induction found generalizing line with
  | nil => exact ⟨[], line, rfl, nofun⟩
  | cons piece rest inductionHypothesis =>
      have here := noEnd piece List.mem_cons_self
      obtain ⟨body, last, same, others⟩ := inductionHypothesis
        (line + piece.text.count '\n') fun piece member =>
          noEnd piece (List.mem_cons_of_mem _ member)
      simp only [itemsFrom, same]
      split
      case h_1 kind isToken =>
          refine ⟨_ :: body, last, rfl, fun token member => ?_⟩
          rcases List.mem_cons.mp member with first | later
          · cases first
            unfold Token.isEof
            split
            case h_1 isEnd =>
                dsimp only at isEnd
                rw [isToken, isEnd] at here
                exact absurd rfl here
            case h_2 => rfl
          · exact others token later
      case h_2 => exact ⟨body, last, rfl, others⟩
      all_goals
        refine ⟨_ :: body, last, rfl, fun token member => ?_⟩
        rcases List.mem_cons.mp member with first | later
        · cases first
        · exact others token later

theorem scan_ends (text : String) :
    ∃ body last, scan text = body ++ [.ok ⟨.eof, "", last⟩] ∧
      ∀ token, .ok token ∈ body → token.isEof = false :=
  itemsFrom_ends 1 (pieces_kind_ne_eof text.toList)

/-! ### Two parts -/

/-- The lines that a text takes, with a newline behind it. -/
def linesOf (text : String) : Nat :=
  text.toList.count '\n' + 1

/-- The items of two parts with a newline between them, if the first leaves no string open. -/
theorem scan_seam (front back : String)
    (closed : ∀ line, .error ⟨.unterminatedString, line⟩ ∉ scan front) :
    scan (front ++ "\n" ++ back) =
      (scan front).dropLast ++ (scan back).map (Item.shift (linesOf front)) := by
  have whole : (front ++ "\n" ++ back).toList = front.toList ++ '\n' :: back.toList := by simp
  have cut : ∀ piece ∈ pieces front.toList, piece.kind ≠ .unterminated := by
    intro piece member isOpen
    obtain ⟨line, among⟩ := mem_itemsFrom_of_unterminated 1 member isOpen
    exact closed line among
  unfold scan
  rw [whole, pieces_append_newline _ _ cut, pieces_newline, itemsFrom_append,
    flatMap_text_pieces, ← itemsFrom_shift]
  have lines : 1 + front.toList.count '\n' + ['\n'].count '\n' = 1 + linesOf front := by
    simp [linesOf, Nat.add_assoc]
  simp only [itemsFrom, lines]

theorem tokens_append (front back : List Item) :
    tokens (front ++ back) = tokens front ++ tokens back :=
  List.filterMap_append

theorem lexicalErrors_append (front back : List Item) :
    lexicalErrors (front ++ back) = lexicalErrors front ++ lexicalErrors back :=
  List.filterMap_append

theorem tokens_shift (lines : Nat) (items : List Item) :
    tokens (items.map (Item.shift lines)) = (tokens items).map (Token.shift lines) := by
  induction items with
  | nil => rfl
  | cons item items inductionHypothesis =>
      cases item with
      | ok token => exact congrArg (_ :: ·) inductionHypothesis
      | error => exact inductionHypothesis

theorem lexicalErrors_shift (lines : Nat) {items : List Item} (quiet : lexicalErrors items = []) :
    lexicalErrors (items.map (Item.shift lines)) = [] := by
  induction items with
  | nil => rfl
  | cons item items inductionHypothesis =>
      cases item with
      | ok token => exact inductionHypothesis quiet
      | error => cases quiet

/-- The tokens of two parts, if nothing is wrong with the first. The end of the first part is
left out. -/
theorem tokens_seam {front : String} (quiet : lexicalErrors (scan front) = []) (back : String) :
    ∃ before last, tokens (scan front) = before ++ [⟨.eof, "", last⟩] ∧
      (∀ token ∈ before, token.isEof = false) ∧
      tokens (scan (front ++ "\n" ++ back)) =
        before ++ (tokens (scan back)).map (Token.shift (linesOf front)) ∧
      (lexicalErrors (scan back) = [] →
        lexicalErrors (scan (front ++ "\n" ++ back)) = []) := by
  obtain ⟨body, last, ends, others⟩ := scan_ends front
  have closed : ∀ line, .error ⟨.unterminatedString, line⟩ ∉ scan front := by
    intro line member
    have reported : ⟨.unterminatedString, line⟩ ∈ lexicalErrors (scan front) :=
      List.mem_filterMap.mpr ⟨_, member, rfl⟩
    rw [quiet] at reported
    cases reported
  have seam := scan_seam front back closed
  rw [ends, List.dropLast_concat] at seam
  rw [ends, lexicalErrors_append] at quiet
  refine ⟨tokens body, last, ?_, ?_, ?_, ?_⟩
  · rw [ends, tokens_append]
    rfl
  · intro token member
    obtain ⟨item, among, isToken⟩ := List.mem_filterMap.mp member
    cases item with
    | ok found =>
        cases isToken
        exact others token among
    | error => cases isToken
  · rw [seam, tokens_append, tokens_shift]
  · intro backQuiet
    rw [seam, lexicalErrors_append, (List.append_eq_nil_iff.mp quiet).1,
      lexicalErrors_shift _ backQuiet]
    rfl

/-- A text is scanned up to a newline as it is without what follows, if it leaves no string open:
its items come first, but for the end, which is the last one of them, and the items of what
follows come behind them, each so many lines further down as there are newlines up to there. -/
theorem scan_continues_behind_newline (front back : String)
    (closed : ∀ line, .error ⟨.unterminatedString, line⟩ ∉ scan front) :
    ∃ body last, scan front = body ++ [.ok ⟨.eof, "", last⟩] ∧
      (∀ token, .ok token ∈ body → token.isEof = false) ∧
      scan (front ++ "\n" ++ back) =
        body ++ (scan back).map (Item.shift (front.toList.count '\n' + 1)) := by
  obtain ⟨body, last, ends, others⟩ := scan_ends front
  have seam := scan_seam front back closed
  rw [ends, List.dropLast_concat] at seam
  exact ⟨body, last, ends, others, seam⟩

/-- A comment ends at the newline, behind a string that goes over another one. -/
theorem comment_ends_at_newline :
    (∀ line, .error ⟨.unterminatedString, line⟩ ∉ scan "\"\n\"//") ∧
      ∃ body last, scan "\"\n\"//" = body ++ [.ok ⟨.eof, "", last⟩] ∧
        (∀ token, .ok token ∈ body → token.isEof = false) ∧
        scan ("\"\n\"//" ++ "\n" ++ "\"") = body ++ (scan "\"").map (Item.shift 2) := by
  have comment : pieces ['/', '/'] = [⟨.skipped, ['/', '/']⟩] := by
    rw [pieces]
    show _ :: pieces [] = _
    rw [pieces]
    rfl
  have cut : pieces "\"\n\"//".toList =
      [⟨.token (.string "\n"), ['"', '\n', '"']⟩, ⟨.skipped, ['/', '/']⟩] := by
    show pieces ['"', '\n', '"', '/', '/'] = _
    rw [pieces]
    show _ :: pieces ['/', '/'] = _
    rw [comment]
    rfl
  have closed : ∀ line, .error ⟨.unterminatedString, line⟩ ∉ scan "\"\n\"//" := by
    intro line
    unfold scan
    rw [cut]
    simp [itemsFrom]
  exact ⟨closed, scan_continues_behind_newline _ "\"" closed⟩

end Source

end Lox
