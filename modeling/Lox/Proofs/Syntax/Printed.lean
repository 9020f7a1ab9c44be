import Lox.Proofs.Grammar.Genuine
import Lox.Proofs.Grammar.Lookahead
import Lox.Proofs.Grammar.Written
import Lox.Proofs.Number.Bits
import Lox.Proofs.Number.Numeral
import Lox.Proofs.Source.Layout
import Lox.Proofs.Source.Spelling
import Lox.Proofs.Syntax.Wrapped
import Lox.Syntax.Form

/-!
Contract: scanning the source form of an expression.

Owns:
- `Expression.layout`, the tokens and blanks that the source form of an expression consists of;
- that they are cut off again, in front of all that can follow an expression.

Does not own: what the tokens read as.
-/

namespace Lox

open Source

/-! ### Tokens that are printed -/

/-- The token of a symbol that is one character. -/
def Token.mark (symbol : Symbol) (c : Char) : Token :=
  ⟨.symbol symbol, String.ofList [c], 0⟩

/-- The token of a reserved word. -/
def Token.reserved (keyword : Keyword) : Token :=
  ⟨.keyword keyword, keyword.spelling, 0⟩

/-- What kind of token a printed constant is. -/
def Literal.kind : Literal → TokenKind
  | .nil => .keyword .nil
  | .boolean true => .keyword .true
  | .boolean false => .keyword .false
  | .number value =>
      if (Literal.number value).isInfinite then .identifier else .number value
  | .string contents => .string contents

/-- The token that a constant is printed as. -/
def Literal.token (value : Literal) : Token :=
  ⟨value.kind, value.sourceForm, 0⟩

@[simp] theorem Token.toList_mark (symbol : Symbol) (c : Char) :
    (Token.mark symbol c).lexeme.toList = [c] :=
  String.toList_ofList

theorem Token.mark_scanned {symbol : Symbol} {c : Char} (stands : Symbol.ofChar? c = some symbol) :
    (Token.mark symbol c).Scanned := by
  unfold Token.Scanned
  rw [Token.toList_mark]
  exact .symbol stands

theorem Token.reserved_scanned (keyword : Keyword) : (Token.reserved keyword).Scanned := by
  obtain ⟨first, tail, spelled, start, parts⟩ : ∃ first tail,
      keyword.spelling.toList = first :: tail ∧ isNameStart first ∧ ∀ c ∈ tail, isNamePart c := by
    cases keyword <;> exact ⟨_, _, rfl, rfl, List.all_eq_true.mp rfl⟩
  have kind : Piece.nameKind (first :: tail) = .keyword keyword := by
    unfold Piece.nameKind
    rw [← spelled, String.ofList_toList, Keyword.ofSpelling?_spelling]
  unfold Token.Scanned Token.reserved
  dsimp only
  rw [spelled, ← kind]
  exact .word start parts

theorem infinityName_scanned : infinityName.Scanned :=
  @Lexeme.word 'i' ['n', 'f'] rfl (List.all_eq_true.mp rfl)

/-- A number without a sign is printed as its magnitude. -/
theorem Number.write_ofMagnitudeBits {bits : Nat} (inside : bits ≤ Number.infinityBits) :
    (Layout.display.write (ofMagnitudeBits bits)).toList =
      if bits = infinityBits then ['i', 'n', 'f'] else Layout.display.magnitudeText bits := by
  unfold Layout.write
  dsimp only
  rw [magnitudeBits_ofMagnitudeBits inside, isNegative_ofMagnitudeBits inside,
    if_neg (Nat.not_lt.mpr inside), String.toList_ofList]
  rfl

theorem Literal.kind_ofMagnitudeBits {bits : Nat} (inside : bits ≤ Number.infinityBits) :
    (Literal.number (Number.ofMagnitudeBits bits)).kind =
      if bits = Number.infinityBits then .identifier
      else .number (Number.ofMagnitudeBits bits) := by
  simp only [kind, isInfinite, Number.magnitudeBits_ofMagnitudeBits inside, beq_iff_eq]

theorem Literal.token_scanned {value : Literal} (written : value.Written) :
    value.token.Scanned := by
  unfold Literal.token Token.Scanned
  dsimp only
  cases value with
  | nil => exact Token.reserved_scanned .nil
  | boolean value =>
      cases value with
      | true => exact Token.reserved_scanned .true
      | false => exact Token.reserved_scanned .false
  | string contents =>
      have text : (Literal.string contents).sourceForm.toList =
          '"' :: contents.toList ++ ['"'] := by
        simp [Literal.sourceForm]
      have lexeme := Lexeme.string written
      rw [String.ofList_toList] at lexeme
      rw [text]
      exact lexeme
  | number value =>
      obtain ⟨bits, inside, rfl⟩ := written
      have text : (Literal.number (Number.ofMagnitudeBits bits)).sourceForm.toList = _ :=
        Number.write_ofMagnitudeBits inside
      rw [text, Literal.kind_ofMagnitudeBits inside]
      by_cases infinite : bits = Number.infinityBits
      · rw [if_pos infinite, if_pos infinite]
        exact infinityName_scanned
      · rw [if_neg infinite, if_neg infinite]
        obtain ⟨whole, fraction, spells⟩ :=
          Number.magnitudeText_spells (Nat.lt_of_le_of_ne inside infinite)
        obtain ⟨first, whole, rfl⟩ := List.exists_cons_of_ne_nil spells.nonempty
        obtain ⟨digit, digits⟩ := List.forall_mem_cons.mp spells.wholeDigits
        have lexeme := Lexeme.number digit digits spells.fractionDigits
        unfold Number.Decimal.toNumber at lexeme
        rw [spells.reads] at lexeme
        rw [spells.text]
        exact lexeme

/-! ### What follows an expression -/

namespace Source

/-- What can follow an expression in a text. -/
inductive Ends : List Char → Prop where
  | nil : Ends []
  | opening {rest : List Char} : Ends ('(' :: rest)
  | closing {rest : List Char} : Ends (')' :: rest)
  | comma {rest : List Char} : Ends (',' :: rest)
  | blank {rest : List Char} : Ends (' ' :: rest)
  | access {c : Char} {rest : List Char} : isNameStart c → Ends ('.' :: c :: rest)

/-- Nothing of that extends a token. -/
theorem Ends.separate {rest : List Char} (ends : Ends rest) (kind : TokenKind) :
    Separate kind rest := by
  cases ends with
  | access start =>
      have digit := (other_of_isNameStart start).2.2
      cases kind <;> simp [Separate, digit] <;> decide
  | _ => cases kind <;> simp [Separate] <;> decide

/-- A text does not extend a symbol in front of it. -/
def Opens (text : List Char) : Prop :=
  ∃ c rest, text = c :: rest ∧ c ≠ '=' ∧ c ≠ '/'

theorem Opens.separate {text : List Char} (opens : Opens text) (symbol : Symbol) :
    Separate (.symbol symbol) text := by
  obtain ⟨c, tail, rfl, noEqual, noSlash⟩ := opens
  exact ⟨by simpa using noEqual, by simpa using noSlash⟩

theorem Opens.append {text : List Char} (opens : Opens text) (rest : List Char) :
    Opens (text ++ rest) := by
  obtain ⟨c, tail, rfl, others⟩ := opens
  exact ⟨c, tail ++ rest, rfl, others⟩

end Source

theorem isDigit_opens {c : Char} (digit : c.isDigit) (rest : List Char) : Opens (c :: rest) := by
  refine ⟨c, rest, rfl, ?_, ?_⟩ <;> rintro rfl <;> cases digit

theorem isNameStart_opens {c : Char} (start : isNameStart c) (rest : List Char) :
    Opens (c :: rest) := by
  refine ⟨c, rest, rfl, ?_, ?_⟩ <;> rintro rfl <;> cases start

/-- A token starts with an equals sign or a slash only if it is a symbol that does. -/
theorem Token.Scanned.opens {token : Token} (scanned : token.Scanned)
    (other : ∀ symbol ∈ [Symbol.equal, .equalEqual, .slash], token.isSymbol symbol = false) :
    Opens token.lexeme.toList := by
  unfold Token.Scanned at scanned
  unfold Token.isSymbol at other
  generalize token.kind = kind at scanned other
  generalize token.lexeme.toList = text at scanned ⊢
  cases scanned with
  | string => exact ⟨'"', _, rfl, by decide, by decide⟩
  | @number first whole fraction digit =>
      cases fraction <;> exact isDigit_opens digit _
  | word start => exact isNameStart_opens start _
  | symbol stands =>
      refine ⟨_, [], rfl, ?_, ?_⟩ <;> rintro rfl <;> cases stands <;> simp at other
  | withEqual stands longer =>
      refine ⟨_, ['='], rfl, ?_, ?_⟩ <;> rintro rfl <;> cases stands <;> cases longer
      simp at other

/-- A name starts like one. -/
theorem Token.Scanned.start {token : Token} (scanned : token.Scanned)
    (isName : token.isIdentifier) :
    ∃ c tail, token.lexeme.toList = c :: tail ∧ isNameStart c := by
  unfold Token.Scanned at scanned
  unfold Token.isIdentifier at isName
  generalize token.kind = kind at scanned isName
  generalize token.lexeme.toList = text at scanned ⊢
  cases scanned with
  | word start => exact ⟨_, _, rfl, start⟩
  | _ => cases isName

/-! ### Expressions -/

/-- Pieces between parentheses. -/
def Source.enclosed (found : List Piece) : List Piece :=
  .ofToken (.mark .leftParen '(') :: found ++ [.ofToken (.mark .rightParen ')')]

/-- An equals sign between blanks. -/
def Source.assigning : List Piece :=
  [.blank, .ofToken (.mark .equal '='), .blank]

namespace Expression

mutual

/-- The pieces of the source form of an expression. -/
def layout : Expression → List Piece
  | .literal _ value => [.ofToken value.token]
  | .unary _ operator operand => enclosed (.ofToken operator :: operand.layout)
  | .binary _ left operator right | .logical _ left operator right =>
      enclosed (left.layout ++ .blank :: .ofToken operator :: .blank :: right.layout)
  | .grouping _ inner => enclosed inner.layout
  | .variable _ name => [.ofToken name]
  | .this _ _ => [.ofToken (.reserved .this)]
  | .assign _ name value => enclosed (.ofToken name :: assigning ++ value.layout)
  | .call _ callee _ arguments => callee.layout ++ enclosed (layoutAll arguments)
  | .get _ object name => object.layout ++ [.ofToken (.mark .dot '.'), .ofToken name]
  | .set _ object name value =>
      enclosed (object.layout ++ .ofToken (.mark .dot '.') :: .ofToken name ::
        assigning ++ value.layout)

/-- The pieces of an argument list. -/
def layoutAll : List Expression → List Piece
  | [] => []
  | [last] => last.layout
  | expression :: next :: rest =>
      expression.layout ++ .ofToken (.mark .comma ',') :: .blank :: layoutAll (next :: rest)

end

@[simp] theorem textOf_enclosed (found : List Piece) :
    textOf (enclosed found) = '(' :: textOf found ++ [')'] := by
  simp [enclosed]

@[simp] theorem textOf_assigning : textOf assigning = [' ', '=', ' '] :=
  rfl

mutual

/-- The pieces make up the source form. -/
theorem textOf_layout : (expression : Expression) →
    textOf expression.layout = expression.sourceForm.toList
  | .literal _ value => by simp [layout, sourceForm, Literal.token]
  | .unary _ _ operand => by simp [layout, sourceForm, textOf_layout operand]
  | .binary _ left _ right | .logical _ left _ right => by
      simp [layout, sourceForm, parenthesized, textOf_layout left, textOf_layout right]
  | .grouping _ inner => by simp [layout, sourceForm, textOf_layout inner]
  | .variable _ name => by simp [layout, sourceForm]
  | .this _ _ => by simp [layout, sourceForm, Token.reserved, Keyword.spelling]
  | .assign _ _ value => by
      simp [layout, sourceForm, parenthesized, textOf_layout value]
  | .call _ callee _ arguments => by
      simp [layout, sourceForm, textOf_layout callee, textOf_layoutAll arguments]
  | .get _ object _ => by simp [layout, sourceForm, textOf_layout object]
  | .set _ object _ value => by
      simp [layout, sourceForm, parenthesized, textOf_layout object, textOf_layout value]

theorem textOf_layoutAll : (expressions : List Expression) →
    textOf (layoutAll expressions) = (", ".intercalate (sourceForms expressions)).toList
  | [] => rfl
  | [last] => by simp [layoutAll, sourceForms, textOf_layout last]
  | expression :: next :: rest => by
      have behind := textOf_layoutAll (next :: rest)
      simp only [sourceForms] at behind
      simp [layoutAll, sourceForms, textOf_layout expression, behind]

end

/-! ### Scanning the source form -/

theorem literal_opens {value : Literal} (written : value.Written) :
    Opens value.token.lexeme.toList := by
  refine (Literal.token_scanned written).opens fun symbol _ => ?_
  unfold Token.isSymbol Literal.token
  dsimp only
  cases value with
  | boolean value => cases value <;> rfl
  | number value =>
      cases infinite : (Literal.number value).isInfinite <;> simp [Literal.kind, infinite]
  | _ => rfl

theorem name_opens {name : Token} (genuine : name.GenuineName Token.Scanned) :
    Opens name.lexeme.toList := by
  obtain ⟨c, tail, text, start⟩ := genuine.2.start genuine.1
  rw [text]
  exact isNameStart_opens start tail

theorem unary_kind {operator : Token} (isOperator : Grammar.isUnaryOperator operator) :
    operator.kind = .symbol .bang ∨ operator.kind = .symbol .minus := by
  simpa using (Grammar.isUnaryOperator_iff operator).mp isOperator

theorem unary_opens {operator : Token} (isOperator : Grammar.isUnaryOperator operator)
    (scanned : operator.Scanned) : Opens operator.lexeme.toList := by
  refine scanned.opens fun symbol among => ?_
  unfold Token.isSymbol
  rcases unary_kind isOperator with kind | kind
  · rw [kind]
    revert symbol
    decide
  · rw [kind]
    revert symbol
    decide

/-- No expression starts with an equals sign or a slash. By induction on what stands in front
of calls and property accesses. -/
theorem layout_opens : (expression : Expression) → expression.Genuine Token.Scanned →
    expression.Written → Opens (textOf expression.layout)
  | .literal _ value, _, written => by simpa [layout] using literal_opens written
  | .unary _ _ _, _, _ | .binary _ _ _ _, _, _ | .logical _ _ _ _, _, _ | .grouping _ _, _, _
  | .assign _ _ _, _, _ | .set _ _ _ _, _, _ => by
      simp only [layout, textOf_enclosed]
      exact ⟨'(', _, rfl, by decide, by decide⟩
  | .variable _ name, genuine, _ => by simpa [layout] using name_opens genuine
  | .this _ _, _, _ => ⟨'t', ['h', 'i', 's'], rfl, by decide, by decide⟩
  | .call _ callee _ _, genuine, written => by
      simp only [layout, textOf, List.flatMap_append]
      exact (layout_opens callee genuine.2.1 written.2.1).append _
  | .get _ object _, genuine, written => by
      simp only [layout, textOf, List.flatMap_append]
      exact (layout_opens object genuine.2 written).append _

/-- Nor does an argument list with its closing parenthesis. -/
theorem layoutAll_opens : (expressions : List Expression) →
    Expression.AllGenuine Token.Scanned expressions → AllWritten expressions →
    (rest : List Char) → Opens (textOf (layoutAll expressions) ++ ')' :: rest)
  | [], _, _, rest => ⟨')', rest, rfl, by decide, by decide⟩
  | [last], genuine, written, _ => (layout_opens last genuine.1 written.1).append _
  | expression :: _ :: _, genuine, written, _ => by
      simp only [layoutAll, textOf, List.flatMap_append]
      exact ((layout_opens expression genuine.1 written.1).append _).append _

/-- What is laid out in front of a closing parenthesis can be enclosed. -/
theorem enclosed_laid {found : List Piece} {rest : List Char}
    (opens : Opens (textOf found ++ ')' :: rest)) (inside : Laid found (')' :: rest))
    (ends : Ends rest) : Laid (enclosed found) rest := by
  have close : Laid [Piece.ofToken (.mark .rightParen ')')] rest :=
    .single (Token.mark_scanned rfl) (ends.separate _)
  refine .token (Token.mark_scanned rfl) ?_ (Laid.append ?_ close)
  · exact Opens.separate (by simpa using opens) _
  · simpa using inside

/-- An equals sign between blanks does not extend anything, and nothing extends it. -/
theorem assigning_laid {found : List Piece} {rest : List Char} (behind : Laid found rest) :
    Laid (assigning ++ found) rest :=
  .blank (.token (Token.mark_scanned rfl) ⟨by simp, by simp⟩ (.blank behind))

/-- A property access behind an expression. -/
theorem access_laid {object found : List Piece} {name : Token} {rest : List Char}
    (genuine : name.GenuineName Token.Scanned)
    (front : ∀ {rest}, Ends rest → Laid object rest)
    (apart : Separate name.kind (textOf found ++ rest)) (behind : Laid found rest) :
    Laid (object ++ .ofToken (.mark .dot '.') :: .ofToken name :: found) rest := by
  obtain ⟨c, tail, text, start⟩ := genuine.2.start genuine.1
  have opens := (name_opens genuine).append (textOf found ++ rest)
  refine Laid.append (front ?_) (.token (Token.mark_scanned rfl) ?_ (.token genuine.2 apart behind))
  · simp only [textOf, List.flatMap_cons, Piece.text_ofToken, Token.toList_mark, text]
    exact .access start
  · exact Opens.separate (by simpa using opens) _

mutual

/-- The pieces of the source form are cut off again. -/
theorem layout_laid : (expression : Expression) → expression.Genuine Token.Scanned →
    expression.Written → ∀ {rest : List Char}, Ends rest → Laid expression.layout rest
  | .literal _ value, _, written, _, ends => by
      simp only [layout]
      exact .single (Literal.token_scanned written) (ends.separate _)
  | .variable _ name, genuine, _, _, ends => by
      simp only [layout]
      exact .single genuine.2 (ends.separate _)
  | .this _ _, _, _, _, ends => by
      simp only [layout]
      exact .single (Token.reserved_scanned .this) (ends.separate _)
  | .grouping _ inner, genuine, written, rest, ends => by
      simp only [layout]
      exact enclosed_laid ((layout_opens inner genuine written).append _)
        (layout_laid inner genuine written .closing) ends
  | .unary _ operator operand, genuine, written, rest, ends => by
      have opens := layout_opens operand genuine.2 written
      simp only [layout]
      refine enclosed_laid ?_ (.token genuine.1.2 ?_
        (layout_laid operand genuine.2 written .closing)) ends
      · simpa using (unary_opens genuine.1.1 genuine.1.2).append _
      · rcases unary_kind genuine.1.1 with kind | kind <;> rw [kind] <;>
          exact (opens.append _).separate _
  | .binary _ left operator right, ⟨⟨_, scanned⟩, genuine⟩, written, rest, ends
  | .logical _ left operator right, ⟨⟨_, scanned⟩, genuine⟩, written, rest, ends => by
      have opens := (layout_opens left genuine.1 written.1).append
      simp only [layout]
      refine enclosed_laid ?_ (Laid.append (layout_laid left genuine.1 written.1 .blank)
        (.blank (.token scanned (Ends.blank.separate _) (.blank
          (layout_laid right genuine.2 written.2 .closing))))) ends
      simpa using opens _
  | .assign _ name value, genuine, written, rest, ends => by
      simp only [layout]
      refine enclosed_laid ?_ (.token genuine.1.2 (Ends.blank.separate _)
        (assigning_laid (layout_laid value genuine.2 written .closing))) ends
      simpa using (name_opens genuine.1).append _
  | .call _ callee _ arguments, genuine, written, rest, ends => by
      simp only [layout]
      refine Laid.append (layout_laid callee genuine.2.1 written.2.1 ?_) (enclosed_laid
        (layoutAll_opens arguments genuine.2.2 written.2.2 _)
        (layoutAll_laid arguments genuine.2.2 written.2.2) ends)
      rw [textOf_enclosed]
      exact .opening
  | .get _ object name, genuine, written, rest, ends => by
      simp only [layout]
      exact access_laid genuine.1 (layout_laid object genuine.2 written) (ends.separate _) .nil
  | .set _ object name value, genuine, written, rest, ends => by
      have opens := (layout_opens object genuine.2.1 written.1).append
      simp only [layout]
      refine enclosed_laid ?_ ?_ ends
      · simpa using opens _
      · rw [List.append_assoc]
        exact access_laid genuine.1 (layout_laid object genuine.2.1 written.1)
          (Ends.blank.separate _)
          (assigning_laid (layout_laid value genuine.2.2 written.2 .closing))

theorem layoutAll_laid : (expressions : List Expression) →
    Expression.AllGenuine Token.Scanned expressions → AllWritten expressions →
    ∀ {rest : List Char}, Laid (layoutAll expressions) (')' :: rest)
  | [], _, _, _ => .nil
  | [last], genuine, written, _ => layout_laid last genuine.1 written.1 .closing
  | expression :: next :: others, genuine, written, rest => by
      have behind : Laid (layoutAll (next :: others)) (')' :: rest) :=
        layoutAll_laid (next :: others) genuine.2 written.2
      refine Laid.append (layout_laid expression genuine.1 written.1 ?_)
        (.token (Token.mark_scanned rfl) ⟨by simp, by simp⟩ (.blank behind))
      simp only [textOf, List.flatMap_cons, Piece.text_ofToken, Token.toList_mark]
      exact .comma

end

end Expression

end Lox
