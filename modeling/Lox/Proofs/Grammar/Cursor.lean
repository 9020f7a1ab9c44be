import Lox.Grammar.Program

/-!
Contract: what the basic steps of a parser read.

Owns:
- `Cursor.moved`, the cursor behind a word that was read without reporting an
  error, and what each basic step does at a moved cursor;
- `Parser.Yields`, what a parser has read when it gives a result and no error has
  been reported, with a rule for each basic step and for sequences.

Errors are reported once and for all: a parser that ends with none reported has
met none on its way.
-/

namespace Lox.Grammar

/-- The cursor behind a word: other tokens are left, and another number is next. -/
def Cursor.moved (cursor : Cursor) (rest : List Token) (next : Nat) : Cursor :=
  { cursor with rest := rest, nextId := next }

namespace Cursor

@[simp] theorem moved_rest (cursor : Cursor) (rest : List Token) (next : Nat) :
    (cursor.moved rest next).rest = rest := rfl

@[simp] theorem moved_nextId (cursor : Cursor) (rest : List Token) (next : Nat) :
    (cursor.moved rest next).nextId = next := rfl

@[simp] theorem moved_bound (cursor : Cursor) (rest : List Token) (next : Nat) :
    (cursor.moved rest next).bound = cursor.bound := rfl

@[simp] theorem moved_errors (cursor : Cursor) (rest : List Token) (next : Nat) :
    (cursor.moved rest next).errors = cursor.errors := rfl

@[simp] theorem moved_moved (cursor : Cursor) (rest other : List Token) (next number : Nat) :
    (cursor.moved rest next).moved other number = cursor.moved other number := rfl

@[simp] theorem moved_self (cursor : Cursor) :
    cursor.moved cursor.rest cursor.nextId = cursor := rfl

end Cursor

namespace Parser

variable {α β : Type}

/-! ### Steps at a moved cursor -/

section Steps

variable {cursor : Cursor} {rest : List Token} {next : Nat}

theorem bind_of_ok {first : Parser α} {second : α → Parser β} {start middle : Cursor} {value : α}
    (read : first start = .ok value middle) :
    (first >>= second) start = second value middle := by
  simp only [bind, EStateM.bind, read]

theorem then_of_ok {first : Parser α} {second : α → Parser β} {start middle : Cursor} {value : α}
    {result : EStateM.Result SyntaxError Cursor β} (read : first start = .ok value middle)
    (following : second value middle = result) : (first >>= second) start = result :=
  (bind_of_ok read).trans following

theorem map_of_ok (transform : α → β) {parser : Parser α} {start final : Cursor} {value : α}
    (read : parser start = .ok value final) :
    (transform <$> parser) start = .ok (transform value) final := by
  simp only [Functor.map, EStateM.map, read]

@[simp] theorem pure_apply (value : α) (start : Cursor) :
    (pure value : Parser α) start = .ok value start := rfl

@[simp] theorem get_apply (start : Cursor) : (get : Parser Cursor) start = .ok start start := rfl

theorem take?_cons {condition : Token → Bool} {token : Token} (holds : condition token) :
    take? condition (cursor.moved (token :: rest) next) =
      .ok (some token) (cursor.moved rest next) := by
  unfold take?
  rw [bind_of_ok (get_apply _)]
  simp only [Cursor.moved_rest, holds, ↓reduceIte]
  rfl

theorem take?_stop {condition : Token → Bool}
    (stops : rest.head?.any condition = false) :
    take? condition (cursor.moved rest next) = .ok none (cursor.moved rest next) := by
  unfold take?
  rw [bind_of_ok (get_apply _)]
  cases rest with
  | nil => rfl
  | cons token rest =>
      have fails : condition token = false := by simpa using stops
      simp only [Cursor.moved_rest, fails, Bool.false_eq_true, ↓reduceIte]
      rfl

theorem skip?_cons {symbol : Symbol} {token : Token} (holds : token.isSymbol symbol) :
    skip? symbol (cursor.moved (token :: rest) next) = .ok true (cursor.moved rest next) := by
  unfold skip?
  rw [bind_of_ok (take?_cons holds)]
  rfl

theorem skip?_stop {symbol : Symbol}
    (stops : rest.head?.any (Token.isSymbol symbol) = false) :
    skip? symbol (cursor.moved rest next) = .ok false (cursor.moved rest next) := by
  unfold skip?
  rw [bind_of_ok (take?_stop stops)]
  rfl

theorem skipKeyword?_cons {keyword : Keyword} {token : Token} (holds : token.isKeyword keyword) :
    skipKeyword? keyword (cursor.moved (token :: rest) next) =
      .ok true (cursor.moved rest next) := by
  unfold skipKeyword?
  rw [bind_of_ok (take?_cons holds)]
  rfl

theorem skipKeyword?_stop {keyword : Keyword}
    (stops : rest.head?.any (Token.isKeyword keyword) = false) :
    skipKeyword? keyword (cursor.moved rest next) = .ok false (cursor.moved rest next) := by
  unfold skipKeyword?
  rw [bind_of_ok (take?_stop stops)]
  rfl

theorem require_cons (mark : Mark) {token : Token} (holds : token.isSymbol mark.symbol) :
    require mark (cursor.moved (token :: rest) next) = .ok token (cursor.moved rest next) := by
  unfold require
  rw [bind_of_ok (take?_cons holds)]
  rfl

theorem requireName_cons {role : NameRole} {token : Token} (holds : token.isIdentifier) :
    requireName role (cursor.moved (token :: rest) next) = .ok token (cursor.moved rest next) := by
  unfold requireName
  rw [bind_of_ok (take?_cons holds)]
  rfl

theorem node_moved (make : Nat → Expression) :
    node make (cursor.moved rest next) = .ok (make next) (cursor.moved rest (next + 1)) := rfl

theorem at?_moved (condition : Token → Bool) :
    at? condition (cursor.moved rest next) =
      .ok (rest.head?.any condition) (cursor.moved rest next) := rfl

theorem atEnd_moved :
    atEnd (cursor.moved rest next) = .ok rest.isEmpty (cursor.moved rest next) := rfl

theorem recover_of_ok {parser : Parser α} {start final : Cursor} {value : α}
    (read : parser start = .ok value final) :
    recover parser start = .ok (some value) final := by
  simp only [recover, read]

end Steps

/-! ### What a parser has read -/

/-- What a parser has read if it gives a result and no error has been reported: a word
which, with the numbers before and behind it, the result and the tokens left, satisfies
a relation. The bound of a cursor is beyond the number of tokens. -/
def Yields (parser : Parser α)
    (reading : List Token → Nat → α → Nat → List Token → Prop) : Prop :=
  ∀ ⦃start : Cursor⦄ ⦃value : α⦄ ⦃final : Cursor⦄,
    parser start = .ok value final → final.errors = [] →
    ∃ word rest next, start.rest = word ++ rest ∧ final = start.moved rest next ∧
      (start.rest.length < start.bound → reading word start.nextId value next rest)

namespace Yields

theorem mono {parser : Parser α} {reading other : List Token → Nat → α → Nat → List Token → Prop}
    (yields : parser.Yields reading)
    (implies : ∀ word first value next rest,
      reading word first value next rest → other word first value next rest) :
    parser.Yields other := by
  intro start value final read quiet
  obtain ⟨word, rest, next, split, moved, holds⟩ := yields read quiet
  exact ⟨word, rest, next, split, moved, fun bounded => implies _ _ _ _ _ (holds bounded)⟩

/-- The word of a sequence is made up of a word for each part. -/
theorem bind {first : Parser α} {second : α → Parser β}
    {reading : List Token → Nat → α → Nat → List Token → Prop}
    {whole : List Token → Nat → β → Nat → List Token → Prop}
    (yields : first.Yields reading)
    (following : ∀ value, (second value).Yields fun rest middle result next left =>
      ∀ word number, reading word number value middle (rest ++ left) →
        whole (word ++ rest) number result next left) :
    (first >>= second).Yields whole := by
  intro start result final read quiet
  simp only [Bind.bind, EStateM.bind] at read
  split at read
  case h_2 => cases read
  case h_1 value middle readFirst =>
      obtain ⟨rest, left, next, splitRest, rfl, holdsRest⟩ := following value read quiet
      obtain ⟨word, _, number, splitFirst, rfl, holdsFirst⟩ := yields readFirst quiet
      rw [Cursor.moved_rest] at splitRest
      subst splitRest
      refine ⟨word ++ rest, left, next, ?_, rfl, fun bounded => ?_⟩
      · rw [splitFirst, List.append_assoc]
      · refine holdsRest (Nat.lt_of_le_of_lt ?_ bounded) word start.nextId (holdsFirst bounded)
        rw [splitFirst, Cursor.moved_rest]
        exact (List.suffix_append word (rest ++ left)).length_le

theorem pure (value : α) :
    (Pure.pure value : Parser α).Yields
      fun word first result next _ => word = [] ∧ result = value ∧ next = first := by
  intro start result final read quiet
  cases read
  exact ⟨[], start.rest, start.nextId, rfl, rfl, fun _ => ⟨rfl, rfl, rfl⟩⟩

theorem map (transform : α → β) {parser : Parser α}
    {reading : List Token → Nat → α → Nat → List Token → Prop} (yields : parser.Yields reading) :
    (transform <$> parser).Yields fun word first result next rest =>
      ∃ value, result = transform value ∧ reading word first value next rest := by
  intro start result final read quiet
  simp only [Functor.map, EStateM.map] at read
  split at read
  case h_2 => cases read
  case h_1 value following readInside =>
      cases read
      obtain ⟨word, rest, next, split, moved, holds⟩ := yields readInside quiet
      exact ⟨word, rest, next, split, moved, fun bounded => ⟨value, rfl, holds bounded⟩⟩

theorem get : (MonadState.get : Parser Cursor).Yields
    fun word first cursor next rest => word = [] ∧ next = first ∧ rest.length < cursor.bound := by
  intro start result final read quiet
  cases read
  exact ⟨[], start.rest, start.nextId, rfl, rfl, fun bounded => ⟨rfl, rfl, bounded⟩⟩

theorem failHere (fault : SyntaxFault)
    (reading : List Token → Nat → α → Nat → List Token → Prop) :
    (Parser.failHere fault : Parser α).Yields reading := by
  intro start result final read quiet
  cases read

/-- Whoever reports an error does not go unnoticed. -/
theorem report (token : Token) (fault : SyntaxFault)
    (reading : List Token → Nat → Unit → Nat → List Token → Prop) :
    (Parser.report token fault).Yields reading := by
  intro start result final read quiet
  cases read
  simp [Cursor.report] at quiet

theorem take? (condition : Token → Bool) :
    (Parser.take? condition).Yields fun word first found next rest =>
      next = first ∧
        match found with
        | some token => word = [token] ∧ condition token
        | none => word = [] ∧ rest.head?.any condition = false := by
  intro start result final read quiet
  have here : start = start.moved start.rest start.nextId := rfl
  rw [here] at read
  cases left : start.rest with
  | nil =>
      rw [left, take?_stop rfl] at read
      cases read
      exact ⟨[], [], start.nextId, rfl, rfl, fun _ => ⟨rfl, rfl, rfl⟩⟩
  | cons token rest =>
      by_cases holds : condition token
      · rw [left, take?_cons holds] at read
        cases read
        exact ⟨[token], rest, start.nextId, rfl, rfl, fun _ => ⟨rfl, rfl, holds⟩⟩
      · have stops : (token :: rest).head?.any condition = false := by simpa using holds
        rw [left, take?_stop stops] at read
        cases read
        exact ⟨[], token :: rest, start.nextId, rfl, rfl, fun _ => ⟨rfl, rfl, stops⟩⟩

theorem skip? (symbol : Symbol) :
    (Parser.skip? symbol).Yields fun word first found next rest =>
      next = first ∧
        if found then ∃ token, word = [token] ∧ token.isSymbol symbol
        else word = [] ∧ rest.head?.any (Token.isSymbol symbol) = false := by
  refine (take? _).bind fun found => (pure _).mono ?_
  rintro _ _ _ _ rest ⟨rfl, rfl, rfl⟩ word first ⟨rfl, holds⟩
  cases found with
  | none => simpa using holds
  | some token => exact ⟨rfl, token, by simpa using holds⟩

theorem skipKeyword? (keyword : Keyword) :
    (Parser.skipKeyword? keyword).Yields fun word first found next rest =>
      next = first ∧
        if found then ∃ token, word = [token] ∧ token.isKeyword keyword
        else word = [] ∧ rest.head?.any (Token.isKeyword keyword) = false := by
  refine (take? _).bind fun found => (pure _).mono ?_
  rintro _ _ _ _ rest ⟨rfl, rfl, rfl⟩ word first ⟨rfl, holds⟩
  cases found with
  | none => simpa using holds
  | some token => exact ⟨rfl, token, by simpa using holds⟩

/-- A branch behind a symbol, and another one where the symbol is missing. -/
theorem ifSymbol {symbol : Symbol} {behind otherwise : Parser α}
    {whole : List Token → Nat → α → Nat → List Token → Prop}
    (found : behind.Yields fun word first result next rest => ∀ token : Token,
      token.isSymbol symbol → whole (token :: word) first result next rest)
    (missing : otherwise.Yields whole) :
    (Parser.skip? symbol >>= fun skipped => if skipped then behind else otherwise).Yields
      whole := by
  refine (skip? _).bind fun skipped => ?_
  cases skipped with
  | true =>
      refine found.mono ?_
      rintro word _ result next rest read _ _ ⟨rfl, token, rfl, isSymbol⟩
      exact read token isSymbol
  | false =>
      refine missing.mono ?_
      rintro word _ result next rest read _ _ ⟨rfl, rfl, _⟩
      exact read

/-- A branch behind a keyword, and another one where the keyword is missing. -/
theorem ifKeyword {keyword : Keyword} {behind otherwise : Parser α}
    {whole : List Token → Nat → α → Nat → List Token → Prop}
    (found : behind.Yields fun word first result next rest => ∀ token : Token,
      token.isKeyword keyword → whole (token :: word) first result next rest)
    (missing : otherwise.Yields whole) :
    (Parser.skipKeyword? keyword >>= fun skipped => if skipped then behind else otherwise).Yields
      whole := by
  refine (skipKeyword? _).bind fun skipped => ?_
  cases skipped with
  | true =>
      refine found.mono ?_
      rintro word _ result next rest read _ _ ⟨rfl, token, rfl, isKeyword⟩
      exact read token isKeyword
  | false =>
      refine missing.mono ?_
      rintro word _ result next rest read _ _ ⟨rfl, rfl, _⟩
      exact read

theorem require (mark : Mark) :
    (Parser.require mark).Yields fun word first token next _ =>
      next = first ∧ word = [token] ∧ token.isSymbol mark.symbol := by
  refine (take? _).bind fun found => ?_
  cases found with
  | none => exact failHere _ _
  | some token =>
      refine (pure _).mono ?_
      rintro _ _ _ _ rest ⟨rfl, rfl, rfl⟩ word first ⟨rfl, rfl, holds⟩
      exact ⟨rfl, rfl, holds⟩

theorem requireName (role : NameRole) :
    (Parser.requireName role).Yields fun word first token next _ =>
      next = first ∧ word = [token] ∧ token.isIdentifier := by
  refine (take? _).bind fun found => ?_
  cases found with
  | none => exact failHere _ _
  | some token =>
      refine (pure _).mono ?_
      rintro _ _ _ _ rest ⟨rfl, rfl, rfl⟩ word first ⟨rfl, rfl, holds⟩
      exact ⟨rfl, rfl, holds⟩

theorem node (make : Nat → Expression) :
    (Parser.node make).Yields fun word first value next _ =>
      word = [] ∧ value = make first ∧ next = first + 1 := by
  intro start result final read quiet
  cases read
  exact ⟨[], start.rest, start.nextId + 1, rfl, rfl, fun _ => ⟨rfl, rfl, rfl⟩⟩

theorem at? (condition : Token → Bool) :
    (Parser.at? condition).Yields fun word first holds next rest =>
      word = [] ∧ next = first ∧ rest.head?.any condition = holds := by
  intro start result final read quiet
  cases read
  exact ⟨[], start.rest, start.nextId, rfl, rfl, fun _ => ⟨rfl, rfl, rfl⟩⟩

theorem atEnd :
    Parser.atEnd.Yields fun word first holds next rest =>
      word = [] ∧ next = first ∧ rest.isEmpty = holds := by
  intro start result final read quiet
  cases read
  exact ⟨[], start.rest, start.nextId, rfl, rfl, fun _ => ⟨rfl, rfl, rfl⟩⟩

theorem takeAll (condition : Token → Bool) :
    (Parser.takeAll condition).Yields fun word first taken next _ =>
      word = taken ∧ next = first ∧ ∀ token ∈ taken, condition token := by
  intro start result final read quiet
  cases read
  refine ⟨start.rest.takeWhile condition, _, start.nextId, ?_, rfl, fun _ => ⟨rfl, rfl, ?_⟩⟩
  · exact (List.prefix_iff_eq_append.mp (List.takeWhile_prefix condition)).symm
  · exact List.all_eq_true.mp List.all_takeWhile

/-- No error has been reported, so recovering was not needed. -/
theorem recover {parser : Parser α}
    {reading : List Token → Nat → α → Nat → List Token → Prop} (yields : parser.Yields reading) :
    (Parser.recover parser).Yields fun word first found next rest =>
      ∃ value, found = some value ∧ reading word first value next rest := by
  intro start result final read quiet
  unfold Parser.recover at read
  split at read
  case h_1 value following accepted =>
      cases read
      obtain ⟨word, rest, next, split, moved, holds⟩ := yields accepted quiet
      exact ⟨word, rest, next, split, moved, fun bounded => ⟨value, rfl, holds bounded⟩⟩
  case h_2 error following refused =>
      cases read
      unfold Cursor.synchronize Cursor.report at quiet
      split at quiet <;> simp at quiet

end Yields

end Parser

end Lox.Grammar
