import Lox.Proofs.Source.Lexemes

/-!
Contract: how the reserved words and the names among the tokens of a source are spelled.

Owns: `Token.Spelled`, and that every token of a scanned text is.
-/

namespace Lox

/-- A reserved word is spelled as such, and a name is not. -/
structure Token.Spelled (token : Token) : Prop where
  keyword : ∀ keyword, token.kind = .keyword keyword → token.lexeme = keyword.spelling
  name : token.kind = .identifier → Keyword.ofSpelling? token.lexeme = none

theorem Keyword.spelling_of_ofSpelling? {text : String} {keyword : Keyword}
    (found : Keyword.ofSpelling? text = some keyword) : text = keyword.spelling := by
  have same := List.find?_some found
  exact (of_decide_eq_true same).symm

theorem Keyword.ofSpelling?_spelling (keyword : Keyword) :
    Keyword.ofSpelling? keyword.spelling = some keyword := by
  cases keyword <;> decide

/-- A name is spelled like no reserved word. -/
theorem Token.Spelled.ne_spelling {name : Token} (spelled : name.Spelled)
    (isName : name.isIdentifier) (keyword : Keyword) : name.lexeme ≠ keyword.spelling := by
  intro same
  have identifier : name.kind = .identifier := by
    unfold Token.isIdentifier at isName
    split at isName
    · assumption
    · cases isName
  have absent := spelled.name identifier
  rw [same, Keyword.ofSpelling?_spelling] at absent
  cases absent

theorem Token.Spelled.eq_spelling {token : Token} (spelled : token.Spelled) {keyword : Keyword}
    (isKeyword : token.isKeyword keyword) : token.lexeme = keyword.spelling := by
  unfold Token.isKeyword at isKeyword
  split at isKeyword
  case h_1 found kind =>
      obtain rfl : found = keyword := by simpa using isKeyword
      exact spelled.keyword found kind
  case h_2 => cases isKeyword

namespace Source

theorem nameKind_spelled (text : List Char) (line : Nat) :
    Token.Spelled ⟨Piece.nameKind text, String.ofList text, line⟩ := by
  unfold Piece.nameKind
  cases found : Keyword.ofSpelling? (String.ofList text) with
  | none => exact ⟨nofun, fun _ => found⟩
  | some keyword =>
      refine ⟨fun other same => ?_, nofun⟩
      cases same
      exact Keyword.spelling_of_ofSpelling? found

/-- Only words can be reserved words or names. -/
theorem Lexeme.spelled {kind : TokenKind} {text : List Char} (lexeme : Lexeme kind text)
    (line : Nat) : Token.Spelled ⟨kind, String.ofList text, line⟩ := by
  cases lexeme with
  | word => exact nameKind_spelled _ line
  | _ => exact ⟨nofun, nofun⟩

end Source

theorem Token.Scanned.spelled {token : Token} (scanned : token.Scanned) : token.Spelled := by
  have spelled := Source.Lexeme.spelled scanned token.line
  rwa [String.ofList_toList] at spelled

namespace Source

/-- The tokens of a source are spelled as they should be. -/
theorem scan_spelled (text : String) : ∀ token ∈ tokens (scan text), token.Spelled := by
  intro token member
  cases ends : token.isEof with
  | true =>
      unfold Token.isEof at ends
      split at ends
      case h_1 kind => exact ⟨by simp [kind], by simp [kind]⟩
      case h_2 => cases ends
  | false => exact (scan_scanned member ends).spelled

end Source

end Lox
