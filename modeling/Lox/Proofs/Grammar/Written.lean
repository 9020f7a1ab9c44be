import Lox.Proofs.Grammar.Trees
import Lox.Proofs.Number.Rounding
import Lox.Proofs.Source.Lexemes

/-!
Contract: the constants and the argument lists of expressions that were read from a source.

Owns:
- `Literal.Written`: a number has no sign and is a number or infinite, and a string has no
  quotes inside;
- `Expression.Written`: all constants are such, and no argument list is too long;
- `Reads.written`: what the tokens of a source read as is such.

Does not own: the tokens in expressions.
-/

namespace Lox

open Number (infinityBits ofMagnitudeBits)

/-- A constant that a token of a source can stand for. -/
def Literal.Written : Literal → Prop
  | .number value => ∃ bits ≤ infinityBits, value = ofMagnitudeBits bits
  | .string contents => '"' ∉ contents.toList
  | _ => True

/-- A token of a source stands for such constants only. -/
theorem Token.Scanned.written {token : Token} (scanned : token.Scanned) {value : Literal}
    (stands : Grammar.StandsFor token.kind value) : value.Written := by
  unfold Token.Scanned at scanned
  generalize token.kind = kind at scanned stands
  generalize token.lexeme.toList = text at scanned
  cases scanned with
  | string inside =>
      cases stands
      show '"' ∉ (String.ofList _).toList
      rwa [String.toList_ofList]
  | number =>
      cases stands
      exact ⟨_, Number.Decimal.magnitudeBits_le _, rfl⟩
  | @word first tail =>
      rcases Source.nameKind_cases (first :: tail) with name | ⟨keyword, reserved⟩
      · rw [name] at stands
        cases stands
      · rw [reserved] at stands
        cases keyword <;> cases stands <;> trivial
  | symbol => cases stands
  | withEqual => cases stands

namespace Expression

mutual

/-- All constants can come from a source, and all argument lists are short enough. -/
def Written : Expression → Prop
  | .literal _ value => value.Written
  | .variable _ _ | .this _ _ => True
  | .grouping _ inner | .unary _ _ inner | .assign _ _ inner | .get _ inner _ => inner.Written
  | .binary _ left _ right | .logical _ left _ right | .set _ left _ right =>
      left.Written ∧ right.Written
  | .call _ callee _ arguments =>
      arguments.length ≤ Grammar.maxEntries ∧ callee.Written ∧ AllWritten arguments

/-- The same for several expressions. -/
def AllWritten : List Expression → Prop
  | [] => True
  | expression :: rest => expression.Written ∧ AllWritten rest

end

end Expression

namespace Grammar

/-- The expressions of a phrase, as far as it is part of an expression, are written. -/
def Phrase.Written : Phrase → Prop
  | expression _ value => value.Written
  | operations _ left value | accesses left value => left.Written → value.Written
  | items values | arguments values => Expression.AllWritten values
  | _ => True

theorem make_written (level : BinaryLevel) (id : Nat) {left right : Expression}
    (operator : Token) (leftWritten : left.Written) (rightWritten : right.Written) :
    (level.make id left operator right).Written := by
  cases level <;> exact ⟨leftWritten, rightWritten⟩

/-- By induction on the reading. Statements say nothing here. -/
theorem Reads.written {word : List Token} {first next : Nat} {phrase : Phrase}
    (read : Reads word first phrase next)
    (scanned : ∀ token ∈ word, ∀ value, StandsFor token.kind value → value.Written) :
    phrase.Written := by
  induction read <;> try simp only [List.forall_mem_cons, List.forall_mem_append] at scanned
  case literal isLiteral => exact scanned.1 _ isLiteral
  case grouping inner => exact inner scanned.1.2
  case noAccess | noOperation => exact id
  case call _ _ few _ _ arguments rest =>
      exact fun callee => rest scanned.2.2 ⟨few, callee, arguments scanned.1.2⟩
  case get rest => exact fun object => rest scanned.2.2 object
  case accessed left rest => exact rest scanned.2 (left scanned.1)
  case someArguments items => exact items scanned
  case lastItem item => exact ⟨item scanned, trivial⟩
  case nextItem item items => exact ⟨item scanned.1, items scanned.2.2⟩
  case notNegated operand => exact operand scanned
  case negated operand => exact operand scanned.2
  case operation right rest =>
      exact fun left => rest scanned.2 (make_written _ _ _ left (right scanned.1.2))
  case binary left rest => exact rest scanned.2 (left scanned.1)
  case notAssigned value => exact value scanned
  case assigned value => exact value scanned.2.2
  case propertyAssigned object value => exact ⟨object scanned.1, value scanned.2.2.2.2⟩
  all_goals trivial

end Grammar

end Lox
