import Lox.Machine
import Lox.Proofs.Syntax.Printed

/-!
Contract: printed numbers scan back.

Owns:
- that the text of a finite magnitude is one number token in front of any text that does not go on
  with it, and that the number of the token is the one printed;
- the same of words of 64 bits, with their signs.
-/

namespace Lox

open Number

/-- A numeral has no newline. -/
theorem Number.Spells.noNewline {whole fraction text : List Char} {bits : Nat}
    (spells : Spells whole fraction text bits) : text.count '\n' = 0 := by
  refine List.count_eq_zero.mpr fun member => ?_
  have inside : '\n' ∈ whole ∨ '\n' ∈ fraction := by
    rw [spells.text] at member
    split at member
    · exact .inl member
    · simpa using member
  rcases inside with among | among
  · exact absurd (spells.wholeDigits _ among) (by decide)
  · exact absurd (spells.fractionDigits _ among) (by decide)

namespace Source

/-- A lexeme without newlines is scanned as one token in front of any text that does not extend
it. -/
theorem scan_of_lexeme {kind : TokenKind} {text rest : String} (lexeme : Lexeme kind text.toList)
    (line : text.toList.count '\n' = 0) (apart : Separate kind rest.toList) :
    scan (text ++ rest) = .ok ⟨kind, text, 1⟩ :: scan rest := by
  have first (found : List Piece) : itemsFrom 1 (⟨.token kind, text.toList⟩ :: found) =
      .ok ⟨kind, String.ofList text.toList, 1⟩ ::
        itemsFrom (1 + text.toList.count '\n') found := rfl
  unfold scan
  rw [String.toList_append, pieces_of_lexeme lexeme apart, first, line, String.ofList_toList]

end Source

/-! ### Magnitudes -/

/-- The text of a finite magnitude is one number token, and the number is that magnitude. -/
theorem scan_of_magnitude {bits : Nat} (finite : bits < infinityBits) {rest : String}
    (apart : Source.Separate (.number (ofMagnitudeBits bits)) rest.toList) :
    let text := Layout.display.write (ofMagnitudeBits bits)
    Source.scan (text ++ rest) =
      .ok ⟨.number (ofMagnitudeBits bits), text, 1⟩ :: Source.scan rest := by
  intro text
  have inside := Nat.le_of_lt finite
  have written : (Literal.number (ofMagnitudeBits bits)).Written := ⟨bits, inside, rfl⟩
  have lexeme := Literal.token_scanned written
  unfold Token.Scanned Literal.token at lexeme
  dsimp only at lexeme
  rw [Literal.kind_ofMagnitudeBits inside, if_neg (Nat.ne_of_lt finite)] at lexeme
  refine Source.scan_of_lexeme lexeme ?_ apart
  obtain ⟨whole, fraction, spells⟩ := magnitudeText_spells finite
  rw [Number.write_ofMagnitudeBits inside, if_neg (Nat.ne_of_lt finite)]
  exact spells.noNewline

/-- A negative number is printed as a minus and its absolute value. -/
theorem write_of_negative {word : UInt64} (finite : word.toNat % 2 ^ 63 < infinityBits)
    (negative : 2 ^ 63 ≤ word.toNat) :
    Layout.display.write (Float.ofBits word) =
      "-" ++ Layout.display.write (Float.ofBits word).abs := by
  have number := Nat.le_of_lt finite
  rw [abs_ofBits number]
  refine String.toList_injective ?_
  rw [String.toList_append, Number.write_ofMagnitudeBits number, if_neg (Nat.ne_of_lt finite)]
  unfold Layout.write
  dsimp only
  rw [magnitudeBits_ofBits number, isNegative_ofBits number, if_neg (Nat.not_lt.mpr number),
    String.toList_ofList, if_neg (Nat.ne_of_lt finite), decide_eq_true negative]
  have always : Layout.display.fullZeroSign = true := rfl
  simp [always]

/-! ### Words -/

/-- A finite number is printed without an exponent, and what is printed for one without a sign is
scanned as one token, the number itself, in front of any text that does not begin with a digit or
with a point and a digit. With a sign it is the text of the absolute value behind a minus. -/
theorem printed_number_scans {word : UInt64} (finite : word.toNat % 2 ^ 63 < infinityBits) :
    let number := Float.ofBits word
    let text := (Literal.number number).sourceForm
    (∀ id, (Expression.literal id (.number number)).sourceForm = text) ∧
      (∀ machine : Machine, machine.display (.number number) = text) ∧
      (word.toNat < 2 ^ 63 →
        (∃ shown, Shown word.toNat shown ∧ text = String.ofList shown) ∧
        number.toBits = word ∧
        ∀ rest : String, rest.toList.head?.any Char.isDigit = false →
          (∀ c more, rest.toList = '.' :: c :: more → c.isDigit = false) →
          Source.scan (text ++ rest) = .ok ⟨.number number, text, 1⟩ :: Source.scan rest) ∧
      (2 ^ 63 ≤ word.toNat →
        number.abs.toBits.toNat = word.toNat - 2 ^ 63 ∧
        text = "-" ++ (Literal.number number.abs).sourceForm) := by
  intro number text
  have bounded := Nat.le_of_lt finite
  refine ⟨fun id => ?_, fun machine => rfl, fun positive => ?_, fun negative => ?_⟩
  · unfold Expression.sourceForm
    rfl
  · have magnitude : word.toNat % 2 ^ 63 = word.toNat := Nat.mod_eq_of_lt positive
    rw [magnitude] at finite bounded
    have same : number = ofMagnitudeBits word.toNat := by
      show Float.ofBits word = Float.ofBits (UInt64.ofNat word.toNat)
      rw [UInt64.ofNat_toNat]
    have written : text = Layout.display.write (ofMagnitudeBits word.toNat) :=
      congrArg Layout.display.write same
    refine ⟨⟨_, magnitudeText_shown finite, ?_⟩, toBits_ofBits (magnitude.trans_le bounded),
      fun rest digit point => ?_⟩
    · refine written.trans (String.toList_injective ?_)
      rw [Number.write_ofMagnitudeBits bounded, if_neg (Nat.ne_of_lt finite), String.toList_ofList]
    · rw [written, same]
      exact scan_of_magnitude finite ⟨digit, point⟩
  · refine ⟨?_, write_of_negative finite negative⟩
    have kept : word.toNat % 2 ^ 63 = word.toNat - 2 ^ 63 := by
      have small := word.toNat_lt
      omega
    show (Float.ofBits word).abs.toBits.toNat = _
    rw [abs_ofBits bounded, toBits_ofMagnitudeBits bounded, toNat_ofNat bounded, kept]

/-- The smallest number other than zero has 324 places. In front of a point that no digit follows it
is one token, and with a sign there is a minus in front of it. -/
theorem smallest_number_scans :
    let text := String.ofList ('0' :: '.' :: (List.replicate 323 '0' ++ ['5']))
    (1 : UInt64).toNat % 2 ^ 63 < infinityBits ∧
      (0x8000000000000001 : UInt64).toNat % 2 ^ 63 < infinityBits ∧
      Source.scan (text ++ ".") =
        .ok ⟨.number (Float.ofBits 1), text, 1⟩ :: Source.scan "." ∧
      (Literal.number (Float.ofBits 0x8000000000000001)).sourceForm = "-" ++ text := by
  intro text
  have finite : (1 : UInt64).toNat % 2 ^ 63 < infinityBits := by decide
  have signed : (0x8000000000000001 : UInt64).toNat % 2 ^ 63 < infinityBits := by decide
  have printed : (Literal.number (Float.ofBits 1)).sourceForm = text := by decide +kernel
  have absolute : (Literal.number (Float.ofBits 0x8000000000000001).abs).sourceForm = text := by
    decide +kernel
  have scanned := ((printed_number_scans finite).2.2.1 (by decide)).2.2 "." (by decide)
    (fun c more point => by cases point)
  have minus := ((printed_number_scans signed).2.2.2 (by decide)).2
  rw [printed] at scanned
  rw [absolute] at minus
  exact ⟨finite, signed, scanned, minus⟩

end Lox
