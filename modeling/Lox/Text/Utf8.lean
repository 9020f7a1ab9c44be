/-!
Contract: decoding of UTF-8, with a report of the first fault.

Owns:
- which bytes may start a sequence, how many must follow, and what the first of
  those may be, so that overlong forms, surrogates and code points past the last
  one are refused;
- `decode`, the text of a well-formed byte string or its first fault;
- the wording of a fault.
-/

namespace Lox.Utf8

/-- Why bytes are not well-formed, with the length of the well-formed part before. -/
inductive Fault where
  /-- The bytes end inside a sequence. -/
  | incomplete (index : Nat)
  /-- The first `length` bytes are the longest start of a sequence found there. -/
  | invalid (length index : Nat)
deriving DecidableEq, Repr

/-- What is wrong, in words. -/
def Fault.message : Fault → String
  | .incomplete index => "incomplete utf-8 byte sequence from index " ++ toString index
  | .invalid length index =>
      "invalid utf-8 sequence of " ++ toString length ++ " bytes from index " ++ toString index

/-- The form of sequences that start with a given byte. -/
structure Lead where
  /-- What the first byte contributes to the code point. -/
  payload : Nat
  /-- How many bytes follow. -/
  following : Nat
  /-- The least byte that may come second. -/
  least : Nat
  /-- The greatest byte that may come second. -/
  greatest : Nat

/-- The form of sequences of several bytes that start with a byte, if it may start one. -/
def Lead.ofByte? (byte : Nat) : Option Lead :=
  if 0xC2 ≤ byte ∧ byte ≤ 0xDF then some ⟨byte - 0xC0, 1, 0x80, 0xBF⟩
  else if byte = 0xE0 then some ⟨0, 2, 0xA0, 0xBF⟩
  else if byte = 0xED then some ⟨0xD, 2, 0x80, 0x9F⟩
  else if 0xE1 ≤ byte ∧ byte ≤ 0xEF then some ⟨byte - 0xE0, 2, 0x80, 0xBF⟩
  else if byte = 0xF0 then some ⟨0, 3, 0x90, 0xBF⟩
  else if 0xF1 ≤ byte ∧ byte ≤ 0xF3 then some ⟨byte - 0xF0, 3, 0x80, 0xBF⟩
  else if byte = 0xF4 then some ⟨4, 3, 0x80, 0x8F⟩
  else none

/-- The first step of decoding. -/
inductive Step where
  | done
  | char (c : Char) (rest : List Nat)
  /-- The bytes end after a proper start of a sequence. -/
  | cut
  | bad (length : Nat)

/-- Read the remaining bytes of a sequence, of which `taken` have been read. Only
the first of them has bounds narrower than `0x80` to `0xBF`. -/
def continuation (payload taken least greatest : Nat) : Nat → List Nat → Step
  | 0, rest => .char (Char.ofNat payload) rest
  | _ + 1, [] => .cut
  | following + 1, byte :: rest =>
      if least ≤ byte ∧ byte ≤ greatest then
        continuation (payload * 64 + (byte - 0x80)) (taken + 1) 0x80 0xBF following rest
      else
        .bad taken

/-- Read the first character of a byte string. -/
def step : List Nat → Step
  | [] => .done
  | byte :: rest =>
      if byte < 0x80 then .char (Char.ofNat byte) rest
      else
        match Lead.ofByte? byte with
        | none => .bad 1
        | some lead => continuation lead.payload 1 lead.least lead.greatest lead.following rest

theorem length_le_of_continuation {payload taken least greatest following : Nat}
    {bytes rest : List Nat} {c : Char}
    (read : continuation payload taken least greatest following bytes = .char c rest) :
    rest.length ≤ bytes.length := by
  induction following generalizing payload taken least greatest bytes with
  | zero => simp_all [continuation]
  | succ following inductionHypothesis =>
      cases bytes with
      | nil => simp [continuation] at read
      | cons byte bytes =>
          simp only [continuation] at read
          split at read
          · have := inductionHypothesis read
            simp only [List.length_cons]
            omega
          · simp at read

theorem length_lt_of_step {bytes rest : List Nat} {c : Char}
    (read : step bytes = .char c rest) : rest.length < bytes.length := by
  cases bytes with
  | nil => simp [step] at read
  | cons byte bytes =>
      simp only [step] at read
      split at read
      · simp_all
      · split at read
        · simp at read
        · have := length_le_of_continuation read
          simp only [List.length_cons]
          omega

/-- Decode bytes of which `index` have been read before. -/
def decodeFrom (index : Nat) (bytes : List Nat) (decoded : List Char) :
    Except Fault String :=
  match _read : step bytes with
  | .done => .ok (String.ofList decoded.reverse)
  | .char c rest => decodeFrom (index + c.utf8Size) rest (c :: decoded)
  | .cut => .error (.incomplete index)
  | .bad length => .error (.invalid length index)
termination_by bytes.length
decreasing_by exact length_lt_of_step (by assumption)

/-- The text that bytes encode. -/
def decode (bytes : List Nat) : Except Fault String :=
  decodeFrom 0 bytes []

end Lox.Utf8
