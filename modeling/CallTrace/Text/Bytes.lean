/-!
# Bytes as text

The UTF-8 bytes of a text, the text of visible ASCII bytes, the reading of arbitrary bytes with a
replacement character for what is no UTF-8, and the base64 form of bytes without padding.
-/

namespace CallTrace.Bytes

def ofText (s : String) : List UInt8 := s.toList.flatMap String.utf8EncodeChar

def ascii (bytes : List UInt8) : String := String.ofList (bytes.map fun b => Char.ofNat b.toNat)

/-- What a UTF-8 reader still expects: so many bytes, the next of them between two bounds. -/
structure Pending where
  missing : Nat
  low : UInt8
  high : UInt8
  code : Nat

def replacement : Char := '\uFFFD'

-- What a leading byte starts: a character, a sequence, or nothing.
def lead (b : UInt8) : Char ⊕ Option Pending :=
  if b < 0x80 then .inl (Char.ofNat b.toNat)
  else if 0xC2 ≤ b ∧ b ≤ 0xDF then .inr (some ⟨1, 0x80, 0xBF, b.toNat - 0xC0⟩)
  else if 0xE0 ≤ b ∧ b ≤ 0xEF then
    .inr (some ⟨2, if b = 0xE0 then 0xA0 else 0x80, if b = 0xED then 0x9F else 0xBF,
      b.toNat - 0xE0⟩)
  else if 0xF0 ≤ b ∧ b ≤ 0xF4 then
    .inr (some ⟨3, if b = 0xF0 then 0x90 else 0x80, if b = 0xF4 then 0x8F else 0xBF,
      b.toNat - 0xF0⟩)
  else .inr none

def readFrom : Option Pending → List UInt8 → List Char
  | none, [] => []
  | some _, [] => [replacement]
  | none, b :: rest =>
    match lead b with
    | .inl c => c :: readFrom none rest
    | .inr (some p) => readFrom (some p) rest
    | .inr none => replacement :: readFrom none rest
  | some p, b :: rest =>
    if p.low ≤ b ∧ b ≤ p.high then
      let code := p.code * 64 + (b.toNat - 0x80)
      if p.missing = 1 then Char.ofNat code :: readFrom none rest
      else readFrom (some ⟨p.missing - 1, 0x80, 0xBF, code⟩) rest
    else
      -- The bytes read so far give one replacement, and the byte at hand starts afresh.
      replacement ::
        match lead b with
        | .inl c => c :: readFrom none rest
        | .inr (some p') => readFrom (some p') rest
        | .inr none => replacement :: readFrom none rest

/-- Reads UTF-8; each longest start of a sequence that does not go on becomes one replacement. -/
def readText (bytes : List UInt8) : String := String.ofList (readFrom none bytes)

def base64Digit (n : Nat) : Char :=
  if n < 26 then Char.ofNat (65 + n)
  else if n < 52 then Char.ofNat (71 + n)
  else if n < 62 then Char.ofNat (n - 4)
  else if n = 62 then '+' else '/'

def base64 : List UInt8 → List Char
  | [] => []
  | [a] => [base64Digit (a.toNat / 4), base64Digit (a.toNat % 4 * 16)]
  | [a, b] =>
    [base64Digit (a.toNat / 4), base64Digit (a.toNat % 4 * 16 + b.toNat / 16),
      base64Digit (b.toNat % 16 * 4)]
  | a :: b :: c :: rest =>
    base64Digit (a.toNat / 4) :: base64Digit (a.toNat % 4 * 16 + b.toNat / 16) ::
      base64Digit (b.toNat % 16 * 4 + c.toNat / 64) :: base64Digit (c.toNat % 64) :: base64 rest

end CallTrace.Bytes
