/-!
# Hexadecimal text

Bytes are written as two lowercase digits each and read back in either case.  `decode_encode` says
that reading undoes writing; `encode_of_decode` says that a text which reads has one lowercase form.
-/

namespace CallTrace.Hex

def value? (c : Char) : Option Nat :=
  if 48 ≤ c.toNat ∧ c.toNat ≤ 57 then some (c.toNat - 48)
  else if 97 ≤ c.toNat ∧ c.toNat ≤ 102 then some (c.toNat - 87)
  else if 65 ≤ c.toNat ∧ c.toNat ≤ 70 then some (c.toNat - 55)
  else none

def isDigit (c : Char) : Bool := (value? c).isSome

def digit (n : Nat) : Char :=
  if n < 10 then Char.ofNat (48 + n) else Char.ofNat (87 + n)

def pair (b : UInt8) : List Char := [digit (b.toNat / 16), digit (b.toNat % 16)]

def encode (bytes : List UInt8) : List Char := bytes.flatMap pair

/-- Reads pairs of digits; refuses a text of odd length and any other character. -/
def decode : List Char → Option (List UInt8)
  | [] => some []
  | [_] => none
  | hi :: lo :: rest =>
    match value? hi, value? lo with
    | some h, some l => (decode rest).map (UInt8.ofNat (16 * h + l) :: ·)
    | _, _ => none

-- Upper-case hexadecimal digits become lowercase; every other character stays.
def lower (c : Char) : Char :=
  if 65 ≤ c.toNat ∧ c.toNat ≤ 70 then Char.ofNat (c.toNat + 32) else c

def ofNat (n : Nat) : List Char := Nat.toDigits 16 n

theorem value?_lt {c : Char} {n : Nat} (h : value? c = some n) : n < 16 := by
  unfold value? at h
  split at h
  · simp only [Option.some.injEq] at h; omega
  · split at h
    · simp only [Option.some.injEq] at h; omega
    · split at h
      · simp only [Option.some.injEq] at h; omega
      · cases h

theorem value?_digit : ∀ n : Nat, n < 16 → value? (digit n) = some n
  | 0, _ | 1, _ | 2, _ | 3, _ | 4, _ | 5, _ | 6, _ | 7, _ | 8, _ | 9, _ | 10, _ | 11, _ | 12, _
  | 13, _ | 14, _ | 15, _ => by decide
  | _ + 16, h => absurd h (by omega)

-- A digit that reads as a value is written back in lowercase.
theorem digit_of_value? {c : Char} {n : Nat} (h : value? c = some n) : digit n = lower c := by
  unfold value? at h
  unfold lower digit
  split at h
  · simp only [Option.some.injEq] at h
    rw [if_pos (by omega), if_neg (by omega), show 48 + n = c.toNat by omega, Char.ofNat_toNat]
  · split at h
    · simp only [Option.some.injEq] at h
      rw [if_neg (by omega), if_neg (by omega), show 87 + n = c.toNat by omega, Char.ofNat_toNat]
    · split at h
      · simp only [Option.some.injEq] at h
        rw [if_neg (by omega), if_pos (by omega), show 87 + n = c.toNat + 32 by omega]
      · cases h

@[simp] theorem encode_nil : encode [] = [] := rfl

@[simp] theorem encode_cons (b : UInt8) (bs : List UInt8) :
    encode (b :: bs) = digit (b.toNat / 16) :: digit (b.toNat % 16) :: encode bs := rfl

@[simp] theorem length_encode (bytes : List UInt8) : (encode bytes).length = 2 * bytes.length := by
  induction bytes with
  | nil => rfl
  | cons b bs ih => simp [ih]; omega

@[simp] theorem decode_encode (bytes : List UInt8) : decode (encode bytes) = some bytes := by
  induction bytes with
  | nil => rfl
  | cons b bs ih =>
    have hb := b.toNat_lt
    rw [encode_cons, decode, value?_digit _ (by omega), value?_digit _ (by omega)]
    simp only [ih, Option.map_some]
    rw [show 16 * (b.toNat / 16) + b.toNat % 16 = b.toNat by omega, UInt8.ofNat_toNat]

-- What holds of every digit holds of every character that is written.
theorem forall_mem_encode {p : Char → Prop} (h : ∀ n < 16, p (digit n)) (bytes : List UInt8) :
    ∀ c ∈ encode bytes, p c := by
  intro c hc
  obtain ⟨b, -, hb⟩ := List.mem_flatMap.1 hc
  have hlt := b.toNat_lt
  simp only [pair, List.mem_cons, List.not_mem_nil, or_false] at hb
  rcases hb with rfl | rfl
  · exact h _ (by omega)
  · exact h _ (by omega)

-- A text that reads as some bytes is their written form up to letter case.
theorem encode_of_decode {cs : List Char} {bytes : List UInt8} (h : decode cs = some bytes) :
    encode bytes = cs.map lower := by
  fun_induction decode cs generalizing bytes with
  | case1 => cases h; rfl
  | case2 => cases h
  | case3 hi lo rest x y hx hy ih =>
    obtain ⟨tail, ht, rfl⟩ := Option.map_eq_some_iff.1 h
    have hx16 := value?_lt hx
    have hy16 := value?_lt hy
    have hn : (UInt8.ofNat (16 * x + y)).toNat = 16 * x + y := by
      rw [UInt8.toNat_ofNat']; omega
    rw [encode_cons, hn, show (16 * x + y) / 16 = x by omega, show (16 * x + y) % 16 = y by omega,
      digit_of_value? hx, digit_of_value? hy, ih ht]
    rfl
  | case4 => cases h

end CallTrace.Hex
