import CallTrace.Text.Hex

/-!
# Trace and span identifiers

An identifier is a fixed number of bytes, written in lowercase hexadecimal.  Reading accepts exactly
the right number of digits, in either case, and refuses the identifier whose bytes are all zero.
-/

namespace CallTrace

/-- An identifier of n bytes. -/
structure Id (n : Nat) where
  bytes : List UInt8
  length_bytes : bytes.length = n
deriving DecidableEq, Repr

/-- Names a trace: all spans that one request caused. -/
abbrev TraceId := Id 16

abbrev SpanId := Id 8

namespace Id

variable {n : Nat}

def zero : Id n := ⟨List.replicate n 0, List.length_replicate⟩

-- The identifier of the given bytes, when their number is right.
def ofBytes? (bytes : List UInt8) : Option (Id n) :=
  if h : bytes.length = n then some ⟨bytes, h⟩ else none

def ofNat (n value : Nat) : Id n :=
  ⟨(List.range n).map fun i => UInt8.ofNat (value >>> (8 * (n - 1 - i))), by simp⟩

def digits (id : Id n) : List Char := Hex.encode id.bytes

def text (id : Id n) : String := String.ofList id.digits

def ofDigits? (digits : List Char) : Option (Id n) :=
  (Hex.decode digits).bind ofBytes? |>.filter (· ≠ zero)

def ofText? (s : String) : Option (Id n) := ofDigits? s.toList

@[ext] theorem ext {a b : Id n} (h : a.bytes = b.bytes) : a = b := by
  cases a; cases b; cases h; rfl

@[simp] theorem ofBytes?_bytes (id : Id n) : ofBytes? id.bytes = some id := by
  simp [ofBytes?, id.length_bytes]

@[simp] theorem length_digits (id : Id n) : id.digits.length = 2 * n := by
  simp [digits, id.length_bytes]

theorem forall_mem_digits {p : Char → Prop} (h : ∀ d < 16, p (Hex.digit d)) (id : Id n) :
    ∀ c ∈ id.digits, p c :=
  Hex.forall_mem_encode h id.bytes

-- An identifier reads back unless it is zero.
theorem ofDigits?_digits (id : Id n) :
    ofDigits? id.digits = if id = zero then none else some id := by
  unfold ofDigits? digits
  rw [Hex.decode_encode, Option.bind_some, ofBytes?_bytes]
  by_cases h : id = zero <;> simp [h, Option.filter]

-- What reads as an identifier is its digits up to letter case.
theorem digits_of_ofDigits? {cs : List Char} {id : Id n} (h : ofDigits? cs = some id) :
    id.digits = cs.map Hex.lower ∧ id ≠ zero := by
  unfold ofDigits? at h
  rw [Option.filter_eq_some_iff, Option.bind_eq_some_iff] at h
  obtain ⟨⟨bytes, hb, hid⟩, hz⟩ := h
  unfold ofBytes? at hid
  split at hid
  · cases hid
    exact ⟨Hex.encode_of_decode hb, by simpa using hz⟩
  · cases hid

-- An odd number has a last byte that is not zero.
theorem ofNat_odd_ne_zero (n k : Nat) : ofNat (n + 1) (2 * k + 1) ≠ zero := by
  intro h
  have hb := congrArg Id.bytes h
  have hl : (ofNat (n + 1) (2 * k + 1)).bytes[n]? = some (UInt8.ofNat (2 * k + 1)) := by
    simp [ofNat]
  rw [hb] at hl
  simp only [zero, List.getElem?_replicate] at hl
  rw [if_pos (by omega)] at hl
  have h0 := congrArg UInt8.toNat (Option.some.inj hl)
  rw [UInt8.toNat_ofNat'] at h0
  have : (0 : UInt8).toNat = 0 := rfl
  omega

end Id

/-- Names the k-th span that is started, and the trace of a span without parent. -/
structure IdSupply where
  trace : Nat → TraceId
  span : Nat → SpanId
  trace_ne_zero : ∀ k, trace k ≠ Id.zero
  span_ne_zero : ∀ k, span k ≠ Id.zero

-- The identifiers are the odd numbers that follow two given numbers.
def IdSupply.odd (trace span : Nat) : IdSupply where
  trace k := Id.ofNat 16 (2 * (trace + k) + 1)
  span k := Id.ofNat 8 (2 * (span + k) + 1)
  trace_ne_zero k := Id.ofNat_odd_ne_zero 15 (trace + k)
  span_ne_zero k := Id.ofNat_odd_ne_zero 7 (span + k)

end CallTrace
