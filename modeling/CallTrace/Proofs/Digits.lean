import CallTrace.Flags
import CallTrace.Id
import Mathlib.Data.List.Basic
import Mathlib.Tactic.Ring

/-!
# Hexadecimal fields as numbers

A hexadecimal field is read as bytes, two digits each.  Which fields are read, and as what, is said
here without the reader: the field has the right number of digits, and field and bytes stand for the
same number, the first digit and the first byte being the highest.
-/

namespace CallTrace

/-! ## Numbers -/

/-- The number that bytes stand for. -/
def bigEndian : List UInt8 → Nat
  | [] => 0
  | b :: bs => b.toNat * 256 ^ bs.length + bigEndian bs

theorem bigEndian_lt (bytes : List UInt8) : bigEndian bytes < 256 ^ bytes.length := by
  induction bytes with
  | nil => simp [bigEndian]
  | cons b bs ih =>
    have hb : b.toNat + 1 ≤ 256 := b.toNat_lt
    calc b.toNat * 256 ^ bs.length + bigEndian bs
      _ < b.toNat * 256 ^ bs.length + 256 ^ bs.length := Nat.add_lt_add_left ih _
      _ = (b.toNat + 1) * 256 ^ bs.length := by ring
      _ ≤ 256 * 256 ^ bs.length := Nat.mul_le_mul_right _ hb
      _ = 256 ^ (bs.length + 1) := by ring

-- So many bytes are known by their number.
theorem eq_of_bigEndian {a b : List UInt8} (hlength : a.length = b.length)
    (h : bigEndian a = bigEndian b) : a = b := by
  induction a generalizing b with
  | nil => exact (List.length_eq_zero_iff.1 hlength.symm).symm
  | cons x xs ih =>
    cases b with
    | nil => cases hlength
    | cons y ys =>
      have hrest : xs.length = ys.length := Nat.succ.inj hlength
      have hxs := bigEndian_lt xs
      have hys := bigEndian_lt ys
      have hpos : 0 < 256 ^ ys.length := Nat.pow_pos (by decide)
      rw [bigEndian, bigEndian, hrest] at h
      rw [hrest] at hxs
      -- The first byte is the quotient and the others are the remainder.
      have hdiv := congrArg (· / 256 ^ ys.length) h
      have hmod := congrArg (· % 256 ^ ys.length) h
      simp only [Nat.mul_add_mod', Nat.mod_eq_of_lt hxs, Nat.mod_eq_of_lt hys] at hmod
      simp only [Nat.mul_comm _ (256 ^ ys.length), Nat.mul_add_div hpos, Nat.div_eq_of_lt hxs,
        Nat.div_eq_of_lt hys, Nat.add_zero] at hdiv
      rw [UInt8.toNat_inj.1 hdiv, ih hrest hmod]

namespace Hex

/-- The number that digits stand for. -/
def number : List Char → Nat
  | [] => 0
  | c :: cs => (value? c).getD 0 * 16 ^ cs.length + number cs

/-- A field of n hexadecimal digits, of either case. -/
def IsField (n : Nat) (cs : List Char) : Prop := cs.length = n ∧ ∀ c ∈ cs, isDigit c = true

instance (n : Nat) (cs : List Char) : Decidable (IsField n cs) :=
  inferInstanceAs (Decidable (_ ∧ _))

theorem isField_cons_cons (n : Nat) (hi lo : Char) (rest : List Char) :
    IsField (2 * (n + 1)) (hi :: lo :: rest) ↔
      isDigit hi = true ∧ isDigit lo = true ∧ IsField (2 * n) rest := by
  unfold IsField
  simp only [List.length_cons, List.forall_mem_cons]
  constructor
  · rintro ⟨hlength, hhi, hlo, hrest⟩
    exact ⟨hhi, hlo, by omega, hrest⟩
  · rintro ⟨hhi, hlo, hlength, hrest⟩
    exact ⟨by omega, hhi, hlo, hrest⟩

-- What is read as bytes has two digits for each of them and stands for the same number.
theorem isField_of_decode {cs : List Char} {bytes : List UInt8} (h : decode cs = some bytes) :
    IsField (2 * bytes.length) cs ∧ bigEndian bytes = number cs := by
  fun_induction decode cs generalizing bytes with
  | case1 => cases h; exact ⟨⟨rfl, by simp⟩, rfl⟩
  | case2 => cases h
  | case3 hi lo rest x y hlo hhi ih =>
    obtain ⟨tail, ht, rfl⟩ := Option.map_eq_some_iff.1 h
    obtain ⟨hfield, hnumber⟩ := ih ht
    have hx := value?_lt hhi
    have hy := value?_lt hlo
    have hbyte : (UInt8.ofNat (16 * x + y)).toNat = 16 * x + y := by
      rw [UInt8.toNat_ofNat']
      omega
    have hpow : 16 ^ rest.length = 256 ^ tail.length := by
      rw [hfield.1, Nat.pow_mul]
    have hdigits : isDigit hi = true ∧ isDigit lo = true := by simp [isDigit, hhi, hlo]
    refine ⟨(isField_cons_cons _ _ _ _).2 ⟨hdigits.1, hdigits.2, hfield⟩, ?_⟩
    simp only [bigEndian, number, hbyte, hhi, hlo, Option.getD_some, List.length_cons, pow_succ,
      hpow, hnumber]
    ring
  | case4 => cases h

theorem decode_of_isField {n : Nat} {cs : List Char} (h : IsField (2 * n) cs) :
    ∃ bytes, decode cs = some bytes ∧ bytes.length = n := by
  fun_induction decode cs generalizing n with
  | case1 =>
    have hlength : 0 = 2 * n := h.1
    exact ⟨[], rfl, show 0 = n by omega⟩
  | case2 =>
    have hlength : 1 = 2 * n := h.1
    omega
  | case3 hi lo rest x y hlo hhi ih =>
    cases n with
    | zero => cases h.1
    | succ n =>
      obtain ⟨-, -, hrest⟩ := (isField_cons_cons n hi lo rest).1 h
      obtain ⟨tail, ht, hlength⟩ := ih hrest
      exact ⟨_, congrArg (Option.map _) ht, congrArg (· + 1) hlength⟩
  | case4 hi lo rest hnone =>
    cases n with
    | zero => cases h.1
    | succ n =>
      obtain ⟨hhi, hlo, -⟩ := (isField_cons_cons n hi lo rest).1 h
      obtain ⟨x, hx⟩ := Option.isSome_iff_exists.1 hhi
      obtain ⟨y, hy⟩ := Option.isSome_iff_exists.1 hlo
      exact absurd hy (hnone x y hx)

/-- Bytes are read from the digits that stand for their number, two for each byte. -/
theorem decode_eq_some_iff {cs : List Char} {bytes : List UInt8} :
    decode cs = some bytes ↔ IsField (2 * bytes.length) cs ∧ bigEndian bytes = number cs := by
  refine ⟨isField_of_decode, fun ⟨hfield, hnumber⟩ => ?_⟩
  obtain ⟨bytes', hread, hlength⟩ := decode_of_isField hfield
  rw [hread, eq_of_bigEndian hlength ((isField_of_decode hread).2.trans hnumber.symm)]

/-! ## Lowercase and zero -/

def lowercaseDigits : List Char :=
  ['0', '1', '2', '3', '4', '5', '6', '7', '8', '9', 'a', 'b', 'c', 'd', 'e', 'f']

theorem map_lower_of_lowercase {cs : List Char} (h : ∀ c ∈ cs, c ∈ lowercaseDigits) :
    cs.map lower = cs := by
  have hlower : ∀ c ∈ lowercaseDigits, lower c = c := List.forall_iff_forall_mem.1 (by decide)
  rw [List.map_congr_left fun c hc => hlower c (h c hc), List.map_id']

theorem eq_zero_of_value? {c : Char} (h : value? c = some 0) : c = '0' := by
  unfold value? at h
  split at h
  · simp only [Option.some.injEq] at h
    exact Char.toNat_inj.1 (show c.toNat = 48 by omega)
  · split at h
    · simp only [Option.some.injEq] at h
      omega
    · split at h
      · simp only [Option.some.injEq] at h
        omega
      · cases h

-- Only zeros make the number zero.
theorem number_eq_zero_iff {cs : List Char} (h : ∀ c ∈ cs, isDigit c = true) :
    number cs = 0 ↔ ∀ c ∈ cs, c = '0' := by
  induction cs with
  | nil => simp [number]
  | cons c cs ih =>
    have hrest := ih fun d hd => h d (List.mem_cons_of_mem c hd)
    obtain ⟨x, hx⟩ := Option.isSome_iff_exists.1 (h c List.mem_cons_self)
    have hzero : x = 0 ↔ c = '0' := by
      constructor
      · rintro rfl
        exact eq_zero_of_value? hx
      · rintro rfl
        exact (Option.some.inj hx).symm
    rw [number, hx, Option.getD_some, Nat.add_eq_zero_iff, Nat.mul_eq_zero, hrest,
      List.forall_mem_cons, ← hzero]
    simp

/-- A field of n hexadecimal digits that are not all zero. -/
def IsIdentifier (n : Nat) (cs : List Char) : Prop := IsField n cs ∧ ∃ c ∈ cs, c ≠ '0'

instance (n : Nat) (cs : List Char) : Decidable (IsIdentifier n cs) :=
  inferInstanceAs (Decidable (_ ∧ _))

end Hex

/-! ## Identifiers and flags -/

theorem bigEndian_eq_zero_iff {bytes : List UInt8} :
    bigEndian bytes = 0 ↔ bytes = List.replicate bytes.length 0 := by
  induction bytes with
  | nil => simp [bigEndian]
  | cons b bs ih =>
    have hb : b.toNat = 0 ↔ b = 0 := UInt8.toNat_inj (b := 0)
    rw [bigEndian, Nat.add_eq_zero_iff, Nat.mul_eq_zero, ih, List.length_cons,
      List.replicate_succ, List.cons_eq_cons, ← hb]
    simp

namespace Id

variable {n : Nat}

theorem bigEndian_bytes_eq_zero_iff (id : Id n) : bigEndian id.bytes = 0 ↔ id = zero := by
  rw [bigEndian_eq_zero_iff, id.length_bytes]
  exact ⟨fun h => Id.ext h, fun h => congrArg Id.bytes h⟩

theorem eq_of_bigEndian_bytes {id id' : Id n} (h : bigEndian id.bytes = bigEndian id'.bytes) :
    id = id' :=
  Id.ext (eq_of_bigEndian (id.length_bytes.trans id'.length_bytes.symm) h)

/-- An identifier is read from the digits that stand for its number, unless that is zero. -/
theorem ofDigits?_eq_some_iff {cs : List Char} {id : Id n} :
    ofDigits? cs = some id ↔
      Hex.IsIdentifier (2 * n) cs ∧ bigEndian id.bytes = Hex.number cs := by
  have hread : (Hex.decode cs).bind ofBytes? = some id ↔ Hex.decode cs = some id.bytes := by
    rw [Option.bind_eq_some_iff]
    constructor
    · rintro ⟨bytes, hbytes, hid⟩
      unfold ofBytes? at hid
      split at hid
      · cases hid
        exact hbytes
      · cases hid
    · exact fun hbytes => ⟨id.bytes, hbytes, ofBytes?_bytes id⟩
  rw [ofDigits?, Option.filter_eq_some_iff, hread, Hex.decode_eq_some_iff, id.length_bytes,
    decide_eq_true_eq, Ne, ← bigEndian_bytes_eq_zero_iff]
  constructor
  · rintro ⟨⟨hfield, hnumber⟩, hne⟩
    rw [hnumber, Hex.number_eq_zero_iff hfield.2] at hne
    push Not at hne
    exact ⟨⟨hfield, hne⟩, hnumber⟩
  · rintro ⟨⟨hfield, c, hc, hne⟩, hnumber⟩
    refine ⟨⟨hfield, hnumber⟩, fun hzero => hne ?_⟩
    rw [hnumber, Hex.number_eq_zero_iff hfield.2] at hzero
    exact hzero c hc

theorem exists_ofDigits?_iff {cs : List Char} :
    (∃ id : Id n, ofDigits? cs = some id) ↔ Hex.IsIdentifier (2 * n) cs := by
  constructor
  · rintro ⟨id, hid⟩
    exact (ofDigits?_eq_some_iff.1 hid).1
  · intro h
    obtain ⟨bytes, hbytes, hlength⟩ := Hex.decode_of_isField h.1
    exact ⟨⟨bytes, hlength⟩, ofDigits?_eq_some_iff.2 ⟨h, (Hex.isField_of_decode hbytes).2⟩⟩

end Id

namespace TraceFlags

theorem ofDigits?_eq_some_iff {cs : List Char} {flags : TraceFlags} :
    ofDigits? cs = some flags ↔ Hex.IsField 2 cs ∧ flags.byte.toNat = Hex.number cs := by
  have hread : ofDigits? cs = some flags ↔ Hex.decode cs = some [flags.byte] := by
    unfold ofDigits?
    constructor
    · intro h
      split at h
      · rename_i byte hbyte
        cases h
        exact hbyte
      · cases h
    · intro h
      rw [h]
  rw [hread, Hex.decode_eq_some_iff]
  simp [bigEndian]

theorem exists_ofDigits?_iff {cs : List Char} :
    (∃ flags, ofDigits? cs = some flags) ↔ Hex.IsField 2 cs := by
  constructor
  · rintro ⟨flags, hflags⟩
    exact (ofDigits?_eq_some_iff.1 hflags).1
  · intro h
    obtain ⟨bytes, hbytes, hlength⟩ := Hex.decode_of_isField (n := 1) h
    obtain ⟨byte, rfl⟩ := List.length_eq_one_iff.1 hlength
    exact ⟨⟨byte⟩, by rw [ofDigits?, hbytes]⟩

end TraceFlags

end CallTrace
