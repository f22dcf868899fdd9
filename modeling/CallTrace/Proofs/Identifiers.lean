import CallTrace.Proofs.Digits
import CallTrace.Proofs.LetterCase

/-!
# Identifiers as texts

Which texts read as an identifier or as flags, and as which one, said with lowercase letters and
numbers alone: the text has two hexadecimal digits for each byte, in either case, it is what is
written in lowercase, and it stands for the same number as the bytes.  Only an identifier must not
be zero.
-/

namespace CallTrace

/-! ## Digits -/

namespace Hex

theorem value?_toLower (c : Char) : value? c.toLower = value? c := by
  unfold value?
  rw [toNat_toLower]
  grind

theorem value?_of_lowercase : ∀ d ∈ lowercaseDigits, value? d = some (lowercaseDigits.idxOf d) :=
  List.forall_iff_forall_mem.1 (by decide)

theorem digit_mem_lowercase : ∀ n < 16, digit n ∈ lowercaseDigits := by decide

theorem lower_of_isDigit {c : Char} (h : isDigit c = true) : lower c = c.toLower := by
  obtain ⟨n, hn⟩ := Option.isSome_iff_exists.1 h
  apply Char.toNat_inj.1
  rw [toNat_toLower]
  unfold value? at hn
  unfold lower
  by_cases hupper : 65 ≤ c.toNat ∧ c.toNat ≤ 70
  · rw [if_pos hupper, if_pos (by omega), Char.ofNat, dif_pos (.inl (by omega))]
    rfl
  · rw [if_neg hupper, if_neg (by grind)]

/-- A character is a digit if it is one of the sixteen in lowercase. -/
theorem isDigit_iff (c : Char) : isDigit c = true ↔ c.toLower ∈ lowercaseDigits := by
  constructor
  · intro h
    obtain ⟨n, hn⟩ := Option.isSome_iff_exists.1 h
    rw [← lower_of_isDigit h, ← digit_of_value? hn]
    exact digit_mem_lowercase n (value?_lt hn)
  · intro h
    have hvalue := value?_of_lowercase c.toLower h
    rw [value?_toLower] at hvalue
    simp [isDigit, hvalue]

theorem value_of_isDigit {c : Char} (h : isDigit c = true) :
    (value? c).getD 0 = lowercaseDigits.idxOf c.toLower := by
  rw [← value?_toLower, value?_of_lowercase _ ((isDigit_iff c).1 h)]
  rfl

/-- The number that is written in base sixteen, with a digit at the place of its value. -/
def base16 (cs : List Char) : Nat :=
  cs.foldl (fun n c => 16 * n + lowercaseDigits.idxOf c.toLower) 0

theorem base16_of_digits {cs : List Char} (h : ∀ c ∈ cs, isDigit c = true) :
    base16 cs = number cs := by
  -- The fold has read the front of the text as some number.
  have hfold (k : Nat) : cs.foldl (fun n c => 16 * n + lowercaseDigits.idxOf c.toLower) k =
      k * 16 ^ cs.length + number cs := by
    induction cs generalizing k with
    | nil => simp [number]
    | cons c cs ih =>
      obtain ⟨hc, hcs⟩ := List.forall_mem_cons.1 h
      rw [List.foldl_cons, ih hcs, number, value_of_isDigit hc, List.length_cons]
      ring
  rw [base16, hfold, Nat.zero_mul, Nat.zero_add]

/-- A text of n hexadecimal digits. -/
def IsText (n : Nat) (s : String) : Prop :=
  s.length = n ∧ ∀ c ∈ s.toList, c.toLower ∈ lowercaseDigits

instance (n : Nat) (s : String) : Decidable (IsText n s) :=
  have : Decidable (∀ c ∈ s.toList, c.toLower ∈ lowercaseDigits) := List.decidableBAll _ _
  inferInstanceAs (Decidable (_ ∧ _))

theorem isField_iff (n : Nat) (s : String) : IsField n s.toList ↔ IsText n s := by
  unfold IsField IsText
  rw [String.length_toList]
  exact and_congr_right' (forall₂_congr fun c _ => isDigit_iff c)

theorem IsText.base16_eq {n : Nat} {s : String} (h : IsText n s) :
    base16 s.toList = number s.toList :=
  base16_of_digits ((isField_iff n s).2 h).2

-- Digits up to their case are those of the text in lowercase.
theorem IsText.toLower_eq {n : Nat} {s : String} (h : IsText n s) :
    s.toList.map lower = s.toLower.toList := by
  have hmap : s.toLower.toList = s.toList.map Char.toLower := by
    change (s.map Char.toLower).toList = _
    simp
  rw [hmap]
  exact List.map_congr_left fun c hc => lower_of_isDigit ((isDigit_iff c).2 (h.2 c hc))

end Hex

/-! ## Identifiers and flags -/

theorem Id.ofText?_eq_some_iff {n : Nat} (s : String) (id : Id n) :
    ofText? s = some id ↔
      Hex.IsText (2 * n) s ∧ (∃ c ∈ s.toList, c ≠ '0') ∧
        id.text = s.toLower ∧ bigEndian id.bytes = Hex.base16 s.toList := by
  have hread : ofText? s = some id ↔
      (Hex.IsText (2 * n) s ∧ ∃ c ∈ s.toList, c ≠ '0') ∧
        bigEndian id.bytes = Hex.number s.toList := by
    rw [ofText?, ofDigits?_eq_some_iff, Hex.IsIdentifier, Hex.isField_iff]
  constructor
  · intro h
    obtain ⟨⟨htext, hne⟩, hnumber⟩ := hread.1 h
    refine ⟨htext, hne, ?_, hnumber.trans htext.base16_eq.symm⟩
    rw [text, (digits_of_ofDigits? h).1, htext.toLower_eq, String.ofList_toList]
  · rintro ⟨htext, hne, -, hnumber⟩
    exact hread.2 ⟨⟨htext, hne⟩, hnumber.trans htext.base16_eq⟩

theorem Id.exists_ofText?_iff (n : Nat) (s : String) :
    (∃ id : Id n, ofText? s = some id) ↔
      Hex.IsText (2 * n) s ∧ ∃ c ∈ s.toList, c ≠ '0' := by
  unfold ofText?
  rw [exists_ofDigits?_iff, Hex.IsIdentifier, Hex.isField_iff]

theorem Id.ofText?_text {n : Nat} (id : Id n) :
    ofText? id.text = if id.bytes = List.replicate n 0 then none else some id := by
  have hzero : id = zero ↔ id.bytes = List.replicate n 0 :=
    ⟨fun h => congrArg bytes h, fun h => Id.ext h⟩
  rw [ofText?, text, String.toList_ofList, ofDigits?_digits]
  by_cases h : id = zero
  · rw [if_pos h, if_pos (hzero.1 h)]
  · rw [if_neg h, if_neg (hzero.not.1 h)]

theorem TraceFlags.ofText?_eq_some_iff (s : String) (flags : TraceFlags) :
    ofText? s = some flags ↔
      Hex.IsText 2 s ∧ flags.text = s.toLower ∧ flags.byte.toNat = Hex.base16 s.toList := by
  have hread : ofText? s = some flags ↔
      Hex.IsText 2 s ∧ flags.byte.toNat = Hex.number s.toList := by
    rw [ofText?, ofDigits?_eq_some_iff, Hex.isField_iff]
  constructor
  · intro h
    obtain ⟨htext, hnumber⟩ := hread.1 h
    refine ⟨htext, ?_, hnumber.trans htext.base16_eq.symm⟩
    rw [text, digits_of_ofDigits? h, htext.toLower_eq, String.ofList_toList]
  · rintro ⟨htext, -, hnumber⟩
    exact hread.2 ⟨htext, hnumber.trans htext.base16_eq⟩

theorem TraceFlags.exists_ofText?_iff (s : String) :
    (∃ flags, ofText? s = some flags) ↔ Hex.IsText 2 s := by
  unfold ofText?
  rw [exists_ofDigits?_iff, Hex.isField_iff]

/--
An identifier of n bytes is read from the texts of twice as many hexadecimal digits that are not
all zero.  It is then that text in lowercase, and its bytes stand for the number that is written
there; and it reads back from its own text unless all its bytes are zero.  Flags are read in the
same way from two digits, and may be zero.
-/
theorem identifiers_read_exactly (n : Nat) :
    (∀ s : String, (∃ id : Id n, Id.ofText? s = some id) ↔
      Hex.IsText (2 * n) s ∧ ∃ c ∈ s.toList, c ≠ '0') ∧
    (∀ (s : String) (id : Id n), Id.ofText? s = some id ↔
      Hex.IsText (2 * n) s ∧ (∃ c ∈ s.toList, c ≠ '0') ∧
        id.text = s.toLower ∧ bigEndian id.bytes = Hex.base16 s.toList) ∧
    (∀ id : Id n, Id.ofText? id.text =
      if id.bytes = List.replicate n 0 then none else some id) ∧
    (∀ s : String, (∃ flags, TraceFlags.ofText? s = some flags) ↔ Hex.IsText 2 s) ∧
    (∀ (s : String) (flags : TraceFlags), TraceFlags.ofText? s = some flags ↔
      Hex.IsText 2 s ∧
        flags.text = s.toLower ∧ flags.byte.toNat = Hex.base16 s.toList) ∧
    ∀ flags : TraceFlags, TraceFlags.ofText? flags.text = some flags := by
  refine ⟨Id.exists_ofText?_iff n, Id.ofText?_eq_some_iff, Id.ofText?_text,
    TraceFlags.exists_ofText?_iff, TraceFlags.ofText?_eq_some_iff, fun flags => ?_⟩
  rw [TraceFlags.ofText?, TraceFlags.text, String.toList_ofList, TraceFlags.ofDigits?_digits]

-- The number of a text does not depend on its case.
example : Hex.IsText 2 "fF" ∧ Hex.base16 "fF".toList = 255 := by decide

end CallTrace
