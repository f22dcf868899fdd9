import CallTrace.Carrier
import Mathlib.Logic.Basic

/-!
# Headers in a carrier

Text maps and metadata keep headers by the same laws: a header that is taken reads as the carrier
shows its value, a header that is refused changes nothing, and the other headers read as before.
Text of tabs and printable ASCII is always taken and reads as it is.
-/

namespace CallTrace

/-- A name that metadata takes for text and keeps as it is. -/
def IsHeaderName (name : String) : Prop :=
  MetadataKey.ofText? name = some (MetadataKey.of name) ∧ lowercase name = name
deriving Decidable

/-- Text of tabs and printable ASCII. -/
def IsVisible (s : String) : Prop :=
  ∀ c ∈ s.toList, c = '\t' ∨ (32 ≤ c.toNat ∧ c.toNat ≤ 126)

instance (s : String) : Decidable (IsVisible s) := List.decidableBAll _ s.toList

/-- A name for text: one to 65535 key characters that do not end as the names of binary values. -/
def IsTextual (key : String) : Prop :=
  1 ≤ key.toList.length ∧ key.toList.length ≤ 65535 ∧
    (∀ c ∈ key.toList, MetadataKey.isKeyChar c = true) ∧ (MetadataKey.of key).isBinary = false

/-- A text with a control character of ASCII other than the tab. -/
def HoldsControl (value : String) : Prop :=
  ∃ c ∈ value.toList, c ≠ '\t' ∧ (c.toNat < 32 ∨ c.toNat = 127)

instance (key : String) : Decidable (IsTextual key) := inferInstanceAs (Decidable (_ ∧ _))

instance (value : String) : Decidable (HoldsControl value) :=
  inferInstanceAs (Decidable (∃ c ∈ value.toList, _))

/-- How a carrier keeps headers: which values it takes and how they read then. -/
class HeaderCarrier (κ : Type) [Readable κ] [Writable κ] where
  empty : κ
  accepts : String → Bool
  shown : String → Option String
  get?_empty (name : String) : get? empty name = none
  set_ok_iff (c : κ) {name : String} (h : IsHeaderName name) (value : String) :
    (Writable.set c name value).2 = .ok () ↔ accepts value = true
  get?_set (c : κ) {name k : String} (hname : IsHeaderName name) (hk : IsHeaderName k)
    (value : String) : get? (Writable.set c name value).1 k =
      if accepts value = true ∧ name = k then shown value else get? c k
  accepts_of_visible {value : String} (h : IsVisible value) : accepts value = true
  shown_of_visible {value : String} (h : IsVisible value) : shown value = some value

/-! ## Text maps -/

instance : HeaderCarrier TextMap where
  empty := {}
  accepts _ := true
  shown := some
  get?_empty _ := rfl
  set_ok_iff _ _ _ _ := ⟨fun _ => rfl, fun _ => rfl⟩
  get?_set c name k _ _ value := by
    simp only [true_and]
    exact c.find?_insert name value k
  accepts_of_visible _ := rfl
  shown_of_visible _ := rfl

/-! ## Metadata -/

theorem ascii_of_visible {c : Char} (h : c = '\t' ∨ (32 ≤ c.toNat ∧ c.toNat ≤ 126)) :
    c.toNat ≤ 127 := by
  rcases h with rfl | h
  · decide
  · exact Nat.le_succ_of_le h.2

theorem toNat_byte_of_ascii {c : Char} (h : c.toNat ≤ 127) :
    (UInt8.ofNat c.toNat).toNat = c.toNat := by
  rw [UInt8.toNat_ofNat']
  omega

-- A character of ASCII is one byte, and the bytes of all others are above those of ASCII.
theorem Bytes.utf8_of_ascii {c : Char} (h : c.toNat ≤ 127) :
    String.utf8EncodeChar c = [UInt8.ofNat c.toNat] := by
  have hval : c.val.toNat ≤ 127 := h
  rw [String.utf8EncodeChar]
  simp only [hval, if_true]
  rfl

theorem Bytes.lt_of_mem_utf8 {c : Char} (h : 127 < c.toNat) {b : UInt8}
    (hb : b ∈ String.utf8EncodeChar c) : 127 < b.toNat := by
  have hbyte {n : Nat} (hlow : 127 < n) (hhigh : n < 256) : 127 < (UInt8.ofNat n).toNat := by
    rw [UInt8.toNat_ofNat']
    omega
  have hval : ¬c.val.toNat ≤ 127 := Nat.not_le.2 h
  rw [String.utf8EncodeChar] at hb
  simp only [hval, if_false] at hb
  split at hb
  · simp only [List.mem_cons, List.not_mem_nil, or_false] at hb
    rcases hb with rfl | rfl <;> exact hbyte (by omega) (by omega)
  · split at hb
    · simp only [List.mem_cons, List.not_mem_nil, or_false] at hb
      rcases hb with rfl | rfl | rfl <;> exact hbyte (by omega) (by omega)
    · simp only [List.mem_cons, List.not_mem_nil, or_false] at hb
      rcases hb with rfl | rfl | rfl | rfl <;> exact hbyte (by omega) (by omega)

/-- A test that treats all characters outside ASCII alike can as well be made on the bytes. -/
theorem Bytes.forall_mem_ofText {P : Nat → Prop} {Q : Prop} (h : ∀ n, 127 < n → (P n ↔ Q))
    (s : String) :
    (∀ b ∈ ofText s, P b.toNat) ↔ ∀ c ∈ s.toList, P c.toNat := by
  unfold ofText
  rw [List.forall_mem_flatMap]
  refine forall₂_congr fun c _ => ?_
  by_cases hc : c.toNat ≤ 127
  · rw [utf8_of_ascii hc, List.forall_mem_singleton, toNat_byte_of_ascii hc]
  · have hc : 127 < c.toNat := Nat.not_le.1 hc
    rw [h _ hc]
    constructor
    · intro hall
      obtain ⟨b, hb⟩ := List.exists_mem_of_length_pos
        (Nat.lt_of_lt_of_eq c.utf8Size_pos (String.length_utf8EncodeChar c).symm)
      exact (h _ (lt_of_mem_utf8 hc hb)).1 (hall b hb)
    · intro hQ b hb
      exact (h _ (lt_of_mem_utf8 hc hb)).2 hQ

theorem eq_tab_iff {c : Char} : c = '\t' ↔ c.toNat = 9 := by
  constructor
  · rintro rfl
    rfl
  · intro h
    rw [← c.ofNat_toNat, h]

-- Visible characters take one byte each.
theorem Bytes.ofText_of_visible {s : String} (h : IsVisible s) :
    Bytes.ofText s = s.toList.map fun c => UInt8.ofNat c.toNat := by
  unfold IsVisible at h
  unfold Bytes.ofText
  generalize s.toList = cs at h ⊢
  induction cs with
  | nil => rfl
  | cons c cs ih =>
    have hc : c.toNat ≤ 127 := ascii_of_visible (h c List.mem_cons_self)
    rw [List.flatMap_cons, ih fun d hd => h d (List.mem_cons_of_mem c hd), utf8_of_ascii hc]
    rfl

namespace MetadataValue

theorem isVisible_ofText_iff (s : String) : isVisible (Bytes.ofText s) = true ↔ IsVisible s := by
  have htest (b : UInt8) : (b == 9 || (32 ≤ b && b ≤ 126)) = true ↔
      b.toNat = 9 ∨ (32 ≤ b.toNat ∧ b.toNat ≤ 126) := by
    simp [UInt8.le_iff_toNat_le, ← UInt8.toNat_inj]
  unfold isVisible IsVisible
  simp only [List.all_eq_true, htest, eq_tab_iff]
  have houtside (n : Nat) (hn : 127 < n) : (n = 9 ∨ (32 ≤ n ∧ n ≤ 126)) ↔ False :=
    iff_of_false (by omega) not_false
  exact Bytes.forall_mem_ofText houtside s

theorem text?_ofText {s : String} (h : IsVisible s) : text? (Bytes.ofText s) = some s := by
  rw [text?, if_pos ((isVisible_ofText_iff s).2 h), Bytes.ascii, Bytes.ofText_of_visible h,
    List.map_map]
  have hchars : s.toList.map ((fun b : UInt8 => Char.ofNat b.toNat) ∘
      fun c => UInt8.ofNat c.toNat) = s.toList := by
    refine (List.map_congr_left fun c hc => ?_).trans (List.map_id _)
    show Char.ofNat (UInt8.ofNat c.toNat).toNat = c
    rw [toNat_byte_of_ascii (ascii_of_visible (h c hc)), Char.ofNat_toNat]
  rw [hchars, String.ofList_toList]

theorem ofText?_eq (value : String) :
    ofText? value = if HoldsControl value then none else some (Bytes.ofText value) := by
  have htest (b : UInt8) : (b == 9 || (32 ≤ b && b != 127)) = true ↔
      b.toNat = 9 ∨ (32 ≤ b.toNat ∧ b.toNat ≠ 127) := by
    simp [UInt8.le_iff_toNat_le, ← UInt8.toNat_inj]
  have houtside (n : Nat) (hn : 127 < n) : (n = 9 ∨ (32 ≤ n ∧ n ≠ 127)) ↔ True :=
    iff_of_true (by omega) trivial
  have hcontrol : ((Bytes.ofText value).all fun b => b == 9 || (32 ≤ b && b != 127)) = true ↔
      ¬HoldsControl value := by
    unfold HoldsControl
    simp only [List.all_eq_true, htest, ne_eq, eq_tab_iff, not_exists, not_and]
    rw [Bytes.forall_mem_ofText houtside]
    refine forall₂_congr fun c _ => ?_
    omega
  unfold ofText?
  by_cases h : HoldsControl value
  · rw [if_pos h]
    exact if_neg (hcontrol.not.2 (not_not.2 h))
  · rw [if_neg h]
    exact if_pos (hcontrol.2 h)

theorem ofText?_of_visible {s : String} (h : IsVisible s) :
    ofText? s = some (Bytes.ofText s) := by
  have hplain : ¬HoldsControl s := by
    rintro ⟨c, hc, htab, hcontrol⟩
    have hprintable := (h c hc).resolve_left htab
    omega
  rw [ofText?_eq, if_neg hplain]

end MetadataValue

theorem MetadataKey.ofText?_eq (key : String) :
    ofText? key = if IsTextual key then some (of key) else none := by
  have hfit : (1 ≤ key.toList.length ∧ key.toList.length ≤ 65535 ∧
      key.toList.all isKeyChar ∧ !(of key).isBinary) ↔ IsTextual key := by
    simp [IsTextual]
  exact if_congr hfit rfl rfl

namespace IsHeaderName

variable {name k : String}

theorem textual (h : IsHeaderName name) : IsTextual name := by
  have hkey := h.1
  rw [MetadataKey.ofText?_eq] at hkey
  split at hkey
  · assumption
  · cases hkey

theorem not_binary (h : IsHeaderName name) : (MetadataKey.of name).isBinary = false :=
  h.textual.2.2.2

theorem of_inj (h : IsHeaderName name) (hk : IsHeaderName k) :
    MetadataKey.of name = MetadataKey.of k ↔ name = k := by
  constructor
  · intro heq
    have htext : lowercase name = lowercase k := congrArg MetadataKey.text heq
    rwa [h.2, hk.2] at htext
  · exact congrArg MetadataKey.of

end IsHeaderName

namespace Metadata

theorem first_find?_insert (m : Metadata) (key k : MetadataKey) (value : MetadataValue) :
    ((m.insert key value).find? k).map MetadataGroup.first =
      if key = k then some value else (m.find? k).map MetadataGroup.first := by
  unfold insert
  rw [find?_alter]
  split
  · cases m.find? key <;> rfl
  · rfl

theorem text?_of_header (m : Metadata) {name : String} (h : IsHeaderName name) :
    m.text? name =
      ((m.find? (MetadataKey.of name)).map MetadataGroup.first).bind MetadataValue.text? := by
  unfold text?
  simp only [h.not_binary, Bool.false_eq_true, if_false, Option.bind_map]
  rfl

theorem setText_eq (m : Metadata) (key value : String) :
    m.setText key value =
      if IsTextual key then
        if HoldsControl value then (m, .error Error.metadataValue)
        else (m.insert (.of key) (Bytes.ofText value), .ok ())
      else (m, .error Error.metadataKey) := by
  unfold setText
  rw [MetadataKey.ofText?_eq, MetadataValue.ofText?_eq]
  by_cases hkey : IsTextual key
  · rw [if_pos hkey, if_pos hkey]
    by_cases hvalue : HoldsControl value
    · rw [if_pos hvalue, if_pos hvalue]
    · rw [if_neg hvalue, if_neg hvalue]
  · rw [if_neg hkey, if_neg hkey]

theorem setText_of_header (m : Metadata) {name : String} (h : IsHeaderName name) (value : String) :
    m.setText name value =
      match MetadataValue.ofText? value with
      | none => (m, .error Error.metadataValue)
      | some value => (m.insert (MetadataKey.of name) value, .ok ()) := by
  unfold setText
  cases MetadataValue.ofText? value <;> simp only [h.1]

instance : HeaderCarrier Metadata where
  empty := .empty
  accepts value := (MetadataValue.ofText? value).isSome
  shown value := (MetadataValue.ofText? value).bind MetadataValue.text?
  get?_empty name := by
    show text? .empty name = none
    unfold text?
    simp only [find?, empty, List.find?_nil, Option.bind_none, ite_self]
  set_ok_iff c name h value := by
    show (c.setText name value).2 = _ ↔ _
    rw [c.setText_of_header h]
    cases MetadataValue.ofText? value <;> simp
  get?_set c name k hname hk value := by
    show (c.setText name value).1.text? k = _
    rw [c.setText_of_header hname]
    cases MetadataValue.ofText? value with
    | none => exact (if_neg (by simp)).symm
    | some bytes =>
      simp only [Option.isSome_some, true_and, Option.bind_some]
      rw [text?_of_header _ hk, first_find?_insert]
      simp only [hname.of_inj hk]
      split
      · rfl
      · exact (c.text?_of_header hk).symm
  accepts_of_visible h := by rw [MetadataValue.ofText?_of_visible h]; rfl
  shown_of_visible h := by
    rw [MetadataValue.ofText?_of_visible h]
    exact MetadataValue.text?_ofText h

end Metadata

/-! ## Writing several headers -/

section

open HeaderCarrier

variable {κ : Type} [Readable κ] [Writable κ] [HeaderCarrier κ]

theorem writeAll_cons_of_accepted (c : κ) {name value : String} (h : IsHeaderName name)
    (haccepts : accepts κ value = true) (rest : List (String × String)) :
    writeAll c ((name, value) :: rest) = writeAll (Writable.set c name value).1 rest := by
  have hok := (set_ok_iff c h value).2 haccepts
  rw [writeAll]
  generalize Writable.set c name value = written at hok ⊢
  obtain ⟨c', result⟩ := written
  cases hok
  rfl

theorem writeAll_cons_of_refused (c : κ) {name value : String} (h : IsHeaderName name)
    (haccepts : ¬ accepts κ value = true) (rest : List (String × String)) :
    writeAll c ((name, value) :: rest) = Writable.set c name value := by
  have hok : (Writable.set c name value).2 ≠ .ok () :=
    fun hok => haccepts ((set_ok_iff c h value).1 hok)
  rw [writeAll]
  generalize Writable.set c name value = written at hok ⊢
  obtain ⟨c', result | _⟩ := written
  · rfl
  · exact (hok rfl).elim

theorem writeAll_ok_iff (c : κ) {headers : List (String × String)}
    (h : ∀ e ∈ headers, IsHeaderName e.1) :
    (writeAll c headers).2 = .ok () ↔ ∀ e ∈ headers, accepts κ e.2 = true := by
  induction headers generalizing c with
  | nil => simp [writeAll]
  | cons e rest ih =>
    obtain ⟨name, value⟩ := e
    have hname := h _ List.mem_cons_self
    have hrest := fun e he => h e (List.mem_cons_of_mem _ he)
    by_cases hvalue : accepts κ value = true
    · rw [writeAll_cons_of_accepted c hname hvalue, ih _ hrest, List.forall_mem_cons]
      exact (and_iff_right hvalue).symm
    · rw [writeAll_cons_of_refused c hname hvalue, set_ok_iff c hname, List.forall_mem_cons]
      exact ⟨fun hyes => (hvalue hyes).elim, And.left⟩

-- Headers that are not written read as before, also when the writing stops halfway.
theorem get?_writeAll_of_not_mem (c : κ) {headers : List (String × String)}
    (h : ∀ e ∈ headers, IsHeaderName e.1) {k : String} (hk : IsHeaderName k)
    (hmem : k ∉ headers.map (·.1)) : get? (writeAll c headers).1 k = get? c k := by
  induction headers generalizing c with
  | nil => rfl
  | cons e rest ih =>
    obtain ⟨name, value⟩ := e
    have hname := h _ List.mem_cons_self
    rw [List.map_cons, List.mem_cons, not_or] at hmem
    have hset : get? (Writable.set c name value).1 k = get? c k := by
      rw [get?_set c hname hk, if_neg fun hc => hmem.1 hc.2.symm]
    by_cases hvalue : accepts κ value = true
    · rw [writeAll_cons_of_accepted c hname hvalue,
        ih _ (fun e he => h e (List.mem_cons_of_mem _ he)) hmem.2, hset]
    · rw [writeAll_cons_of_refused c hname hvalue, hset]

-- The first header reads back once it is taken, whatever becomes of the others.
theorem get?_writeAll_head (c : κ) {name value : String} {rest : List (String × String)}
    (h : ∀ e ∈ (name, value) :: rest, IsHeaderName e.1) (hvalue : accepts κ value = true)
    (hmem : name ∉ rest.map (·.1)) :
    get? (writeAll c ((name, value) :: rest)).1 name = shown κ value := by
  have hname := h _ List.mem_cons_self
  rw [writeAll_cons_of_accepted c hname hvalue,
    get?_writeAll_of_not_mem _ (fun e he => h e (List.mem_cons_of_mem _ he)) hname hmem,
    get?_set c hname hname, if_pos ⟨hvalue, rfl⟩]

theorem get?_writeAll_of_mem (c : κ) {headers : List (String × String)}
    (h : ∀ e ∈ headers, IsHeaderName e.1) (hnodup : (headers.map (·.1)).Nodup)
    (hok : (writeAll c headers).2 = .ok ()) {name value : String} (hmem : (name, value) ∈ headers) :
    get? (writeAll c headers).1 name = shown κ value := by
  induction headers generalizing c with
  | nil => cases hmem
  | cons e rest ih =>
    have haccepts := (writeAll_ok_iff c h).1 hok
    obtain ⟨hnew, hnodup⟩ := List.nodup_cons.1 hnodup
    rcases List.mem_cons.1 hmem with rfl | hmem
    · exact get?_writeAll_head c h (haccepts _ List.mem_cons_self) hnew
    · have hfirst : accepts κ e.2 = true := haccepts e List.mem_cons_self
      rw [writeAll_cons_of_accepted c (h e List.mem_cons_self) hfirst] at hok ⊢
      exact ih _ (fun e' he => h e' (List.mem_cons_of_mem _ he)) hnodup hok hmem

end

end CallTrace
