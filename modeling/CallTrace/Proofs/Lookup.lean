import CallTrace.Proofs.Headers
import Mathlib.Data.List.Basic

/-!
# Looking up and listing

Metadata is read in two ways: by a key, and as the list of its pairs.  Binary entries and values
that are no visible text are left out of the list.  A lookup takes the first value of its key and no
later one, so a first value that is no text hides those behind it.
-/

namespace CallTrace

namespace MetadataValue

-- What reads as text reads as visible text.
theorem isVisible_of_text? {value : MetadataValue} {text : String} (h : value.text? = some text) :
    IsVisible text := by
  unfold text? at h
  split at h
  · rename_i hvisible
    cases h
    unfold IsVisible Bytes.ascii
    rw [String.toList_ofList]
    intro c hc
    obtain ⟨b, hb, rfl⟩ := List.mem_map.1 hc
    have hbyte := List.all_eq_true.1 hvisible b hb
    have hlt := b.toNat_lt
    have hchar : (Char.ofNat b.toNat).toNat = b.toNat := by
      rw [Char.ofNat, dif_pos (.inl (by omega))]
      rfl
    simp only [Bool.or_eq_true, beq_iff_eq, Bool.and_eq_true, decide_eq_true_eq] at hbyte
    rcases hbyte with rfl | ⟨hlow, hhigh⟩
    · exact .inl rfl
    · rw [hchar]
      exact .inr ⟨UInt8.le_iff_toNat_le.1 hlow, UInt8.le_iff_toNat_le.1 hhigh⟩
  · cases h

theorem isSome_text? (value : MetadataValue) : value.text?.isSome = value.isVisible := by
  unfold text?
  cases value.isVisible <;> rfl

end MetadataValue

/-- The value of the first pair that is listed with the key, in any case. -/
def firstListed? {κ : Type} [Readable κ] (c : κ) (key : String) : Option String :=
  ((Readable.entries c).find? fun e => lowercase e.1 = lowercase key).map (·.2)

namespace Metadata

/-- The values of a key in any case, oldest first. -/
def values (m : Metadata) (key : String) : List MetadataValue :=
  (m.entries.filter fun e => e.1 = MetadataKey.of key).map (·.2)

/-- A later value of the key is text, behind a first one that is none. -/
def HidesText (m : Metadata) (key : String) : Prop :=
  (MetadataKey.of key).isBinary = false ∧
    ∃ first more, m.values key = first :: more ∧ first.isVisible = false ∧
      ∃ value ∈ more, value.isVisible = true

variable (m : Metadata) (key : String)

theorem head?_values :
    (m.values key).head? = (m.find? (MetadataKey.of key)).map MetadataGroup.first := by
  unfold values entries find?
  induction m.groups with
  | nil => rfl
  | cons g groups ih =>
    by_cases hg : g.key = MetadataKey.of key
    · rw [List.find?_cons_of_pos (by simpa using hg), List.flatMap_cons, MetadataGroup.values,
        List.map_cons, List.cons_append, List.filter_cons_of_pos (by simpa using hg)]
      rfl
    · have hnone : (g.values.map (g.key, ·)).filter (fun e => e.1 = MetadataKey.of key) = [] := by
        rw [List.filter_map]
        simp [hg]
      rw [List.find?_cons_of_neg (by simpa using hg), List.flatMap_cons, List.filter_append,
        hnone, List.nil_append, ih]

theorem text?_eq :
    m.text? key =
      if (MetadataKey.of key).isBinary then none
      else (m.values key).head?.bind MetadataValue.text? := by
  rw [head?_values, Option.bind_map]
  rfl

end Metadata

-- A stored key is a text in any case if it is that text in lowercase.
theorem MetadataKey.lowercase_text_eq_iff (k : MetadataKey) (key : String) :
    lowercase k.text = lowercase key ↔ k = .of key := by
  rw [k.lowercase_text]
  constructor
  · intro h
    rw [← k.of_text, h]
    simp [MetadataKey.of]
  · rintro rfl
    rfl

namespace Metadata

variable (m : Metadata) (key : String)

/-- The pair that an entry is listed as, if it is listed. -/
def pair? (e : MetadataKey × MetadataValue) : Option (String × String) :=
  if e.1.isBinary then none else (MetadataValue.text? e.2).map (e.1.text, ·)

theorem pair?_eq_some {e : MetadataKey × MetadataValue} {p : String × String}
    (h : pair? e = some p) : p.1 = e.1.text ∧ e.2.text? = some p.2 := by
  unfold pair? at h
  split at h
  · cases h
  · obtain ⟨text, htext, rfl⟩ := Option.map_eq_some_iff.1 h
    exact ⟨rfl, htext⟩

theorem firstListed?_eq :
    firstListed? m key =
      if (MetadataKey.of key).isBinary then none
      else (m.values key).findSome? MetadataValue.text? := by
  show ((m.entries.filterMap pair?).find? _).map _ = _
  unfold values
  induction m.entries with
  | nil => simp
  | cons e entries ih =>
    obtain ⟨k, value⟩ := e
    by_cases hk : k = MetadataKey.of key
    · rw [List.filter_cons_of_pos (by simpa using hk), List.map_cons, List.findSome?_cons]
      by_cases hbinary : k.isBinary
      · have hnone : pair? (k, value) = none := if_pos hbinary
        rw [List.filterMap_cons_none hnone, ih, ← hk, if_pos hbinary, if_pos hbinary]
      · have hpair : pair? (k, value) = value.text?.map (k.text, ·) := if_neg hbinary
        rw [← hk, if_neg hbinary]
        cases htext : value.text? with
        | none =>
          rw [htext] at hpair
          rw [List.filterMap_cons_none hpair, ih, ← hk, if_neg hbinary]
        | some text =>
          rw [htext] at hpair
          have hkey : lowercase k.text = lowercase key := (k.lowercase_text_eq_iff key).2 hk
          rw [List.filterMap_cons_some hpair, List.find?_cons_of_pos (by simpa using hkey)]
          rfl
    · rw [List.filter_cons_of_neg (by simpa using hk), ← ih]
      cases hpair : pair? (k, value) with
      | none => rw [List.filterMap_cons_none hpair]
      | some p =>
        have hkey : lowercase p.1 ≠ lowercase key := by
          rw [(pair?_eq_some hpair).1]
          exact (k.lowercase_text_eq_iff key).not.2 hk
        rw [List.filterMap_cons_some hpair, List.find?_cons_of_neg (by simpa using hkey)]

variable {m key}

theorem lookup_of_hidesText (h : m.HidesText key) :
    get? m key = none ∧ ∃ text, firstListed? m key = some text := by
  obtain ⟨hbinary, first, more, hvalues, hfirst, value, hmem, hvisible⟩ := h
  have htext : first.text? = none := by
    rw [← Option.not_isSome_iff_eq_none, MetadataValue.isSome_text?, hfirst]
    simp
  constructor
  · show m.text? key = none
    rw [text?_eq, hbinary, hvalues]
    exact htext
  · rw [firstListed?_eq, hbinary, hvalues, if_neg (by simp), List.findSome?_cons, htext,
      ← Option.isSome_iff_exists, List.findSome?_isSome_iff]
    exact ⟨value, hmem, (MetadataValue.isSome_text? value).trans hvisible⟩

theorem lookup_of_not_hidesText (h : ¬m.HidesText key) : get? m key = firstListed? m key := by
  show m.text? key = _
  rw [text?_eq, firstListed?_eq]
  by_cases hbinary : (MetadataKey.of key).isBinary = true
  · rw [if_pos hbinary, if_pos hbinary]
  rw [if_neg hbinary, if_neg hbinary]
  cases hvalues : m.values key with
  | nil => rfl
  | cons first more =>
    rw [List.head?_cons, Option.bind_some, List.findSome?_cons]
    cases htext : first.text? with
    | some text => rfl
    | none =>
      -- A later text would be hidden.
      refine (List.findSome?_eq_none_iff.2 fun value hmem => ?_).symm
      rw [← Option.not_isSome_iff_eq_none, MetadataValue.isSome_text?]
      intro hvisible
      have hfirst : first.isVisible = false := by
        rw [← MetadataValue.isSome_text?, htext]
        rfl
      exact h ⟨by simpa using hbinary, first, more, hvalues, hfirst, value, hmem, hvisible⟩

theorem isVisible_of_lookup {text : String} (h : get? m key = some text) : IsVisible text := by
  have htext : m.text? key = some text := h
  rw [text?_eq] at htext
  split at htext
  · cases htext
  · obtain ⟨value, -, hvalue⟩ := Option.bind_eq_some_iff.1 htext
    exact MetadataValue.isVisible_of_text? hvalue

theorem isVisible_of_listed {p : String × String} (h : p ∈ Readable.entries m) : IsVisible p.2 := by
  obtain ⟨e, -, hpair⟩ := List.mem_filterMap.1 h
  exact MetadataValue.isVisible_of_text? (pair?_eq_some hpair).2

/--
Looking a key up gives the value of the first pair that is listed with it, unless the key hides
text: then nothing is found though there is such a pair.  Both pass over values that are no text.
-/
theorem lookup_agrees_with_listing_iff (m : Metadata) (key : String) :
    (get? m key = firstListed? m key ↔ ¬m.HidesText key) ∧
      (m.HidesText key → get? m key = none ∧ ∃ text, firstListed? m key = some text) ∧
      (∀ text, get? m key = some text → IsVisible text) ∧
      ∀ p ∈ Readable.entries m, IsVisible p.2 := by
  refine ⟨⟨fun hagree hhides => ?_, lookup_of_not_hidesText⟩, lookup_of_hidesText, ?_, ?_⟩
  · obtain ⟨hnone, text, hsome⟩ := lookup_of_hidesText hhides
    rw [hnone, hsome] at hagree
    cases hagree
  · exact fun text => isVisible_of_lookup
  · exact fun p => isVisible_of_listed

/-- A key whose first value is no text and whose second is: it is listed and not found. -/
theorem text_behind_opaque_value :
    ¬∀ (m : Metadata) (key : String), get? m key = firstListed? m key := by
  intro h
  have hopaque := h ((empty.append (.of "accept") [0xff]).append (.of "accept") [0x61]) "accept"
  revert hopaque
  decide +kernel

end Metadata

end CallTrace
