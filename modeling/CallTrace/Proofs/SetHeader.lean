import CallTrace.Proofs.Entries
import CallTrace.Proofs.Lookup
import Mathlib.Data.List.Nodup

/-!
# Setting a header

Setting a header in metadata does all or nothing.  A key that names no text and a value with control
characters are refused, and then nothing changes.  Any other header becomes one entry in the place
of all that its key had.  More can be written than read: a value with characters outside ASCII is
kept, but looking it up finds nothing.
-/

namespace CallTrace

theorem MetadataKey.of_eq_of {key key' : String} (h : lowercase key = lowercase key') :
    of key = of key' := by
  simp only [of, h]

namespace MetadataValue

theorem text?_ofText_eq (value : String) :
    text? (Bytes.ofText value) = if IsVisible value then some value else none := by
  by_cases h : IsVisible value
  · rw [if_pos h, text?_ofText h]
  · rw [if_neg h]
    exact if_neg ((isVisible_ofText_iff value).not.2 h)

end MetadataValue

/-- One entry of the key stands where all of its entries stood, or behind the others if it had none.
The others stay. -/
def Replaced (key : MetadataKey) (value : MetadataValue)
    (es es' : List (MetadataKey × MetadataValue)) : Prop :=
  ∃ before old after, es = before ++ old ++ after ∧ es' = before ++ (key, value) :: after ∧
    (∀ e ∈ old, e.1 = key) ∧ (∀ e ∈ before ++ after, e.1 ≠ key) ∧ (old = [] → after = [])

namespace Metadata

theorem groups_insert_of_mem {m : Metadata} {before after : List MetadataGroup} {g : MetadataGroup}
    (h : m.groups = before ++ g :: after) (value : MetadataValue) :
    (m.insert g.key value).groups = before ++ { g with first := value, more := [] } :: after ∧
      ∀ g' ∈ before ++ after, g'.key ≠ g.key := by
  have hmem : g.key ∈ m.keys := by
    unfold keys
    rw [h]
    simp
  have hothers : ∀ g' ∈ before ++ after, g'.key ≠ g.key := by
    have hnodup := m.nodup_keys
    rw [h, List.map_append, List.map_cons, List.nodup_middle, List.nodup_cons,
      ← List.map_append] at hnodup
    intro g' hg' hkey
    exact hnodup.1 (List.mem_map.2 ⟨g', hg', hkey⟩)
  have hsame (groups : List MetadataGroup) (hsub : ∀ g' ∈ groups, g' ∈ before ++ after) :
      groups.map (fun g' => if g'.key = g.key then { g' with first := value, more := [] } else g') =
        groups := by
    refine (List.map_congr_left fun g' hg' => ?_).trans (List.map_id _)
    exact if_neg (hothers g' (hsub g' hg'))
  refine ⟨?_, hothers⟩
  unfold insert alter
  rw [dif_pos hmem]
  change m.groups.map _ = _
  rw [h, List.map_append, List.map_cons, if_pos rfl,
    hsame before fun g' hg' => List.mem_append_left after hg',
    hsame after fun g' hg' => List.mem_append_right before hg']

theorem groups_insert_of_not_mem {m : Metadata} {key : MetadataKey} (h : key ∉ m.keys)
    (value : MetadataValue) :
    (m.insert key value).groups = m.groups ++ [{ key, first := value }] := by
  unfold insert alter
  rw [dif_neg h]

theorem replaced_insert (m : Metadata) (key : MetadataKey) (value : MetadataValue) :
    Replaced key value m.entries (m.insert key value).entries := by
  by_cases hmem : key ∈ m.keys
  · obtain ⟨g, hg, rfl⟩ := List.mem_map.1 hmem
    obtain ⟨before, after, hsplit⟩ := List.append_of_mem hg
    obtain ⟨hinsert, hothers⟩ := groups_insert_of_mem hsplit value
    refine ⟨before.flatMap MetadataGroup.entries, g.entries,
      after.flatMap MetadataGroup.entries, ?_, ?_, ?_, ?_, ?_⟩
    · rw [entries_eq, hsplit, List.flatMap_append, List.flatMap_cons, List.append_assoc]
    · rw [entries_eq, hinsert, List.flatMap_append, List.flatMap_cons]
      rfl
    · exact fun e he => MetadataGroup.key_of_mem_entries he
    · intro e he
      rw [← List.flatMap_append] at he
      obtain ⟨g', hg', hkey⟩ := List.mem_map.1 (MetadataGroup.key_of_mem_flatMap he)
      rw [← hkey]
      exact hothers g' hg'
    · intro hempty
      cases hempty
  · refine ⟨m.entries, [], [], by simp, ?_, by simp, ?_, fun _ => rfl⟩
    · rw [entries_eq, groups_insert_of_not_mem hmem, List.flatMap_append]
      rfl
    · intro e he hkey
      rw [List.append_nil] at he
      apply hmem
      rw [← hkey]
      exact MetadataGroup.key_of_mem_flatMap he

theorem get?_insert_ofText {m : Metadata} {key k : String}
    (hbinary : (MetadataKey.of key).isBinary = false) (hk : lowercase k = lowercase key)
    (value : String) :
    get? (m.insert (.of key) (Bytes.ofText value)) k =
      if IsVisible value then some value else none := by
  change text? _ k = _
  rw [text?_eq, head?_values, MetadataKey.of_eq_of hk, first_find?_insert, hbinary, if_pos rfl]
  exact MetadataValue.text?_ofText_eq value

/--
Setting a header fails exactly if its key names no text, which is found first, or its value holds a
control character; then the metadata is as it was.  Otherwise one entry stands in the place of all
that the key had, and the key in any case reads as the value if that is visible, and as nothing if
it is not.
-/
theorem set_is_all_or_nothing (m : Metadata) (key value : String) :
    ((m.setText key value).2 = .ok () ↔ IsTextual key ∧ ¬HoldsControl value) ∧
      (¬IsTextual key → (m.setText key value).2 = .error Error.metadataKey) ∧
      (IsTextual key → HoldsControl value →
        (m.setText key value).2 = .error Error.metadataValue) ∧
      (∀ e, (m.setText key value).2 = .error e →
        e.kind = .invalidCarrier ∧ (m.setText key value).1 = m) ∧
      ((m.setText key value).2 = .ok () →
        Replaced (.of key) (Bytes.ofText value) m.entries (m.setText key value).1.entries ∧
          ∀ k, lowercase k = lowercase key →
            get? (m.setText key value).1 k = if IsVisible value then some value else none) := by
  rw [setText_eq]
  by_cases hkey : IsTextual key
  · rw [if_pos hkey]
    by_cases hvalue : HoldsControl value
    · rw [if_pos hvalue]
      refine ⟨by simp [hvalue], fun h => (h hkey).elim, fun _ _ => rfl, ?_, nofun⟩
      rintro e ⟨⟩
      exact ⟨rfl, rfl⟩
    · rw [if_neg hvalue]
      refine ⟨by simp [hkey, hvalue], fun h => (h hkey).elim, fun _ h => (hvalue h).elim, nofun,
        fun _ => ⟨m.replaced_insert _ _, fun k hk => ?_⟩⟩
      exact get?_insert_ofText hkey.2.2.2 hk value
  · rw [if_neg hkey]
    refine ⟨by simp [hkey], fun _ => rfl, fun h => (hkey h).elim, ?_, nofun⟩
    rintro e ⟨⟩
    exact ⟨rfl, rfl⟩

-- Written, and not read.
example : (empty.setText "name" "é").2 = .ok () ∧
    get? (empty.setText "name" "é").1 "Name" = none := by
  decide +kernel

end Metadata

end CallTrace
