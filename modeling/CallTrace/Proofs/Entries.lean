import CallTrace.Metadata.Basic

/-!
# The entries of metadata

Metadata is determined by its entries in order.  Keeping some of the keys keeps their entries in
order, and giving a key one value puts one entry in the place of all that the key had.
-/

namespace CallTrace

namespace MetadataGroup

def entries (g : MetadataGroup) : List (MetadataKey × MetadataValue) := g.values.map (g.key, ·)

theorem key_of_mem_entries {g : MetadataGroup} {e : MetadataKey × MetadataValue}
    (h : e ∈ g.entries) : e.1 = g.key := by
  obtain ⟨value, -, rfl⟩ := List.mem_map.1 h
  rfl

theorem key_of_mem_flatMap {groups : List MetadataGroup} {e : MetadataKey × MetadataValue}
    (h : e ∈ groups.flatMap entries) : e.1 ∈ groups.map key := by
  obtain ⟨g, hg, he⟩ := List.mem_flatMap.1 h
  exact List.mem_map.2 ⟨g, hg, (key_of_mem_entries he).symm⟩

theorem eq_of_entries {g g' : MetadataGroup} (h : g.entries = g'.entries) : g = g' := by
  obtain ⟨key, first, more⟩ := g
  obtain ⟨key', first', more'⟩ := g'
  have hkey : key = key' := congrArg Prod.fst (List.cons.inj h).1
  have hvalues : first :: more = first' :: more' := by
    have hsecond := congrArg (List.map Prod.snd) h
    unfold entries at hsecond
    rw [List.map_map, List.map_map] at hsecond
    simpa [values, Function.comp_def] using hsecond
  obtain ⟨rfl, rfl⟩ := List.cons.inj hvalues
  rw [hkey]

-- A group is kept or goes as a whole: its entries have one key.
theorem flatMap_filter (keeps : MetadataKey → Bool) (groups : List MetadataGroup) :
    (groups.filter fun g => keeps g.key).flatMap entries =
      (groups.flatMap entries).filter fun e => keeps e.1 := by
  induction groups with
  | nil => rfl
  | cons g groups ih =>
    rw [List.flatMap_cons, List.filter_append, ← ih]
    by_cases hg : keeps g.key = true
    · have hall : g.entries.filter (fun e => keeps e.1) = g.entries := by
        apply List.filter_eq_self.2
        intro e he
        rw [key_of_mem_entries he, hg]
      rw [List.filter_cons_of_pos (by simpa using hg), List.flatMap_cons, hall]
    · have hgone : g.entries.filter (fun e => keeps e.1) = [] := by
        apply List.filter_eq_nil_iff.2
        intro e he
        rw [key_of_mem_entries he]
        exact hg
      rw [List.filter_cons_of_neg (by simpa using hg), hgone, List.nil_append]

end MetadataGroup

namespace Metadata

theorem ext_groups {m m' : Metadata} (h : m.groups = m'.groups) : m = m' := by
  cases m
  cases m'
  cases h
  rfl

theorem entries_eq (m : Metadata) : m.entries = m.groups.flatMap MetadataGroup.entries := rfl

/-! ## Some of the keys -/

/-- The metadata under the keys that pass. -/
def keep (keeps : MetadataKey → Bool) (m : Metadata) : Metadata where
  groups := m.groups.filter fun g => keeps g.key
  nodup_keys := m.nodup_keys.sublist (List.filter_sublist.map _)

theorem entries_keep (keeps : MetadataKey → Bool) (m : Metadata) :
    (m.keep keeps).entries = m.entries.filter fun e => keeps e.1 :=
  MetadataGroup.flatMap_filter keeps m.groups

theorem keys_keep (keeps : MetadataKey → Bool) (m : Metadata) :
    (m.keep keeps).keys = m.keys.filter keeps := by
  unfold keep keys
  rw [List.filter_map]
  rfl

/-! ## The entries as a whole -/

-- Under its own key the first group is alone, so both it and the rest are read off the entries.
theorem filter_key_cons {g : MetadataGroup} {groups : List MetadataGroup}
    (h : ((g :: groups).map MetadataGroup.key).Nodup) :
    (g :: groups).filter (·.key == g.key) = [g] ∧
      (g :: groups).filter (·.key != g.key) = groups := by
  have hothers : ∀ g' ∈ groups, g'.key ≠ g.key := by
    intro g' hg' hkey
    exact (List.nodup_cons.1 h).1 (List.mem_map.2 ⟨g', hg', hkey⟩)
  constructor
  · rw [List.filter_cons_of_pos (by simp), List.filter_eq_nil_iff.2]
    intro g' hg'
    simpa using hothers g' hg'
  · rw [List.filter_cons_of_neg (by simp), List.filter_eq_self.2]
    intro g' hg'
    simpa using hothers g' hg'

theorem groups_eq_of_entries {groups groups' : List MetadataGroup}
    (hnodup : (groups.map MetadataGroup.key).Nodup)
    (hnodup' : (groups'.map MetadataGroup.key).Nodup)
    (h : groups.flatMap MetadataGroup.entries = groups'.flatMap MetadataGroup.entries) :
    groups = groups' := by
  induction groups generalizing groups' with
  | nil =>
    cases groups' with
    | nil => rfl
    | cons g' groups' => cases h
  | cons g groups ih =>
    cases groups' with
    | nil => cases h
    | cons g' groups' =>
      have hkey : g.key = g'.key := congrArg Prod.fst (List.cons.inj h).1
      have hkeep (keeps : MetadataKey → Bool) :
          ((g :: groups).filter fun g => keeps g.key).flatMap MetadataGroup.entries =
            ((g' :: groups').filter fun g => keeps g.key).flatMap MetadataGroup.entries := by
        rw [MetadataGroup.flatMap_filter, MetadataGroup.flatMap_filter, h]
      obtain ⟨hown, hrest⟩ := filter_key_cons hnodup
      obtain ⟨hown', hrest'⟩ := filter_key_cons hnodup'
      have hfirst : [g].flatMap MetadataGroup.entries = [g'].flatMap MetadataGroup.entries := by
        rw [← hown, ← hown', ← hkey]
        exact hkeep (· == g.key)
      have hothers : groups.flatMap MetadataGroup.entries =
          groups'.flatMap MetadataGroup.entries := by
        rw [← hrest, ← hrest', ← hkey]
        exact hkeep (· != g.key)
      rw [List.flatMap_singleton, List.flatMap_singleton] at hfirst
      rw [MetadataGroup.eq_of_entries hfirst,
        ih (List.nodup_cons.1 hnodup).2 (List.nodup_cons.1 hnodup').2 hothers]

theorem ext_entries {m m' : Metadata} (h : m.entries = m'.entries) : m = m' :=
  ext_groups (groups_eq_of_entries m.nodup_keys m'.nodup_keys h)

end Metadata

end CallTrace
