/-!
# Tables

Values under names, each name once.
-/

namespace CallTrace

structure Table (α : Type) where
  entries : List (String × α) := []
  nodup_names : (entries.map (·.1)).Nodup := by exact List.nodup_nil

namespace Table

variable {α β : Type}

def find? (t : Table α) (name : String) : Option α := (t.entries.find? (·.1 == name)).map (·.2)

def erase (t : Table α) (name : String) : Table α where
  entries := t.entries.filter (·.1 ≠ name)
  nodup_names := t.nodup_names.sublist (List.filter_sublist.map _)

-- Puts a value under a name, in place of the one that is there.
def set (t : Table α) (name : String) (value : α) : Table α where
  entries := (name, value) :: (t.erase name).entries
  nodup_names := by
    rw [List.map_cons, List.nodup_cons]
    refine ⟨fun h => ?_, (t.erase name).nodup_names⟩
    obtain ⟨e, he, hname⟩ := List.mem_map.1 h
    have := (List.mem_filter.1 he).2
    simp [hname] at this

def sorted (t : Table α) : List (String × α) :=
  t.entries.mergeSort fun a b => decide (a.1 ≤ b.1)

theorem sorted_perm (t : Table α) : t.sorted.Perm t.entries := List.mergeSort_perm _ _

-- The entry of a name and the entries of the other names.
theorem perm_of_find? {t : Table α} {name : String} {value : α} (h : t.find? name = some value) :
    t.entries.Perm ((name, value) :: (t.erase name).entries) := by
  obtain ⟨entries, hnodup⟩ := t
  unfold find? at h
  simp only [erase]
  induction entries with
  | nil => simp at h
  | cons e rest ih =>
    obtain ⟨n, v⟩ := e
    rw [List.map_cons, List.nodup_cons] at hnodup
    by_cases hn : n = name
    · subst hn
      have hv : v = value := by simpa using h
      -- The name does not come again, so nothing else is erased.
      have hrest : rest.filter (fun e => decide (e.1 ≠ n)) = rest := by
        refine List.filter_eq_self.2 fun e he => ?_
        have : e.1 ≠ n := fun heq => hnodup.1 (List.mem_map.2 ⟨e, he, heq⟩)
        simpa using this
      rw [List.filter_cons_of_neg (by simp), hrest, hv]
    · rw [List.find?_cons_of_neg (by simpa using hn)] at h
      rw [List.filter_cons_of_pos (by simpa using hn)]
      exact ((ih hnodup.2 h).cons (n, v)).trans (List.Perm.swap _ _ _)

theorem erase_of_find?_none {t : Table α} {name : String} (h : t.find? name = none) :
    (t.erase name).entries = t.entries := by
  refine List.filter_eq_self.2 fun e he => ?_
  unfold find? at h
  rw [Option.map_eq_none_iff, List.find?_eq_none] at h
  simpa using h e he

theorem mem_of_find? {t : Table α} {name : String} {value : α} (h : t.find? name = some value) :
    (name, value) ∈ t.entries :=
  (perm_of_find? h).mem_iff.2 List.mem_cons_self

theorem find?_set (t : Table α) (name : String) (value : α) :
    (t.set name value).find? name = some value := by
  simp [find?, set]

theorem mem_of_set {t : Table α} {name : String} {value : α} {e : String × α}
    (h : e ∈ (t.set name value).entries) : e = (name, value) ∨ e ∈ t.entries := by
  rcases List.mem_cons.1 h with h | h
  · exact .inl h
  · exact .inr ((List.mem_filter.1 h).1)

def map (f : α → β) (t : Table α) : Table β where
  entries := t.entries.map fun e => (e.1, f e.2)
  nodup_names := by
    rw [List.map_map]
    exact t.nodup_names

theorem find?_map (f : α → β) (t : Table α) (name : String) :
    (t.map f).find? name = (t.find? name).map f := by
  unfold find? map
  rw [List.find?_map, Option.map_map, Option.map_map]
  rfl

theorem ext_entries {t t' : Table α} (h : t.entries = t'.entries) : t = t' := by
  cases t
  cases t'
  cases h
  rfl

theorem map_erase (f : α → β) (t : Table α) (name : String) :
    (t.erase name).map f = (t.map f).erase name := by
  refine ext_entries ?_
  simp only [map, erase, List.filter_map]
  rfl

theorem map_set (f : α → β) (t : Table α) (name : String) (value : α) :
    (t.set name value).map f = (t.map f).set name (f value) := by
  refine ext_entries ?_
  have := congrArg Table.entries (map_erase f t name)
  simp only [map, set, List.map_cons] at this ⊢
  rw [this]

theorem sorted_map (f : α → β) (t : Table α) :
    (t.map f).sorted = t.sorted.map fun e => (e.1, f e.2) := by
  have h : (t.sorted.map fun e => (e.1, f e.2)) =
      (t.entries.map fun e => (e.1, f e.2)).mergeSort fun a b => decide (a.1 ≤ b.1) :=
    List.map_mergeSort fun _ _ _ _ => rfl
  exact h.symm

/-! ## What is in a table -/

def collect (f : α → List β) (t : Table α) : List β := t.entries.flatMap fun e => f e.2

theorem collect_erase (f : α → List β) (t : Table α) (name : String) :
    (t.collect f).Perm (((t.find? name).map f).getD [] ++ (t.erase name).collect f) := by
  cases h : t.find? name with
  | none =>
    unfold collect
    rw [erase_of_find?_none h]
    exact .refl _
  | some value => exact (perm_of_find? h).flatMap_right fun e => f e.2

theorem collect_set (f : α → List β) (t : Table α) (name : String) (value : α) :
    (((t.find? name).map f).getD [] ++ (t.set name value).collect f).Perm
      (f value ++ t.collect f) := by
  have hset : (t.set name value).collect f = f value ++ (t.erase name).collect f := by
    simp [collect, set]
  rw [hset]
  refine List.Perm.trans ?_ ((t.collect_erase f name).symm.append_left (f value))
  rw [← List.append_assoc, ← List.append_assoc]
  exact List.perm_append_comm.append_right _

theorem collect_sorted (f : α → List β) (t : Table α) :
    (t.sorted.flatMap fun e => f e.2).Perm (t.collect f) :=
  t.sorted_perm.flatMap_right fun e => f e.2

end Table

end CallTrace
