/-!
# Fields of a text

A text is cut at every occurrence of a separator, so that n separators give n + 1 fields, some of
them empty.  `join_split` says that no character is lost.
-/

namespace CallTrace.Fields

def split (sep : Char) : List Char → List (List Char)
  | [] => [[]]
  | c :: cs =>
    if c = sep then [] :: split sep cs
    else
      match split sep cs with
      | [] => [[c]]
      | field :: fields => (c :: field) :: fields

def join (sep : Char) : List (List Char) → List Char
  | [] => []
  | [field] => field
  | field :: fields => field ++ sep :: join sep fields

theorem join_cons_cons (sep : Char) (field next : List Char) (rest : List (List Char)) :
    join sep (field :: next :: rest) = field ++ sep :: join sep (next :: rest) := rfl

theorem split_ne_nil (sep : Char) (cs : List Char) : split sep cs ≠ [] := by
  fun_cases split sep cs <;> simp_all

-- A text is its fields with the separators put back.
theorem join_split (sep : Char) (cs : List Char) : join sep (split sep cs) = cs := by
  induction cs with
  | nil => rfl
  | cons c cs ih =>
    unfold split
    have hne := split_ne_nil sep cs
    split
    · rename_i hc
      cases hs : split sep cs with
      | nil => exact absurd hs hne
      | cons f fs => rw [hs] at ih; simp [join, ih, hc]
    · cases hs : split sep cs with
      | nil => exact absurd hs hne
      | cons f fs =>
        rw [hs] at ih
        cases fs with
        | nil => simpa [join] using ih
        | cons g gs => simpa [join] using ih

-- A field is part of the text, and the separator is in none of them.
theorem mem_of_mem_split {sep c : Char} {cs field : List Char} (hfield : field ∈ split sep cs)
    (hc : c ∈ field) : c ∈ cs ∧ c ≠ sep := by
  induction cs generalizing field with
  | nil =>
    rw [List.mem_singleton.1 hfield] at hc
    cases hc
  | cons d cs ih =>
    unfold split at hfield
    split at hfield
    · rcases List.mem_cons.1 hfield with rfl | hrest
      · cases hc
      · exact ⟨List.mem_cons_of_mem d (ih hrest hc).1, (ih hrest hc).2⟩
    · rename_i hd
      split at hfield
      · rename_i hnil
        exact absurd hnil (split_ne_nil sep cs)
      · rename_i first rest hsplit
        rw [hsplit] at ih
        rcases List.mem_cons.1 hfield with rfl | hrest
        · rcases List.mem_cons.1 hc with rfl | hc
          · exact ⟨List.mem_cons_self, hd⟩
          · have hin := ih List.mem_cons_self hc
            exact ⟨List.mem_cons_of_mem d hin.1, hin.2⟩
        · have hin := ih (List.mem_cons_of_mem first hrest) hc
          exact ⟨List.mem_cons_of_mem d hin.1, hin.2⟩

-- A text without the separator is its own only field.
theorem split_of_not_mem {sep : Char} {cs : List Char} (h : sep ∉ cs) : split sep cs = [cs] := by
  induction cs with
  | nil => rfl
  | cons c cs ih =>
    simp only [List.mem_cons, not_or] at h
    rw [split, if_neg (fun e => h.1 e.symm), ih h.2]

theorem split_eq_singleton_iff {sep : Char} {cs field : List Char} :
    split sep cs = [field] ↔ cs = field ∧ sep ∉ field := by
  constructor
  · intro h
    have hjoin := join_split sep cs
    rw [h] at hjoin
    refine ⟨hjoin.symm, fun hmem => ?_⟩
    exact (mem_of_mem_split (h ▸ List.mem_singleton_self field) hmem).2 rfl
  · rintro ⟨rfl, hsep⟩
    exact split_of_not_mem hsep

-- A leading field ends at the first separator.
theorem split_append_cons {sep : Char} {field : List Char} (h : sep ∉ field) (rest : List Char) :
    split sep (field ++ sep :: rest) = field :: split sep rest := by
  induction field with
  | nil => simp [split]
  | cons c cs ih =>
    simp only [List.mem_cons, not_or] at h
    rw [List.cons_append, split, if_neg (fun e => h.1 e.symm), ih h.2]

-- Fields without the separator are found again.
theorem split_join {sep : Char} {fields : List (List Char)} (hne : fields ≠ [])
    (h : ∀ field ∈ fields, sep ∉ field) : split sep (join sep fields) = fields := by
  induction fields with
  | nil => exact absurd rfl hne
  | cons field rest ih =>
    have hfield := h field List.mem_cons_self
    cases rest with
    | nil => exact split_of_not_mem hfield
    | cons next rest =>
      have hrest := ih (by simp) fun f hf => h f (List.mem_cons_of_mem field hf)
      rw [join_cons_cons, split_append_cons hfield, hrest]

-- What holds of the separator and of all fields holds of the text they make.
theorem forall_mem_join {p : Char → Prop} {sep : Char} (hsep : p sep) {fields : List (List Char)}
    (h : ∀ field ∈ fields, ∀ c ∈ field, p c) : ∀ c ∈ join sep fields, p c := by
  induction fields with
  | nil => simp [join]
  | cons field rest ih =>
    have hfield := h field List.mem_cons_self
    cases rest with
    | nil => exact hfield
    | cons next rest =>
      have hrest := ih fun f hf => h f (List.mem_cons_of_mem field hf)
      intro c hc
      rw [join_cons_cons, List.mem_append, List.mem_cons] at hc
      rcases hc with hc | rfl | hc
      · exact hfield c hc
      · exact hsep
      · exact hrest c hc

end CallTrace.Fields
