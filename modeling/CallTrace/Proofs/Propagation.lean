import CallTrace.Proofs.Entries
import CallTrace.Proofs.Headers
import CallTrace.Recorder

/-!
# What injection leaves alone

Injection writes headers under the names that its format makes known.  All other metadata stays as
it is and where it is, also when the headers are refused halfway.
-/

namespace CallTrace

namespace Metadata

variable {names : List String}

def without (names : List String) (m : Metadata) : Metadata where
  groups := m.groups.filter fun g => g.key ∉ names.map MetadataKey.of
  nodup_keys := m.nodup_keys.sublist (List.filter_sublist.map _)

-- The entries that are left stand in the order in which they stood.
theorem entries_without (m : Metadata) :
    (m.without names).entries = m.entries.filter fun e => e.1 ∉ names.map MetadataKey.of :=
  m.entries_keep fun key => key ∉ names.map MetadataKey.of

theorem without_alter (m : Metadata) {key : MetadataKey} (h : key ∈ names.map MetadataKey.of)
    (change : MetadataGroup → MetadataGroup) (keeps : ∀ g, (change g).key = g.key)
    (value : MetadataValue) : (m.alter key change keeps value).without names = m.without names := by
  apply ext_groups
  unfold alter without
  split
  · -- The changed group goes on both sides; no other group is changed.
    show (m.groups.map _).filter _ = m.groups.filter _
    induction m.groups with
    | nil => rfl
    | cons g groups ih =>
      rw [List.map_cons]
      by_cases hg : g.key = key
      · have hchanged : (change g).key ∈ names.map MetadataKey.of := by rw [keeps, hg]; exact h
        have hgone : g.key ∈ names.map MetadataKey.of := by rw [hg]; exact h
        rw [if_pos hg, List.filter_cons_of_neg (by simpa using hchanged),
          List.filter_cons_of_neg (by simpa using hgone), ih]
      · rw [if_neg hg, List.filter_cons, List.filter_cons, ih]
  · show (m.groups ++ [_]).filter _ = m.groups.filter _
    rw [List.filter_append, List.filter_cons_of_neg (by simpa using h), List.filter_nil,
      List.append_nil]

theorem without_insert (m : Metadata) {key : MetadataKey} (h : key ∈ names.map MetadataKey.of)
    (value : MetadataValue) : (m.insert key value).without names = m.without names := by
  unfold insert
  rw [without_alter m h]

-- Writing a header, or refusing it, touches nothing but its own name.
theorem without_set (m : Metadata) {name : String} (h : name ∈ names) (value : String) :
    (Writable.set m name value).1.without names = m.without names := by
  show (m.setText name value).1.without names = m.without names
  rw [setText_eq]
  split
  · split
    · rfl
    · exact m.without_insert (List.mem_map_of_mem h) _
  · rfl

theorem without_writeAll (m : Metadata) (headers : List (String × String))
    (h : ∀ e ∈ headers, e.1 ∈ names) : (writeAll m headers).1.without names = m.without names := by
  induction headers generalizing m with
  | nil => rfl
  | cons e headers ih =>
    have hset := m.without_set (h e List.mem_cons_self) e.2
    have hrest := fun e' he' => h e' (List.mem_cons_of_mem e he')
    unfold writeAll
    generalize Writable.set m e.1 e.2 = written at hset ⊢
    rcases written with ⟨m', e' | ok⟩
    · exact hset
    · exact (ih m' hrest).trans hset

end Metadata

-- A format writes under no other names than those it makes known.
theorem Propagator.names_headers (p : Propagator) (ctx : SpanContext) :
    (p.headers ctx).map (·.1) ⊆ p.fields := by
  cases p with
  | w3c =>
    unfold headers TraceContext.headers
    cases ctx.state <;> simp [fields]
  | b3 encoding =>
    unfold headers B3.headers
    cases encoding <;> cases ctx.parent <;> simp [fields]

theorem Recorder.without_inject (r : Recorder) (ctx : SpanContext) (format : Format)
    (m : Metadata) {names : List String} (h : ∀ name ∈ r.propagator.fields, name ∈ names) :
    (r.inject ctx format m).1.without names = m.without names := by
  unfold inject
  split
  · rfl
  · apply m.without_writeAll
    intro e he
    exact h _ (r.propagator.names_headers ctx (List.mem_map_of_mem he))

end CallTrace
