import CallTrace.Proofs.Propagation
import CallTrace.Proofs.RoundTrip

/-!
# Injection into carriers that refuse

A carrier may refuse any header, for reasons of its own and differently each time.  Injection writes
its headers in a fixed order, stops at the first refusal and gives that refusal as its result.  So
whatever becomes of it, a carrier has taken a front part of the headers and nothing else.
-/

namespace CallTrace

/-- A carrier with a ledger of the headers that it was given and of what came of each. -/
structure Ledger (κ : Type) where
  carrier : κ
  writes : List ((String × String) × Except Error Unit) := []

namespace Ledger

variable {κ : Type} [Writable κ]

instance : Writable (Ledger κ) where
  set l key value :=
    let written := Writable.set l.carrier key value
    ({ carrier := written.1, writes := l.writes ++ [((key, value), written.2)] }, written.2)

/-- The header of a write that was not refused. -/
def accepted? : (String × String) × Except Error Unit → Option (String × String)
  | (header, .ok ()) => some header
  | (_, .error _) => none

/-- The headers that were not refused, in the order in which they were written. -/
def taken {κ : Type} (l : Ledger κ) : List (String × String) := l.writes.filterMap accepted?

theorem filterMap_accepted (headers : List (String × String)) :
    (headers.map (·, .ok ())).filterMap accepted? = headers := by
  rw [List.filterMap_map]
  exact List.filterMap_some

theorem writeAll_cons (l : Ledger κ) (key value : String) (headers : List (String × String)) :
    writeAll l ((key, value) :: headers) =
      match Writable.set l.carrier key value with
      | (c, .ok ()) =>
        writeAll { carrier := c, writes := l.writes ++ [((key, value), .ok ())] } headers
      | (c, .error e) =>
        ({ carrier := c, writes := l.writes ++ [((key, value), .error e)] }, .error e) := by
  have hset : Writable.set l key value =
      ({ carrier := (Writable.set l.carrier key value).1
         writes := l.writes ++ [((key, value), (Writable.set l.carrier key value).2)] },
        (Writable.set l.carrier key value).2) := rfl
  rw [writeAll, hset]
  rcases Writable.set l.carrier key value with ⟨c, e | ok⟩ <;> rfl

-- The ledger is kept beside the carrier and changes nothing.
theorem carrier_writeAll (l : Ledger κ) (headers : List (String × String)) :
    ((writeAll l headers).1.carrier, (writeAll l headers).2) = writeAll l.carrier headers := by
  induction headers generalizing l with
  | nil => rfl
  | cons header headers ih =>
    obtain ⟨key, value⟩ := header
    rw [writeAll_cons, writeAll]
    rcases Writable.set l.carrier key value with ⟨c, e | ok⟩
    · rfl
    · exact ih { carrier := c, writes := _ }

/-- Either all headers were taken, or those before the one whose refusal is the result. -/
theorem writes_writeAll (l : Ledger κ) (headers : List (String × String)) :
    ((writeAll l headers).2 = .ok () ∧
        (writeAll l headers).1.writes = l.writes ++ headers.map (·, .ok ())) ∨
      ∃ front header rest e, headers = front ++ header :: rest ∧
        (writeAll l headers).2 = .error e ∧
        (writeAll l headers).1.writes =
          l.writes ++ (front.map (·, .ok ()) ++ [(header, .error e)]) := by
  induction headers generalizing l with
  | nil => exact .inl ⟨rfl, (List.append_nil _).symm⟩
  | cons header headers ih =>
    obtain ⟨key, value⟩ := header
    rw [writeAll_cons]
    rcases Writable.set l.carrier key value with ⟨c, e | ok⟩
    · exact .inr ⟨[], (key, value), headers, e, rfl, rfl, rfl⟩
    · rcases ih { carrier := c, writes := l.writes ++ [((key, value), .ok ())] } with
        ⟨hok, hwrites⟩ | ⟨front, header, rest, e, hsplit, herror, hwrites⟩
      · refine .inl ⟨hok, hwrites.trans ?_⟩
        rw [List.append_assoc]
        rfl
      · refine .inr ⟨(key, value) :: front, header, rest, e, by rw [hsplit]; rfl, herror,
          hwrites.trans ?_⟩
        rw [List.append_assoc]
        rfl

/-- From an empty ledger: what was taken is all there was, or lacks at least the refused header. -/
theorem taken_writeAll (c : κ) (headers : List (String × String)) :
    let run := writeAll ({ carrier := c } : Ledger κ) headers
    (run.2 = .ok () ∧ run.1.taken = headers ∧ run.1.writes = run.1.taken.map (·, .ok ())) ∨
      ∃ header e, run.2 = .error e ∧ run.1.taken ++ [header] <+: headers ∧
        run.1.writes = run.1.taken.map (·, .ok ()) ++ [(header, .error e)] := by
  intro run
  rcases writes_writeAll { carrier := c } headers with
    ⟨hok, hwrites⟩ | ⟨front, header, rest, e, hsplit, herror, hwrites⟩
  · change run.1.writes = [] ++ _ at hwrites
    rw [List.nil_append] at hwrites
    have htaken : run.1.taken = headers := by
      unfold taken
      rw [hwrites, filterMap_accepted]
    rw [htaken]
    exact .inl ⟨hok, rfl, hwrites⟩
  · change run.1.writes = [] ++ _ at hwrites
    rw [List.nil_append] at hwrites
    have htaken : run.1.taken = front := by
      unfold taken
      rw [hwrites, List.filterMap_append, filterMap_accepted]
      exact List.append_nil front
    rw [htaken]
    exact .inr ⟨header, e, herror, ⟨rest, by rw [hsplit, List.append_assoc]; rfl⟩, hwrites⟩

end Ledger

/-- A carrier that refuses nothing. -/
def IsTolerant (κ : Type) [Writable κ] : Prop :=
  ∀ (c : κ) (key value : String), (Writable.set c key value).2 = .ok ()

theorem writeAll_of_tolerant {κ : Type} [Writable κ] (h : IsTolerant κ) (c : κ)
    (headers : List (String × String)) : (writeAll c headers).2 = .ok () := by
  induction headers generalizing c with
  | nil => rfl
  | cons header headers ih =>
    obtain ⟨key, value⟩ := header
    have hset := h c key value
    rw [writeAll]
    generalize Writable.set c key value = written at hset ⊢
    obtain ⟨c', result⟩ := written
    cases hset
    exact ih c'

namespace TextMap

theorem filter_insert (m : TextMap) {key : String} {keeps : String → Bool} (h : keeps key = false)
    (value : String) :
    (m.insert key value).entries.filter (fun e => keeps e.1) =
      m.entries.filter fun e => keeps e.1 := by
  change (insertEntry key value m.entries).filter _ = _
  induction m.entries with
  | nil => simp [insertEntry, h]
  | cons e entries ih =>
    obtain ⟨k, v⟩ := e
    unfold insertEntry
    split
    · rename_i hk
      rw [List.filter_cons_of_neg (by simp [h]), List.filter_cons_of_neg (by simp [← hk, h])]
    · split
      · rw [List.filter_cons_of_neg (by simp [h])]
      · rw [List.filter_cons, List.filter_cons, ih]

-- What is written under other names leaves the entries that are kept as they are.
theorem filter_writeAll (m : TextMap) {headers : List (String × String)} (keeps : String → Bool)
    (h : ∀ header ∈ headers, keeps header.1 = false) :
    (writeAll m headers).1.entries.filter (fun e => keeps e.1) =
      m.entries.filter fun e => keeps e.1 := by
  induction headers generalizing m with
  | nil => rfl
  | cons header headers ih =>
    have hrest := ih (m.insert header.1 header.2) fun e he => h e (List.mem_cons_of_mem header he)
    exact hrest.trans (m.filter_insert (h header List.mem_cons_self) header.2)

end TextMap

/--
Injection writes a fixed sequence of headers, of different names that its format makes known, and
any carrier takes a front part of them.  The result is ok exactly if all were taken, as they are by
a carrier that refuses nothing; otherwise the next header was the last that was written, and the
result is its refusal.  In text maps and metadata all that stands under other names stays.
-/
theorem Propagator.injection_writes_up_to_refusal (p : Propagator) (ctx : SpanContext) :
    ((p.headers ctx).map (·.1)).Nodup ∧ (p.headers ctx).map (·.1) ⊆ p.fields ∧
      (∀ (κ : Type) [Writable κ] (c : κ),
        let run := p.inject ctx ({ carrier := c } : Ledger κ)
        (run.1.carrier, run.2) = p.inject ctx c ∧
          run.1.taken <+: p.headers ctx ∧
          (run.2 = .ok () ↔ run.1.taken = p.headers ctx) ∧
          (run.2 = .ok () → run.1.writes = run.1.taken.map (·, .ok ())) ∧
          (∀ e, run.2 = .error e → ∃ header, run.1.taken ++ [header] <+: p.headers ctx ∧
            run.1.writes = run.1.taken.map (·, .ok ()) ++ [(header, .error e)]) ∧
          (IsTolerant κ → run.2 = .ok ())) ∧
      (∀ t : TextMap, (p.inject ctx t).1.entries.filter (·.1 ∉ p.fields) =
        t.entries.filter (·.1 ∉ p.fields)) ∧
      ∀ m : Metadata,
        (p.inject ctx m).1.entries.filter (·.1 ∉ p.fields.map MetadataKey.of) =
          m.entries.filter (·.1 ∉ p.fields.map MetadataKey.of) := by
  have hnames : ∀ header ∈ p.headers ctx, header.1 ∈ p.fields :=
    fun header hheader => p.names_headers ctx (List.mem_map_of_mem hheader)
  refine ⟨p.nodup_headers ctx, p.names_headers ctx, ?_, ?_, ?_⟩
  · intro κ _ c run
    refine ⟨Ledger.carrier_writeAll { carrier := c } (p.headers ctx), ?_⟩
    have htolerant (h : IsTolerant κ) : run.2 = .ok () := by
      have hcarrier := Ledger.carrier_writeAll { carrier := c } (p.headers ctx)
      exact (congrArg Prod.snd hcarrier).trans (writeAll_of_tolerant h c _)
    rcases Ledger.taken_writeAll c (p.headers ctx) with
      ⟨hok, htaken, hwrites⟩ | ⟨header, e, herror, hmore, hwrites⟩
    · change run.2 = .ok () at hok
      change run.1.taken = _ at htaken
      change run.1.writes = _ at hwrites
      rw [hok]
      exact ⟨htaken ▸ List.prefix_refl _, iff_of_true rfl htaken, fun _ => hwrites, nofun,
        fun _ => rfl⟩
    · change run.2 = .error e at herror
      change run.1.taken ++ [header] <+: _ at hmore
      change run.1.writes = _ at hwrites
      have hlacks : run.1.taken ≠ p.headers ctx := by
        intro hall
        have hlength := hmore.length_le
        rw [hall, List.length_append] at hlength
        exact Nat.not_succ_le_self _ hlength
      refine ⟨(List.prefix_append _ _).trans hmore, iff_of_false ?_ hlacks, ?_, ?_, htolerant⟩
      · simp [herror]
      · simp [herror]
      · intro e' he'
        rw [herror] at he'
        cases he'
        exact ⟨header, hmore, hwrites⟩
  · intro t
    refine t.filter_writeAll (fun name => name ∉ p.fields) fun header hheader => ?_
    simpa using hnames header hheader
  · intro m
    rw [← Metadata.entries_without, ← Metadata.entries_without]
    exact congrArg Metadata.entries (m.without_writeAll _ hnames)

end CallTrace
