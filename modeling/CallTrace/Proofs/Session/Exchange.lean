import CallTrace.Proofs.Session.Holds
import CallTrace.Session.Exchange

/-!
# Holds in an exchange

An exchange has the holds that continuations have through it and those of the streams and writers
that are kept; other holds are loose, with whoever operates on the exchange.  Every operation moves
holds between the two and keeps the order of the tracing.
-/

namespace CallTrace

def CallState.shape (s : CallState) : Shape := (s.kind, s.type)

-- The holds that a continuation has besides running.
def CallState.holds (call : Nat) (s : CallState) : List Hold :=
  (s.requests.map Source.holds).getD [] ++ if s.writer then [(call, .writer)] else []

/-- The holds of the continuations of calls that are numbered from here. -/
def heldFrom : Nat → List CallState → List Hold
  | _, [] => []
  | n, s :: rest => s.holds n ++ heldFrom (n + 1) rest

theorem heldFrom_append (n : Nat) (calls more : List CallState) :
    heldFrom n (calls ++ more) = heldFrom n calls ++ heldFrom (n + calls.length) more := by
  induction calls generalizing n with
  | nil => rfl
  | cons s calls ih =>
    simp only [List.cons_append, heldFrom, ih, List.append_assoc, List.length_cons]
    rw [Nat.add_right_comm, Nat.add_assoc]

theorem count_heldFrom_modify (k : Hold) (n i : Nat) {calls : List CallState} {s : CallState}
    (h : calls[i]? = some s) (change : CallState → CallState) :
    (heldFrom n (calls.modify i change)).count k + (s.holds (n + i)).count k =
      (heldFrom n calls).count k + ((change s).holds (n + i)).count k := by
  induction calls generalizing n i with
  | nil => cases h
  | cons s' calls ih =>
    cases i with
    | zero =>
      cases h
      simp only [List.modify_zero_cons, heldFrom, List.count_append, Nat.add_zero]
      omega
    | succ i =>
      have hrest := ih (n + 1) i (by simpa using h)
      simp only [List.modify_succ_cons, heldFrom, List.count_append]
      rw [Nat.add_right_comm, Nat.add_assoc] at hrest
      omega

theorem heldFrom_of_idle (n : Nat) {calls : List CallState}
    (h : ∀ (i : Nat) (s : CallState), calls[i]? = some s → s.requests = none ∧ s.writer = false) :
    heldFrom n calls = [] := by
  induction calls generalizing n with
  | nil => rfl
  | cons s calls ih =>
    obtain ⟨hreq, hw⟩ := h 0 s rfl
    have hrest := ih (n + 1) fun i s' hs' => h (i + 1) s' (by simpa using hs')
    simp [heldFrom, CallState.holds, hreq, hw, hrest]

namespace Exchange

def holds (x : Exchange) : List Hold :=
  heldFrom 0 x.calls ++ x.keptStreams.collect Source.holds ++
    x.keptWriters.collect fun i => [(i, .writer)]

/-- The exchange is in order together with the holds that are loose. -/
structure Orderly (b : Baseline) (x : Exchange) (loose : List Hold) : Prop where
  tracing : x.toTracing.Orderly b (x.calls.map CallState.shape) (x.holds ++ loose)
  -- Only a continuation that runs holds anything.
  idle : ∀ i s, x.calls[i]? = some s → s.requests ≠ none ∨ s.writer = true →
    (i, .continuation) ∈ loose
  -- No span of a call has a name.
  names : ∀ e ∈ x.spanNames.entries, e.2 ∈ b.free

variable {b : Baseline} {x : Exchange} {loose loose' : List Hold}

theorem not_continuation_of_source {source : Source} {i : Nat} :
    (i, Party.continuation) ∉ source.holds := by
  induction source with
  | script s => exact List.not_mem_nil
  | watched call role inner ih =>
    intro h
    rcases List.mem_cons.1 h with h | h
    · cases role <;> cases h
    · exact ih h

theorem mem_of_source {source : Source} {i : Nat}
    (h : (i, Party.continuation) ∈ source.holds ++ loose) : (i, Party.continuation) ∈ loose :=
  (List.mem_append.1 h).resolve_left not_continuation_of_source

-- Loose holds may be listed in any order.
theorem Orderly.of_count (h : x.Orderly b loose) (hc : ∀ k, loose'.count k = loose.count k) :
    x.Orderly b loose' where
  tracing := h.tracing.of_count fun k => by rw [List.count_append, List.count_append, hc]
  idle i s hs hh := by
    have := List.count_pos_iff.2 (h.idle i s hs hh)
    rw [← hc] at this
    exact List.count_pos_iff.1 this
  names := h.names

theorem Orderly.of_tracing (h : x.Orderly b loose) {t : Tracing}
    (ht : t.Orderly b (x.calls.map CallState.shape) (x.holds ++ loose'))
    (hc : ∀ i, (i, .continuation) ∈ loose → (i, .continuation) ∈ loose') :
    ({ x with toTracing := t } : Exchange).Orderly b loose' where
  tracing := ht
  idle i s hs hh := hc i (h.idle i s hs hh)
  names := h.names

theorem count_middle (k : Hold) (front source rest : List Hold) :
    (source ++ (front ++ rest)).count k = (front ++ (source ++ rest)).count k := by
  simp only [List.count_append]
  omega

theorem Orderly.poll {source : Source} (h : x.Orderly b (source.holds ++ loose)) :
    (x.poll source).1.Orderly b (source.holds ++ loose) := by
  have ht := (h.tracing.of_count fun k => count_middle k x.holds source.holds loose).poll
  exact h.of_tracing (ht.of_count fun k => (count_middle k x.holds source.holds loose).symm)
    fun _ hi => hi

theorem Orderly.dropSource {source : Source} (h : x.Orderly b (source.holds ++ loose)) :
    (x.dropSource source).Orderly b loose :=
  h.of_tracing (h.tracing.of_count fun k => count_middle k x.holds source.holds loose).dropSource
    fun _ hi => mem_of_source hi

/-! ## Changes of one call -/

theorem calls_update (x : Exchange) (i j : Nat) (change : CallState → CallState) :
    (x.update i change).calls[j]? = if i = j then x.calls[j]?.map change else x.calls[j]? := by
  unfold update
  rw [List.getElem?_modify]
  split
  · rfl
  · exact Option.map_id'

theorem update_of_none {i : Nat} (h : x.calls[i]? = none) (change : CallState → CallState) :
    x.update i change = x := by
  have hcalls : x.calls.modify i change = x.calls := by
    refine List.ext_getElem? fun j => ?_
    refine (calls_update x i j change).trans ?_
    split
    · rename_i hj
      rw [← hj, h]
      rfl
    · rfl
  unfold update
  rw [hcalls]

theorem shapes_update (i : Nat) {change : CallState → CallState}
    (hshape : ∀ s, (change s).shape = s.shape) :
    (x.update i change).calls.map CallState.shape = x.calls.map CallState.shape := by
  refine List.ext_getElem? fun j => ?_
  rw [List.getElem?_map, List.getElem?_map, calls_update]
  split
  · rw [Option.map_map]
    exact congrFun (congrArg Option.map (funext hshape)) _
  · rfl

-- A call gets holds that were loose, or gives holds away.
theorem Orderly.update (h : x.Orderly b loose) {i : Nat} {s : CallState}
    (hs : x.calls[i]? = some s) {change : CallState → CallState}
    (hshape : ∀ s, (change s).shape = s.shape)
    (hcount : ∀ k, ((change s).holds i).count k + loose'.count k =
      (s.holds i).count k + loose.count k)
    (hc : ∀ j, (j, .continuation) ∈ loose → (j, .continuation) ∈ loose')
    (hi : (change s).requests ≠ none ∨ (change s).writer = true → (i, .continuation) ∈ loose') :
    (x.update i change).Orderly b loose' where
  tracing := by
    rw [shapes_update i hshape]
    refine h.tracing.of_count fun k => ?_
    have hm := count_heldFrom_modify k 0 i hs change
    have hk := hcount k
    rw [Nat.zero_add] at hm
    simp only [Exchange.holds, Exchange.update, List.count_append] at hm ⊢
    omega
  idle j s' hs' hh := by
    rw [calls_update] at hs'
    by_cases hij : i = j
    · subst hij
      rw [if_pos rfl, hs] at hs'
      cases hs'
      exact hi hh
    · rw [if_neg hij] at hs'
      exact hc j (h.idle j s' hs' hh)
  names := h.names

-- A change of the sink alone moves no holds.
theorem Orderly.updateOutlet (h : x.Orderly b loose) (i : Nat)
    (change : Option (Outlet Message) → Option (Outlet Message)) :
    (x.update i fun s => { s with outlet := change s.outlet }).Orderly b loose := by
  cases hs : x.calls[i]? with
  | none =>
    rw [update_of_none hs]
    exact h
  | some s =>
    exact h.update hs (fun _ => rfl) (fun _ => rfl) (fun _ hj => hj) fun hh => h.idle i s hs hh

/-! ## Request streams -/

theorem Orderly.takeRequests (h : x.Orderly b loose) (i : Nat) :
    (x.takeRequests i).1.Orderly b
      (((x.takeRequests i).2.map Source.holds).getD [] ++ loose) := by
  unfold Exchange.takeRequests requests?
  cases hs : x.calls[i]? with
  | none =>
    rw [update_of_none hs]
    exact h
  | some s =>
    refine h.update hs (fun _ => rfl) (fun k => ?_) (fun _ hj => List.mem_append_right _ hj)
      fun hh => List.mem_append_right _ (h.idle i s hs ?_)
    · simp only [CallState.holds, Option.bind_some, Option.map_none, Option.getD_none,
        List.count_append, List.count_nil]
      omega
    · rcases hh with hh | hh
      · exact (hh rfl).elim
      · exact .inr hh

theorem requests?_takeRequests (x : Exchange) (i : Nat) :
    (x.takeRequests i).1.requests? i = none := by
  unfold Exchange.takeRequests requests?
  rw [calls_update, if_pos rfl]
  cases x.calls[i]? <;> rfl

-- The continuation of a call has a hold if its request stream can be taken.
theorem Orderly.of_takeRequests (h : x.Orderly b loose) {i : Nat} {source : Source}
    (hs : (x.takeRequests i).2 = some source) :
    (i, .continuation) ∈ loose ∧ ∃ s, x.calls[i]? = some s := by
  unfold Exchange.takeRequests requests? at hs
  obtain ⟨s, hcall, hsource⟩ := Option.bind_eq_some_iff.1 hs
  exact ⟨h.idle i s hcall (.inl (by rw [hsource]; simp)), s, hcall⟩

theorem Orderly.giveRequests {source : Source} {i : Nat}
    (h : x.Orderly b (source.holds ++ loose)) (hnone : x.requests? i = none)
    (hcall : ∃ s, x.calls[i]? = some s) (hc : (i, .continuation) ∈ loose) :
    (x.giveRequests i source).Orderly b loose := by
  obtain ⟨s, hs⟩ := hcall
  have hreq : s.requests = none := by
    unfold requests? at hnone
    rw [hs] at hnone
    exact hnone
  refine h.update hs (fun _ => rfl) (fun k => ?_) (fun _ hj => mem_of_source hj) fun _ => hc
  simp only [CallState.holds, hreq, Option.map_some, Option.getD_some, Option.map_none,
    Option.getD_none, List.count_append, List.count_nil]
  omega

theorem Orderly.dropRequests (h : x.Orderly b loose) (i : Nat) :
    (x.dropRequests i).Orderly b loose := by
  have ht := h.takeRequests i
  unfold Exchange.dropRequests
  generalize x.takeRequests i = taken at ht ⊢
  rcases taken with ⟨x', _ | source⟩
  · exact ht
  · exact ht.dropSource

theorem Orderly.pull (h : x.Orderly b loose) (i : Nat) : (x.pull i).1.Orderly b loose := by
  have ht := h.takeRequests i
  have hnone := requests?_takeRequests x i
  have hof (source : Source) (hs : (x.takeRequests i).2 = some source) := h.of_takeRequests hs
  have hcalls (s : CallState) (hs : x.calls[i]? = some s) :
      ∃ s, (x.takeRequests i).1.calls[i]? = some s := by
    unfold Exchange.takeRequests
    rw [calls_update, if_pos rfl, hs]
    exact ⟨_, rfl⟩
  unfold Exchange.pull
  generalize x.takeRequests i = taken at ht hnone hof hcalls ⊢
  rcases taken with ⟨x', _ | source⟩
  · exact ht
  · obtain ⟨hc, s, hs⟩ := hof source rfl
    have hpoll := ht.poll
    have hholds : (x'.poll source).2.1.holds = source.holds := Tracing.holds_poll _ _
    refine Orderly.giveRequests ?_ hnone (hcalls s hs) hc
    rw [hholds]
    exact hpoll

/-! ## Kept streams and writers -/

theorem Orderly.keepStream {source : Source} (h : x.Orderly b (source.holds ++ loose))
    (name : String) : (x.keepStream name source).Orderly b loose := by
  have hkept : ({ x with keptStreams := x.keptStreams.set name source } : Exchange).Orderly b
      (((x.keptStreams.find? name).map Source.holds).getD [] ++ loose) := by
    refine ⟨h.tracing.of_count fun k => ?_, fun i s hs hh =>
      List.mem_append_right _ (mem_of_source (h.idle i s hs hh)), h.names⟩
    have hk := (x.keptStreams.collect_set Source.holds name source).count_eq k
    simp only [Exchange.holds, List.count_append] at hk ⊢
    omega
  unfold Exchange.keepStream
  cases hf : x.keptStreams.find? name with
  | none =>
    rw [hf] at hkept
    exact hkept
  | some old =>
    rw [hf] at hkept
    exact hkept.dropSource

theorem Orderly.keepRequests (h : x.Orderly b loose) (i : Nat) (name : String) :
    (x.keepRequests i name).Orderly b loose := by
  have ht := h.takeRequests i
  unfold Exchange.keepRequests
  generalize x.takeRequests i = taken at ht ⊢
  rcases taken with ⟨x', _ | source⟩
  · exact ht
  · exact ht.keepStream name

/-! ## Writers -/

theorem mem_heldFrom {k : Hold} {n i : Nat} {calls : List CallState} {s : CallState}
    (h : calls[i]? = some s) (hk : k ∈ s.holds (n + i)) : k ∈ heldFrom n calls := by
  induction calls generalizing n i with
  | nil => cases h
  | cons s' calls ih =>
    cases i with
    | zero =>
      cases h
      exact List.mem_append_left _ hk
    | succ i =>
      refine List.mem_append_right _ (ih (n := n + 1) (i := i) (by simpa using h) ?_)
      rw [Nat.add_right_comm, Nat.add_assoc]
      exact hk

theorem mem_of_holdsWriter {i : Nat} (h : x.holdsWriter i = true) : (i, .writer) ∈ x.holds := by
  unfold holdsWriter at h
  cases hs : x.calls[i]? with
  | none => simp [hs] at h
  | some s =>
    have hw : s.writer = true := by simpa [hs] using h
    have hm : (i, Party.writer) ∈ heldFrom 0 x.calls :=
      mem_heldFrom hs (by simp [CallState.holds, hw])
    exact List.mem_append_left _ (List.mem_append_left _ hm)

theorem mem_of_keptWriter {name : String} {i : Nat} (h : x.keptWriters.find? name = some i) :
    (i, .writer) ∈ x.holds := by
  have hm := Table.mem_of_find? h
  exact List.mem_append_right _ (List.mem_flatMap.2 ⟨(name, i), hm, List.mem_singleton.2 rfl⟩)

theorem Orderly.startWrite (h : x.Orderly b loose) {i : Nat} (hm : (i, .writer) ∈ x.holds)
    (op : SinkOp Message) : (x.startWrite i op).1.Orderly b loose := by
  have ht : (x.tell i (.responseWritten op)).Orderly b loose :=
    h.of_tracing (h.tracing.responseWritten (List.mem_append_left _ hm) op) fun _ hi => hi
  unfold Exchange.startWrite
  dsimp only
  split
  · exact ht
  · exact ht.updateOutlet i fun _ => _

theorem Orderly.attemptWrite (h : x.Orderly b loose) (i : Nat) (ticket : OutletTicket Message) :
    (x.attemptWrite i ticket).1.Orderly b loose := by
  unfold Exchange.attemptWrite
  split
  · exact h
  · exact h.updateOutlet i fun _ => _

theorem Orderly.writeOnce (h : x.Orderly b loose) {i : Nat} (hm : (i, .writer) ∈ x.holds)
    (op : SinkOp Message) : (x.writeOnce i op).1.Orderly b loose := by
  have hstart := h.startWrite hm op
  unfold Exchange.writeOnce
  generalize x.startWrite i op = begun at hstart ⊢
  rcases begun with ⟨x', _ | ticket⟩
  · exact hstart
  · exact hstart.attemptWrite i ticket

theorem Orderly.writeHeld (h : x.Orderly b loose) (i : Nat) (op : SinkOp Message) :
    (x.writeHeld i op).1.Orderly b loose := by
  unfold Exchange.writeHeld
  split
  · rename_i hw
    exact h.writeOnce (mem_of_holdsWriter hw) op
  · exact h

-- A loose hold in front of all others.
theorem Orderly.tracing_cons {k : Hold} (h : x.Orderly b (k :: loose)) :
    x.toTracing.Orderly b (x.calls.map CallState.shape) (k :: (x.holds ++ loose)) :=
  h.tracing.of_count fun k' => (List.perm_middle.count_eq k').symm

theorem Orderly.releaseWriter {i : Nat} (h : x.Orderly b ((i, .writer) :: loose)) :
    (x.releaseWriter i).Orderly b loose := by
  have hu := h.updateOutlet i (Option.map Outlet.disconnect)
  refine hu.of_tracing hu.tracing_cons.writerDropped fun j hj => ?_
  simpa using hj

theorem Orderly.takeWriter (h : x.Orderly b loose) (i : Nat) :
    (x.takeWriter i).1.Orderly b
      ((if (x.takeWriter i).2 then [(i, .writer)] else []) ++ loose) := by
  unfold Exchange.takeWriter holdsWriter
  cases hs : x.calls[i]? with
  | none =>
    rw [update_of_none hs]
    exact h
  | some s =>
    refine h.update hs (fun _ => rfl) (fun k => ?_) (fun _ hj => List.mem_append_right _ hj)
      fun hh => List.mem_append_right _ (h.idle i s hs ?_)
    · simp only [CallState.holds, Option.map_some, Option.getD_some, List.count_append,
        Bool.false_eq_true, if_false, List.count_nil]
      omega
    · rcases hh with hh | hh
      · exact .inl hh
      · cases hh

theorem Orderly.dropWriter (h : x.Orderly b loose) (i : Nat) :
    (x.dropWriter i).Orderly b loose := by
  have ht := h.takeWriter i
  unfold Exchange.dropWriter
  generalize x.takeWriter i = taken at ht ⊢
  rcases taken with ⟨x', _ | _⟩
  · exact ht
  · exact Orderly.releaseWriter ht

theorem Orderly.keepWriterOf {i : Nat} (h : x.Orderly b ((i, .writer) :: loose))
    (name : String) : (x.keepWriterOf name i).Orderly b loose := by
  have hkept : ({ x with keptWriters := x.keptWriters.set name i } : Exchange).Orderly b
      (((x.keptWriters.find? name).map fun j => [(j, Party.writer)]).getD [] ++ loose) := by
    refine ⟨h.tracing.of_count fun k => ?_, fun j s hs hh =>
      List.mem_append_right _ (by simpa using h.idle j s hs hh), h.names⟩
    have hk := (x.keptWriters.collect_set (fun j => [(j, Party.writer)]) name i).count_eq k
    rw [← List.singleton_append (l := loose)]
    simp only [Exchange.holds, List.count_append] at hk ⊢
    omega
  unfold Exchange.keepWriterOf
  cases hf : x.keptWriters.find? name with
  | none =>
    rw [hf] at hkept
    exact hkept
  | some old =>
    rw [hf] at hkept
    exact Orderly.releaseWriter hkept

theorem Orderly.keepWriter (h : x.Orderly b loose) (i : Nat) (name : String) :
    (x.keepWriter i name).Orderly b loose := by
  have ht := h.takeWriter i
  unfold Exchange.keepWriter
  generalize x.takeWriter i = taken at ht ⊢
  rcases taken with ⟨x', _ | _⟩
  · exact ht
  · exact Orderly.keepWriterOf ht name

/-! ## Letting a continuation go -/

theorem Orderly.dropHeld (h : x.Orderly b loose) (i : Nat) : (x.dropHeld i).Orderly b loose :=
  (h.dropRequests i).dropWriter i

theorem idle_dropRequests {i : Nat} {s : CallState}
    (hs : (x.dropRequests i).calls[i]? = some s) : s.requests = none := by
  have hcalls : (x.dropRequests i).calls = (x.takeRequests i).1.calls := by
    unfold Exchange.dropRequests
    generalize x.takeRequests i = taken
    rcases taken with ⟨x', _ | source⟩ <;> rfl
  rw [hcalls] at hs
  have htaken := requests?_takeRequests x i
  unfold requests? at htaken
  rw [hs] at htaken
  exact htaken

theorem idle_takeWriter {i : Nat} {s : CallState} (hs : (x.takeWriter i).1.calls[i]? = some s) :
    ∃ s', x.calls[i]? = some s' ∧ s.requests = s'.requests ∧ s.writer = false := by
  unfold Exchange.takeWriter at hs
  rw [calls_update, if_pos rfl] at hs
  obtain ⟨s', hs', rfl⟩ := Option.map_eq_some_iff.1 hs
  exact ⟨s', hs', rfl, rfl⟩

theorem idle_dropWriter {i : Nat} {s : CallState} (hs : (x.dropWriter i).calls[i]? = some s) :
    ∃ s', x.calls[i]? = some s' ∧ s.requests = s'.requests ∧ s.writer = false := by
  have htaken (s : CallState) (hs : (x.takeWriter i).1.calls[i]? = some s) := idle_takeWriter hs
  unfold Exchange.dropWriter at hs
  generalize x.takeWriter i = taken at htaken hs
  rcases taken with ⟨y, _ | _⟩
  · exact htaken s hs
  · have hcalls : (y.releaseWriter i).calls[i]? =
        y.calls[i]?.map fun s => { s with outlet := s.outlet.map Outlet.disconnect } :=
      (calls_update y i i _).trans (if_pos rfl)
    rw [hcalls] at hs
    obtain ⟨s', hs', rfl⟩ := Option.map_eq_some_iff.1 hs
    exact htaken s' hs'

theorem idle_dropHeld {i : Nat} {s : CallState} (hs : (x.dropHeld i).calls[i]? = some s) :
    s.requests = none ∧ s.writer = false := by
  obtain ⟨s', hs', hrequests, hwriter⟩ := idle_dropWriter hs
  exact ⟨hrequests.trans (idle_dropRequests hs'), hwriter⟩

theorem shapes_takeRequests (x : Exchange) (i : Nat) :
    (x.takeRequests i).1.calls.map CallState.shape = x.calls.map CallState.shape :=
  shapes_update i fun _ => rfl

theorem shapes_dropRequests (x : Exchange) (i : Nat) :
    (x.dropRequests i).calls.map CallState.shape = x.calls.map CallState.shape := by
  have htaken := x.shapes_takeRequests i
  unfold Exchange.dropRequests
  generalize x.takeRequests i = taken at htaken ⊢
  rcases taken with ⟨x', _ | source⟩ <;> exact htaken

theorem shapes_takeWriter (x : Exchange) (i : Nat) :
    (x.takeWriter i).1.calls.map CallState.shape = x.calls.map CallState.shape :=
  shapes_update i fun _ => rfl

theorem shapes_releaseWriter (x : Exchange) (i : Nat) :
    (x.releaseWriter i).calls.map CallState.shape = x.calls.map CallState.shape :=
  (shapes_update i fun _ => rfl : (x.update i fun s =>
    { s with outlet := s.outlet.map Outlet.disconnect }).calls.map CallState.shape = _)

theorem shapes_dropWriter (x : Exchange) (i : Nat) :
    (x.dropWriter i).calls.map CallState.shape = x.calls.map CallState.shape := by
  have htaken := x.shapes_takeWriter i
  unfold Exchange.dropWriter
  generalize x.takeWriter i = taken at htaken ⊢
  rcases taken with ⟨x', _ | _⟩
  · exact htaken
  · exact (x'.shapes_releaseWriter i).trans htaken

theorem shapes_dropHeld (x : Exchange) (i : Nat) :
    (x.dropHeld i).calls.map CallState.shape = x.calls.map CallState.shape :=
  ((x.dropRequests i).shapes_dropWriter i).trans (x.shapes_dropRequests i)

theorem Orderly.leave {i : Nat} (h : x.Orderly b ((i, .continuation) :: loose))
    (hidle : ∀ s, x.calls[i]? = some s → s.requests = none ∧ s.writer = false) {t : Tracing}
    (ht : t.Orderly b (x.calls.map CallState.shape) (x.holds ++ loose'))
    (hc : ∀ j, (j, .continuation) ∈ loose → (j, .continuation) ∈ loose') :
    ({ x with toTracing := t } : Exchange).Orderly b loose' where
  tracing := ht
  idle j s hs hh := by
    rcases List.mem_cons.1 (h.idle j s hs hh) with hj | hj
    · cases hj
      obtain ⟨hreq, hw⟩ := hidle s hs
      rcases hh with hh | hh
      · exact (hh hreq).elim
      · rw [hw] at hh
        cases hh
    · exact hc j hj
  names := h.names

/-! ## Starting calls -/

end Exchange

def CallRequest.holds (r : CallRequest) : List Hold := (r.stream.map Source.holds).getD []

theorem CallRequest.isSome_ofType (type : MethodType) (r : CallRequest) :
    (r.ofType type).stream.isSome = type.streamsRequests := by
  unfold ofType
  cases h : type.streamsRequests <;> simp

theorem CallSpec.isSome_sink (spec : CallSpec) :
    spec.sink.isSome = decide (spec.kind = .server ∧ spec.type.streamsResponses = true) := by
  unfold sink
  cases spec.kind <;> cases h : spec.type.streamsResponses <;> simp

-- A call as it starts on the tracing.
def CallSpec.state (spec : CallSpec) (t : Tracing) (call : Nat) (metadata : Metadata)
    (request : CallRequest) : CallState :=
  { kind := spec.kind, type := spec.type, metadata, message := request.message
    requests := request.stream.map (t.watch call .requests)
    writer := spec.sink.isSome, outlet := spec.sink }

-- A call that starts holds its parties but the continuation, and what its request held.
theorem CallSpec.count_state {t : Tracing} (ht : t.traced = true) (spec : CallSpec) (call : Nat)
    (metadata : Metadata) {request : CallRequest}
    (hstream : request.stream.isSome = spec.type.streamsRequests) (k : Hold) :
    ((spec.state t call metadata request).holds call).count k +
        [(call, Party.continuation)].count k =
      (Tracing.newHolds spec.kind spec.type call).count k + request.holds.count k := by
  have hsink := spec.isSome_sink
  rw [← List.count_append, ← List.count_append]
  cases hs : request.stream with
  | none =>
    have hq : spec.type.streamsRequests = false := by rw [← hstream, hs]; rfl
    simp only [state, CallState.holds, Tracing.newHolds, CallRequest.holds, hs, hq, hsink,
      Option.map_none, Option.getD_none, List.count_append, List.count_cons, List.count_nil,
      Bool.false_eq_true, if_false, decide_eq_true_eq, List.append_nil, List.nil_append]
    omega
  | some source =>
    have hq : spec.type.streamsRequests = true := by rw [← hstream, hs]; rfl
    simp only [state, CallState.holds, Tracing.newHolds, CallRequest.holds, hs, hq, hsink,
      Option.map_some, Option.getD_some, List.count_append, List.count_cons, List.count_nil,
      Tracing.watch, ht, Source.holds, Role.party, if_true, decide_eq_true_eq]
    omega

namespace Exchange

variable {b : Baseline} {x : Exchange} {loose loose' : List Hold}

-- A stream comes with the request only for a call that streams its requests.
theorem Orderly.takeRequest (h : x.Orderly b loose) (caller : Option Nat) (spec : CallSpec) :
    (x.takeRequest caller spec).1.Orderly b
      (((x.takeRequest caller spec).2.ofType spec.type).holds ++ loose) := by
  unfold Exchange.takeRequest CallRequest.ofType CallRequest.holds
  cases hr : spec.requests with
  | single m => cases ht : spec.type.streamsRequests <;> exact h
  | stream s => cases ht : spec.type.streamsRequests <;> exact h
  | forwarded =>
    dsimp only
    cases hc : caller.bind fun id => x.calls[id]?.map (id, ·) with
    | none => cases ht : spec.type.streamsRequests <;> exact h
    | some found =>
      obtain ⟨id, s⟩ := found
      cases ht : spec.type.streamsRequests with
      | false => exact h
      | true =>
        have htaken := h.takeRequests id
        simp only [if_true]
        cases hs : (x.takeRequests id).2 with
        | none =>
          rw [hs] at htaken
          exact htaken
        | some source =>
          rw [hs] at htaken
          exact htaken

theorem Orderly.nameOutlet (h : x.Orderly b loose) (name : String) (call : Nat) :
    (x.nameOutlet name call).Orderly b loose := by
  unfold Exchange.nameOutlet
  dsimp only
  split
  · exact ⟨h.tracing, h.idle, h.names⟩
  · rename_i old _
    have hu := h.updateOutlet old (Option.map Outlet.close)
    exact ⟨hu.tracing, hu.idle, hu.names⟩

theorem kind_contextOf (spec : CallSpec) (parent : Option SpanContext) :
    (contextOf spec parent).kind = spec.kind := by
  unfold contextOf
  cases spec.kind <;> rfl

theorem not_continuation_of_request {request : CallRequest} {i : Nat}
    (h : (i, Party.continuation) ∈ request.holds) : False := by
  unfold CallRequest.holds at h
  cases hr : request.stream with
  | none => simp [hr] at h
  | some source => exact not_continuation_of_source (by simpa [hr] using h)

-- A call that starts takes its request, and its continuation is loose.
theorem Orderly.startOn {request : CallRequest} (h : x.Orderly b (request.holds ++ loose))
    (parent : Option SpanContext) (spec : CallSpec)
    (hstream : request.stream.isSome = spec.type.streamsRequests) :
    (x.startOn parent spec request).1.Orderly b ((x.calls.length, .continuation) :: loose) := by
  have hlength : x.tracedCalls.length = x.calls.length := by
    have := congrArg List.length h.tracing.shapes
    simpa using this
  have hstart := h.tracing.start (contextOf spec parent) spec.type request.metadata request.message
  have htraced := hstart.traced
  rw [kind_contextOf, hlength] at hstart
  unfold Exchange.startOn
  generalize x.toTracing.start (contextOf spec parent) spec.type request.metadata
    request.message = out at hstart htraced ⊢
  obtain ⟨t, metadata, context⟩ := out
  dsimp only at hstart htraced ⊢
  have hcall : ({ x with
      toTracing := t
      calls := x.calls ++ [spec.state t x.calls.length metadata request] } :
        Exchange).Orderly b ((x.calls.length, .continuation) :: loose) := by
    constructor
    · rw [List.map_append]
      refine hstart.of_count fun k => ?_
      have hk := CallSpec.count_state htraced spec x.calls.length metadata hstream k
      rw [← List.singleton_append (l := loose)]
      simp only [Exchange.holds, heldFrom_append, heldFrom, List.count_append, List.append_nil,
        Nat.zero_add] at hk ⊢
      omega
    · intro i s hs hh
      rw [List.getElem?_append] at hs
      split at hs
      · rcases List.mem_append.1 (h.idle i s hs hh) with hi | hi
        · exact (not_continuation_of_request hi).elim
        · exact List.mem_cons_of_mem _ hi
      · have hi : i = x.calls.length := by
          obtain ⟨hlt, -⟩ := List.getElem?_eq_some_iff.1 hs
          rw [List.length_singleton] at hlt
          omega
        rw [hi]
        exact List.mem_cons_self
    · exact h.names
  split
  · exact hcall.nameOutlet _ _
  · exact hcall

theorem Orderly.startCall (h : x.Orderly b loose) (caller : Option Nat)
    (enclosing : Option SpanContext) (spec : CallSpec) :
    (x.startCall caller enclosing spec).1.Orderly b
      (((x.startCall caller enclosing spec).2.1, .continuation) :: loose) := by
  have htaken := h.takeRequest caller spec
  have hstart := htaken.startOn (x.parentContext? enclosing spec.parent) spec
    (CallRequest.isSome_ofType spec.type _)
  exact hstart

end Exchange

end CallTrace
