import CallTrace.Proofs.Call.Parties
import CallTrace.Session.Tracing

/-!
# Holds on calls

Whoever holds a stream or a writer of a call, or runs its continuation, has a hold on the call.  The
tracing of calls in progress is in order if for every call the holds on it are its parties, each
once, and if the record of its span is that of a legal run of the call.  Every operation on streams
keeps this order.
-/

namespace CallTrace

/-- A hold on a call, by its number, as one of its parties. -/
abbrev Hold := Nat × Party

def Role.party : Role → Party
  | requests => .requests
  | responses => .reader

def Source.holds : Source → List Hold
  | script _ => []
  | watched call role inner => (call, role.party) :: inner.holds

/--
What calls leave alone: the counts of misuse, the spans that are not of a call, and which of these
have a log of their own.
-/
structure Baseline where
  rejected : Nat
  late : Nat
  free : List Nat
  logged : List Nat := []

-- The end and the type of a call.
abbrev Shape := SpanKind × MethodType

def TracedCall.shape (c : TracedCall) : Shape := (c.call.kind, c.call.method)

-- A call as it is traced from its start.
def TracedCall.ofStart (o : CallStart Message) : TracedCall := ⟨o.started.span, o.started.call⟩

-- Items that are given up one after the other take all their holds with them.
theorem foldl_release {State Item : Type} {P : State → List Hold → Prop} {holds : Item → List Hold}
    {release : State → Item → State}
    (hrelease : ∀ s item loose, P s (holds item ++ loose) → P (release s item) loose)
    (items : List Item) {s : State} {loose : List Hold}
    (h : P s (items.flatMap holds ++ loose)) : P (items.foldl release s) loose := by
  induction items generalizing s with
  | nil => exact h
  | cons item items ih =>
    rw [List.flatMap_cons, List.append_assoc] at h
    exact ih (hrelease _ _ _ h)

namespace Tracing

def has (t : Tracing) (h : Hold) : Bool :=
  match t.tracedCall? h.1 with
  | none => false
  | some traced => traced.call.has h.2

/-- The call came about by a legal run from its start, and so did the record of its span. -/
def Accounts (t : Tracing) (traced : TracedCall) : Prop :=
  ∃ (o : CallStart Message) (events : List (CallEvent Message)),
    o.config = t.config ∧ o.started.call.Legal events ∧ traced.span = o.started.span ∧
      traced.call = (o.started.call.run events).1 ∧
      t.recorder.records[traced.span]? =
        some (o.record.replay (o.started.effects ++ (o.started.call.run events).2))

/-- The tracing of calls of these shapes is in order. -/
structure Orderly (b : Baseline) (shapes : List Shape) (t : Tracing) (holds : List Hold) :
    Prop where
  traced : t.traced = true
  shapes : t.tracedCalls.map (Option.map TracedCall.shape) = shapes.map some
  accounts : ∀ i, i < t.tracedCalls.length →
    ∃ traced, t.tracedCall? i = some traced ∧ t.Accounts traced
  -- Every party has one holder.
  held : ∀ h, holds.count h = (t.has h).toNat
  apart : ∀ i j c d, t.tracedCall? i = some c → t.tracedCall? j = some d → c.span = d.span → i = j
  spans : t.recorder.records.length = t.tracedCalls.length + b.free.length
  free : ∀ span ∈ b.free, span < t.recorder.records.length ∧
    ∀ i c, t.tracedCall? i = some c → c.span ≠ span
  rejected : t.recorder.rejected = b.rejected
  late : t.recorder.late = b.late
  quiet : ∀ line ∈ t.reports, line.isSuppressed = false

variable {b : Baseline} {shapes : List Shape} {t : Tracing} {holds holds' : List Hold}

theorem Orderly.of_count (h : t.Orderly b shapes holds) (hc : ∀ k, holds'.count k = holds.count k) :
    t.Orderly b shapes holds' :=
  { h with held := fun k => (hc k).trans (h.held k) }

theorem lt_of_tracedCall? {i : Nat} {traced : TracedCall} (h : t.tracedCall? i = some traced) :
    i < t.tracedCalls.length := by
  unfold tracedCall? at h
  rw [Option.join_eq_some_iff, List.getElem?_eq_some_iff] at h
  exact h.1

-- Which spans have a log of their own is of no concern to the calls.
theorem Orderly.relog (h : t.Orderly b shapes holds) (logged : List Nat) :
    t.Orderly { b with logged } shapes holds :=
  { traced := h.traced, shapes := h.shapes, accounts := h.accounts, held := h.held
    apart := h.apart, spans := h.spans, free := h.free, rejected := h.rejected, late := h.late
    quiet := h.quiet }

-- A hold is a party of a traced call.
theorem Orderly.of_mem (h : t.Orderly b shapes holds) {i : Nat} {p : Party} (hm : (i, p) ∈ holds) :
    ∃ traced, t.tracedCall? i = some traced ∧ traced.call.has p = true ∧ t.Accounts traced := by
  have hpos : 0 < holds.count (i, p) := List.count_pos_iff.2 hm
  rw [h.held] at hpos
  unfold has at hpos
  cases htraced : t.tracedCall? i with
  | none => simp [htraced] at hpos
  | some traced =>
    obtain ⟨traced', htraced', haccounts⟩ := h.accounts i (lt_of_tracedCall? htraced)
    rw [htraced] at htraced'
    cases htraced'
    refine ⟨traced, rfl, ?_, haccounts⟩
    cases hp : traced.call.has p with
    | true => rfl
    | false => simp [htraced, hp] at hpos

theorem tell_of_traced {i : Nat} {traced : TracedCall} (h : t.tracedCall? i = some traced)
    (event : CallEvent Message) :
    t.tell i event =
      ({ t with
        tracedCalls := t.tracedCalls.set i
          (some { traced with call := (traced.call.step event).1 }) } : Tracing).perform
        traced.span (traced.call.step event).2 := by
  simp only [tell, h]

theorem tracedCall?_tell {i j : Nat} {event : CallEvent Message} {traced : TracedCall}
    (h : t.tracedCall? i = some traced) :
    (t.tell i event).tracedCall? j =
      if j = i then some { traced with call := (traced.call.step event).1 }
      else t.tracedCall? j := by
  have hlt := lt_of_tracedCall? h
  rw [tell_of_traced h]
  by_cases hj : j = i
  · subst hj
    simp [tracedCall?, perform, hlt]
  · simp only [tracedCall?, perform, if_neg hj, List.getElem?_set_ne (Ne.symm hj)]

-- The record of the call's span and those of other spans, after a call was told.
theorem records_tell {i : Nat} {event : CallEvent Message} {traced : TracedCall}
    (h : t.tracedCall? i = some traced) (span : Nat) :
    (t.tell i event).recorder.records[span]? =
      if traced.span = span then
        t.recorder.records[span]?.map (·.replay (traced.call.step event).2)
      else t.recorder.records[span]? := by
  rw [tell_of_traced h]
  exact Recorder.getElem?_perform _ _ _ _

theorem quiet_reports {reports : List Report} {effects : List Effect}
    (h : ∀ line ∈ reports, line.isSuppressed = false) (hq : Quiet effects) :
    ∀ line ∈ reports ++ effects.filterMap Effect.report?, line.isSuppressed = false := by
  intro line hline
  rcases List.mem_append.1 hline with hline | hline
  · exact h line hline
  · obtain ⟨e, he, hreport⟩ := List.mem_filterMap.1 hline
    cases e with
    | span op => cases hreport
    | report line' =>
      cases hreport
      exact hq _ he

theorem Accounts.sound {traced : TracedCall} (h : t.Accounts traced) : traced.call.Sound := by
  obtain ⟨o, events, -, -, -, hcall, -⟩ := h
  rw [hcall]
  exact Call.sound_run o.sound_started events

theorem span_tell {i j : Nat} {event : CallEvent Message} {traced c : TracedCall}
    (h : t.tracedCall? i = some traced) (hc : (t.tell i event).tracedCall? j = some c) :
    ∃ c', t.tracedCall? j = some c' ∧ c'.span = c.span := by
  rw [tracedCall?_tell h] at hc
  by_cases hj : j = i
  · rw [if_pos hj] at hc
    cases hc
    exact ⟨traced, hj ▸ h, rfl⟩
  · rw [if_neg hj] at hc
    exact ⟨c, hc, rfl⟩

theorem shapes_tell {i : Nat} {event : CallEvent Message} {traced : TracedCall}
    (h : t.tracedCall? i = some traced) :
    (t.tell i event).tracedCalls.map (Option.map TracedCall.shape) =
      t.tracedCalls.map (Option.map TracedCall.shape) := by
  have hsame : TracedCall.shape { traced with call := (traced.call.step event).1 } =
      traced.shape := by
    unfold TracedCall.shape
    rw [(Call.shape_step traced.call event).1, (Call.shape_step traced.call event).2]
  have hget : (t.tracedCalls.map (Option.map TracedCall.shape))[i]? =
      some (some traced.shape) := by
    rw [List.getElem?_map, Option.map_eq_some_iff]
    exact ⟨some traced, Option.join_eq_some_iff.1 h, rfl⟩
  obtain ⟨hlt, hget⟩ := List.getElem?_eq_some_iff.1 hget
  rw [tell_of_traced h]
  show (t.tracedCalls.set i _).map (Option.map TracedCall.shape) = _
  rw [List.map_set, Option.map_some, hsame, ← hget, List.set_getElem_self]

-- The run of the call that was told is one event longer.
theorem Accounts.tell_self {i : Nat} {event : CallEvent Message} {traced : TracedCall}
    (h : t.Accounts traced) (htraced : t.tracedCall? i = some traced)
    (hpermits : traced.call.permits event = true) :
    (t.tell i event).Accounts { traced with call := (traced.call.step event).1 } := by
  obtain ⟨o, events, hconfig, hlegal, hspan, hcall, hrecord⟩ := h
  refine ⟨o, events ++ [event], ?_, ?_, hspan, ?_, ?_⟩
  · rw [tell_of_traced htraced]
    exact hconfig
  · rw [Call.legal_append]
    refine ⟨hlegal, ?_, trivial⟩
    rw [← hcall, hpermits]
  · rw [Call.run_append, ← hcall]
    rfl
  · have hstep : ((o.started.call.run events).1.run [event]).2 = (traced.call.step event).2 := by
      rw [← hcall]
      simp [Call.run]
    rw [records_tell htraced, if_pos rfl, hrecord, Option.map_some, Call.run_append, hstep,
      ← List.append_assoc, SpanRecord.replay_append o.record (_ ++ _)]

theorem Accounts.tell_other {i : Nat} {event : CallEvent Message} {traced other : TracedCall}
    (h : t.Accounts other) (htraced : t.tracedCall? i = some traced)
    (hne : traced.span ≠ other.span) : (t.tell i event).Accounts other := by
  obtain ⟨o, events, hconfig, hlegal, hspan, hcall, hrecord⟩ := h
  refine ⟨o, events, ?_, hlegal, hspan, hcall, ?_⟩
  · rw [tell_of_traced htraced]
    exact hconfig
  · rw [records_tell htraced, if_neg hne, hrecord]

-- Nothing that a legal run does next comes after the end of its span.
theorem Accounts.intime {traced : TracedCall} (h : t.Accounts traced) (event : CallEvent Message) :
    ∃ record, t.recorder.records[traced.span]? = some record ∧
      record.InTime (traced.call.step event).2 ∧ Quiet (traced.call.step event).2 := by
  have hsound := h.sound
  obtain ⟨o, events, -, -, -, hcall, hrecord⟩ := h
  refine ⟨_, hrecord, Call.inTime_step hsound event fun hopen => ?_⟩
  rw [o.finishCount_run, ← hcall, hopen]
  rfl

/-- A legal event of a call keeps the order, when it changes the holds as it changes the parties. -/
theorem Orderly.tell (h : t.Orderly b shapes holds) {i : Nat} {event : CallEvent Message}
    {traced : TracedCall} (htraced : t.tracedCall? i = some traced)
    (haccounts : t.Accounts traced) (hpermits : traced.call.permits event = true)
    (hholds : ∀ j p, holds'.count (j, p) =
      if j = i then ((traced.call.step event).1.has p).toNat else holds.count (j, p)) :
    (t.tell i event).Orderly b shapes holds' := by
  obtain ⟨record, hrecord, hintime, hquiet⟩ := haccounts.intime event
  have hcounts := t.recorder.counts_perform traced.span hrecord hintime
  have htell := tell_of_traced htraced event
  refine
    { traced := ?_, shapes := ?_, accounts := ?_, held := ?_, apart := ?_, spans := ?_, free := ?_
      rejected := ?_, late := ?_, quiet := ?_ }
  · rw [htell]
    exact h.traced
  · rw [shapes_tell htraced, h.shapes]
  · intro j hj
    have hlt : j < t.tracedCalls.length := by
      rw [htell] at hj
      simpa [perform] using hj
    obtain ⟨other, hother, haccounts'⟩ := h.accounts j hlt
    rw [tracedCall?_tell htraced]
    by_cases hji : j = i
    · rw [if_pos hji]
      exact ⟨_, rfl, haccounts.tell_self htraced hpermits⟩
    · rw [if_neg hji]
      have hne : traced.span ≠ other.span := fun he =>
        hji (h.apart j i other traced hother htraced he.symm)
      exact ⟨other, hother, haccounts'.tell_other htraced hne⟩
  · rintro ⟨j, p⟩
    rw [hholds, has, tracedCall?_tell htraced]
    by_cases hji : j = i
    · rw [if_pos hji, if_pos hji]
    · rw [if_neg hji, if_neg hji, h.held]
      rfl
  · intro j k c d hc hd he
    obtain ⟨c', hc', hcs⟩ := span_tell htraced hc
    obtain ⟨d', hd', hds⟩ := span_tell htraced hd
    exact h.apart j k c' d' hc' hd' (by rw [hcs, hds, he])
  · rw [htell]
    simpa [perform] using h.spans
  · intro span hspan
    obtain ⟨hlt, hfree⟩ := h.free span hspan
    refine ⟨?_, fun j c hc => ?_⟩
    · rw [htell]
      simpa [perform] using hlt
    · obtain ⟨c', hc', hcs⟩ := span_tell htraced hc
      rw [← hcs]
      exact hfree j c' hc'
  · rw [htell]
    exact hcounts.1.trans h.rejected
  · rw [htell]
    exact hcounts.2.trans h.late
  · rw [htell]
    exact quiet_reports h.quiet hquiet

-- What a party does without going keeps the holds.
theorem Orderly.tell_stay (h : t.Orderly b shapes holds) {i : Nat} {p : Party}
    {event : CallEvent Message} (hm : (i, p) ∈ holds)
    (hp : ∀ c : Call, c.permits event = c.has p)
    (hh : ∀ (c : Call) q, (c.step event).1.has q = c.has q) :
    (t.tell i event).Orderly b shapes holds := by
  obtain ⟨traced, htraced, hhas, haccounts⟩ := h.of_mem hm
  refine h.tell htraced haccounts ((hp _).trans hhas) fun j q => ?_
  by_cases hj : j = i
  · subst hj
    rw [if_pos rfl, h.held, hh, has, htraced]
  · rw [if_neg hj]

-- A party that goes takes its hold with it.
theorem Orderly.tell_leave {i : Nat} {p : Party} {event : CallEvent Message}
    (h : t.Orderly b shapes ((i, p) :: holds))
    (hp : ∀ c : Call, c.has p = true → c.permits event = true)
    (hh : ∀ c : Call, c.Sound → c.has p = true →
      ∀ q, (c.step event).1.has q = if q = p then false else c.has q) :
    (t.tell i event).Orderly b shapes holds := by
  obtain ⟨traced, htraced, hhas, haccounts⟩ := h.of_mem List.mem_cons_self
  refine h.tell htraced haccounts (hp _ hhas) fun j q => ?_
  have hheld := h.held (j, q)
  by_cases hj : j = i
  · subst hj
    rw [if_pos rfl, hh _ haccounts.sound hhas]
    simp only [has, htraced] at hheld
    by_cases hq : q = p
    · subst hq
      rw [List.count_cons_self, hhas] at hheld
      rw [if_pos rfl]
      simpa using hheld
    · rw [List.count_cons_of_ne (by simp [Ne.symm hq])] at hheld
      rw [if_neg hq]
      exact hheld
  · rw [if_neg hj, List.count_cons_of_ne (by simp [Ne.symm hj])]

theorem Orderly.requestPolled (h : t.Orderly b shapes holds) {i : Nat} (hm : (i, .requests) ∈ holds)
    (answer : Polled (Delivery Message)) : (t.tell i (.requestPolled answer)).Orderly b shapes holds :=
  h.tell_stay hm (fun c => c.permits_requestPolled answer) fun c => c.has_requestPolled answer

theorem Orderly.responsePolled (h : t.Orderly b shapes holds) {i : Nat} (hm : (i, .reader) ∈ holds)
    (answer : Polled (Delivery Message)) : (t.tell i (.responsePolled answer)).Orderly b shapes holds :=
  h.tell_stay hm (fun c => c.permits_responsePolled answer) fun c => c.has_responsePolled answer

theorem Orderly.responseWritten (h : t.Orderly b shapes holds) {i : Nat} (hm : (i, .writer) ∈ holds)
    (op : SinkOp Message) : (t.tell i (.responseWritten op)).Orderly b shapes holds :=
  h.tell_stay hm (fun c => c.permits_responseWritten op) fun c => c.has_responseWritten op

theorem Orderly.requestsDropped {i : Nat} (h : t.Orderly b shapes ((i, .requests) :: holds)) :
    (t.tell i .requestsDropped).Orderly b shapes holds :=
  h.tell_leave (fun _ hc => hc) fun c _ _ => c.has_requestsDropped

theorem Orderly.readerDropped {i : Nat} (h : t.Orderly b shapes ((i, .reader) :: holds)) :
    (t.tell i .responsesDropped).Orderly b shapes holds := by
  refine h.tell_leave (fun _ hc => Call.permits_responsesDropped (.inl hc)) fun c _ hc q => ?_
  have hwriter := Call.not_writer_of_reader hc
  rw [Call.has_responsesDropped]
  cases q <;> simp [hwriter]

theorem Orderly.writerDropped {i : Nat} (h : t.Orderly b shapes ((i, .writer) :: holds)) :
    (t.tell i .responsesDropped).Orderly b shapes holds := by
  refine h.tell_leave (fun _ hc => Call.permits_responsesDropped (.inr hc)) fun c _ hc q => ?_
  have hreader : c.has .reader = false := by
    cases hr : c.has .reader with
    | false => rfl
    | true => rw [Call.not_writer_of_reader hr] at hc; cases hc
  rw [Call.has_responsesDropped]
  cases q <;> simp [hreader]

theorem Orderly.abandoned {i : Nat} (h : t.Orderly b shapes ((i, .continuation) :: holds)) :
    (t.tell i .abandoned).Orderly b shapes holds :=
  h.tell_leave (fun _ hc => hc) fun c _ _ => c.has_abandoned

theorem Orderly.resolved {i : Nat} (h : t.Orderly b shapes ((i, .continuation) :: holds))
    {outcome : Outcome Message} (ho : outcome ≠ .stream) :
    (t.tell i (.resolved outcome)).Orderly b shapes holds :=
  h.tell_leave (fun _ hc => hc) fun _ _ hc => Call.has_resolved hc ho

/-- The caller of a client call gets a hold on its responses for the hold of the continuation. -/
theorem Orderly.resolved_stream {i : Nat} (h : t.Orderly b shapes ((i, .continuation) :: holds))
    (hkind : ∀ traced, t.tracedCall? i = some traced → traced.call.kind = .client) :
    (t.tell i (.resolved .stream)).Orderly b shapes ((i, .reader) :: holds) := by
  obtain ⟨traced, htraced, hhas, haccounts⟩ := h.of_mem List.mem_cons_self
  have hstep := Call.has_resolved_stream (M := Message) haccounts.sound (hkind _ htraced) hhas
  have hreader := Call.not_reader_of_running haccounts.sound hhas
  refine h.tell htraced haccounts hhas fun j q => ?_
  have hheld := h.held (j, q)
  by_cases hj : j = i
  · subst hj
    rw [if_pos rfl, hstep]
    simp only [has, htraced] at hheld
    have hrun : traced.call.has .continuation = true := hhas
    cases q <;> simp_all
  · rw [if_neg hj]
    simp [Ne.symm hj]

/-! ## Streams -/

theorem holds_poll (t : Tracing) (source : Source) :
    (t.poll source).2.1.holds = source.holds := by
  induction source with
  | script s => rfl
  | watched call role inner ih => cases role <;> simp [poll, Source.holds, ih]

-- A poll of a stream keeps the holds, those of the stream and all others.
theorem Orderly.poll {source : Source} (h : t.Orderly b shapes (source.holds ++ holds)) :
    (t.poll source).1.Orderly b shapes (source.holds ++ holds) := by
  induction source generalizing holds with
  | script s => exact h
  | watched call role inner ih =>
    have hinner : (t.poll inner).1.Orderly b shapes (inner.holds ++ (call, role.party) :: holds) :=
      ih (h.of_count fun k => List.perm_middle.count_eq k)
    have hnext : (t.poll inner).1.Orderly b shapes
        ((Source.watched call role inner).holds ++ holds) :=
      hinner.of_count fun k => (List.perm_middle.count_eq k).symm
    have hm : (call, role.party) ∈ (Source.watched call role inner).holds ++ holds :=
      List.mem_cons_self
    cases role with
    | requests => exact hnext.requestPolled hm _
    | responses => exact hnext.responsePolled hm _

-- A stream that goes takes its holds with it.
theorem Orderly.dropSource {source : Source} (h : t.Orderly b shapes (source.holds ++ holds)) :
    (t.dropSource source).Orderly b shapes holds := by
  induction source generalizing holds with
  | script s => exact h
  | watched call role inner ih =>
    have hinner : (t.dropSource inner).Orderly b shapes ((call, role.party) :: holds) :=
      ih (h.of_count fun k => List.perm_middle.count_eq k)
    cases role with
    | requests => exact hinner.requestsDropped
    | responses => exact hinner.readerDropped

theorem Orderly.unwatch {source : Source} (h : t.Orderly b shapes (source.holds ++ holds)) :
    (t.unwatch source).1.Orderly b shapes ((t.unwatch source).2.holds ++ holds) := by
  cases source with
  | script s => exact h
  | watched call role inner =>
    cases role with
    | requests => exact h.requestsDropped
    | responses => exact h.readerDropped

theorem holds_pollWhile (t : Tracing) (source : Source) (n : Nat) :
    (t.pollWhile source n).2.1.holds = source.holds := by
  induction n generalizing t source with
  | zero => rfl
  | succ n ih =>
    have hpoll := holds_poll t source
    unfold pollWhile
    rcases h : t.poll source with ⟨t', source', answer⟩
    rw [h] at hpoll
    rcases answer with _ | (s | m) | _
    · exact hpoll
    · exact hpoll
    · exact (ih t' source').trans hpoll
    · exact hpoll

theorem Orderly.pollWhile {source : Source} (n : Nat)
    (h : t.Orderly b shapes (source.holds ++ holds)) :
    (t.pollWhile source n).1.Orderly b shapes (source.holds ++ holds) := by
  induction n generalizing t source with
  | zero => exact h
  | succ n ih =>
    have hpoll := h.poll
    have hholds := holds_poll t source
    unfold Tracing.pollWhile
    rcases hp : t.poll source with ⟨t', source', answer⟩
    rw [hp] at hpoll hholds
    rcases answer with _ | (s | m) | _
    · exact hpoll
    · exact hpoll
    · rw [← hholds] at hpoll
      have hnext := ih hpoll
      rw [hholds] at hnext
      exact hnext
    · exact hpoll

/-! ## New calls -/

-- The holds on a call that has just started.
def newHolds (kind : SpanKind) (type : MethodType) (call : Nat) : List Hold :=
  (call, .continuation) :: (if type.streamsRequests then [(call, .requests)] else []) ++
    (if kind = .server ∧ type.streamsResponses then [(call, .writer)] else [])

theorem count_newHolds (kind : SpanKind) (type : MethodType) (log : CallLog) (i j : Nat)
    (p : Party) :
    (newHolds kind type i).count (j, p) =
      if j = i then ((Call.ofLog kind type log).has p).toNat else 0 := by
  by_cases hj : j = i
  · subst hj
    rw [if_pos rfl]
    cases kind <;> cases hq : type.streamsRequests <;> cases hr : type.streamsResponses <;>
      cases p <;>
      simp [newHolds, hq, hr, Call.ofLog, Call.has, Call.outboundRequests, Call.inboundRequests,
        Call.outboundResponses]
  · rw [if_neg hj]
    refine List.count_eq_zero.2 fun hm => hj ?_
    simp only [newHolds, List.cons_append, List.mem_cons, List.mem_append] at hm
    rcases hm with hm | hm | hm
    · exact (Prod.mk.inj hm).1
    · split at hm
      · exact (Prod.mk.inj (List.mem_singleton.1 hm)).1
      · cases hm
    · split at hm
      · exact (Prod.mk.inj (List.mem_singleton.1 hm)).1
      · cases hm

/-- What the next call is started from. -/
def nextCall (t : Tracing) (ctx : CallContext) (type : MethodType) (metadata : Metadata)
    (message : Option Message) : CallStart Message :=
  { recorder := t.recorder, config := t.config
    active := if t.ambient then t.recorder.active else none
    ctx, type, metadata, message }

-- The number of the next call is not in use.
theorem tracedCall?_length : t.tracedCall? t.tracedCalls.length = none := by
  unfold tracedCall?
  rw [List.getElem?_eq_none (Nat.le_refl _)]
  rfl

theorem Accounts.span_lt {traced : TracedCall} (h : t.Accounts traced) :
    traced.span < t.recorder.records.length := by
  obtain ⟨_, _, _, _, _, _, hrecord⟩ := h
  exact (List.getElem?_eq_some_iff.1 hrecord).1

theorem Orderly.span_lt (h : t.Orderly b shapes holds) {i : Nat} {traced : TracedCall}
    (ht : t.tracedCall? i = some traced) : traced.span < t.recorder.records.length := by
  obtain ⟨traced', ht', haccounts⟩ := h.accounts i (lt_of_tracedCall? ht)
  rw [ht] at ht'
  cases ht'
  exact haccounts.span_lt

section

variable (ctx : CallContext) (type : MethodType) (metadata : Metadata) (message : Option Message)

theorem start_of_traced (h : t.traced = true) :
    (t.start ctx type metadata message).1 =
      let o := t.nextCall ctx type metadata message
      ({ t with
        recorder := o.outcome.1
        tracedCalls := t.tracedCalls ++ [some (.ofStart o)] } : Tracing).perform
        o.started.span o.started.effects := by
  unfold start
  rw [if_pos h]
  rfl

theorem tracedCall?_start (h : t.traced = true) (i : Nat) :
    (t.start ctx type metadata message).1.tracedCall? i =
      if i = t.tracedCalls.length then some (.ofStart (t.nextCall ctx type metadata message))
      else t.tracedCall? i := by
  rw [start_of_traced ctx type metadata message h]
  simp only [tracedCall?, perform]
  by_cases hi : i = t.tracedCalls.length
  · rw [if_pos hi, hi, List.getElem?_concat_length]
    rfl
  · rw [if_neg hi, List.getElem?_append]
    split
    · rfl
    · have hold : t.tracedCalls[i]? = none := List.getElem?_eq_none (by omega)
      rw [hold, List.getElem?_eq_none]
      simp only [List.length_singleton]
      omega

theorem length_records_start (h : t.traced = true) :
    (t.start ctx type metadata message).1.recorder.records.length =
      t.recorder.records.length + 1 := by
  rw [start_of_traced ctx type metadata message h]
  simp only [perform, Recorder.length_perform, CallStart.records_outcome, List.length_append,
    List.length_singleton]
  rfl

-- The record of a new call is what its start makes of a new span.
theorem records_start_new (h : t.traced = true) :
    let o := t.nextCall ctx type metadata message
    (t.start ctx type metadata message).1.recorder.records[o.started.span]? =
      some (o.record.replay o.started.effects) := by
  intro o
  rw [start_of_traced ctx type metadata message h]
  simp only [perform]
  rw [Recorder.getElem?_perform, if_pos rfl, CallStart.records_outcome, CallStart.span_started,
    List.getElem?_concat_length]
  rfl

-- No other record changes.
theorem records_start_old (h : t.traced = true) {span : Nat}
    (hspan : span < t.recorder.records.length) :
    (t.start ctx type metadata message).1.recorder.records[span]? = t.recorder.records[span]? := by
  have hne : (t.nextCall ctx type metadata message).started.span ≠ span := by
    rw [CallStart.span_started]
    exact Nat.ne_of_gt hspan
  rw [start_of_traced ctx type metadata message h]
  simp only [perform]
  rw [Recorder.getElem?_perform, if_neg hne, CallStart.records_outcome]
  exact List.getElem?_append_left hspan

-- The start of a call is no misuse of its span.
theorem counts_start (h : t.traced = true) :
    (t.start ctx type metadata message).1.recorder.rejected = t.recorder.rejected ∧
      (t.start ctx type metadata message).1.recorder.late = t.recorder.late := by
  let o := t.nextCall ctx type metadata message
  have hnew : o.outcome.1.records[o.started.span]? = some o.record := by
    rw [o.records_outcome, o.span_started, List.getElem?_concat_length]
  have hcounts := o.outcome.1.counts_perform o.started.span hnew o.inTime_started.1
  rw [start_of_traced ctx type metadata message h]
  exact ⟨hcounts.1.trans o.counts_outcome.1, hcounts.2.trans o.counts_outcome.2⟩

theorem shapes_start (h : t.traced = true) :
    (t.start ctx type metadata message).1.tracedCalls.map (Option.map TracedCall.shape) =
      t.tracedCalls.map (Option.map TracedCall.shape) ++ [some (ctx.kind, type)] := by
  rw [start_of_traced ctx type metadata message h]
  simp only [perform, List.map_append, List.map_singleton, Option.map_some, TracedCall.shape,
    TracedCall.ofStart, CallStart.call_started]
  rfl

-- The parties of a new call are there, and those of other calls stay.
theorem has_start (h : t.traced = true) (j : Nat) (p : Party) :
    ((t.start ctx type metadata message).1.has (j, p)).toNat =
      (newHolds ctx.kind type t.tracedCalls.length).count (j, p) + (t.has (j, p)).toNat := by
  let o := t.nextCall ctx type metadata message
  rw [count_newHolds _ _ (CallLog.ofConfig o.config o.record.context)]
  unfold has
  rw [tracedCall?_start ctx type metadata message h]
  by_cases hj : j = t.tracedCalls.length
  · rw [if_pos hj, if_pos hj, hj, tracedCall?_length]
    simp only [TracedCall.ofStart]
    rw [o.call_started]
    rfl
  · rw [if_neg hj, if_neg hj, Nat.zero_add]

-- The run of a new call is still to begin.
theorem Accounts.start_new (h : t.traced = true) :
    (t.start ctx type metadata message).1.Accounts
      (.ofStart (t.nextCall ctx type metadata message)) := by
  refine ⟨_, [], ?_, trivial, rfl, rfl, ?_⟩
  · rw [start_of_traced ctx type metadata message h]
    rfl
  · simp only [Call.run, List.append_nil]
    exact records_start_new ctx type metadata message h

theorem Accounts.start_old {traced : TracedCall} (haccounts : t.Accounts traced)
    (h : t.traced = true) : (t.start ctx type metadata message).1.Accounts traced := by
  have hlt := haccounts.span_lt
  obtain ⟨o, events, hconfig, hlegal, hspan, hcall, hrecord⟩ := haccounts
  refine ⟨o, events, ?_, hlegal, hspan, hcall, ?_⟩
  · rw [start_of_traced ctx type metadata message h]
    exact hconfig
  · rw [records_start_old ctx type metadata message h hlt]
    exact hrecord

-- No call of before has the span of the new one.
theorem Orderly.span_ne (h : t.Orderly b shapes holds) {i : Nat} {traced : TracedCall}
    (ht : t.tracedCall? i = some traced) :
    traced.span ≠ (t.nextCall ctx type metadata message).started.span := by
  rw [CallStart.span_started]
  exact Nat.ne_of_lt (h.span_lt ht)

-- A new call comes with one new span, and its parties are held.
theorem Orderly.start (h : t.Orderly b shapes holds) :
    (t.start ctx type metadata message).1.Orderly b (shapes ++ [(ctx.kind, type)])
      (newHolds ctx.kind type t.tracedCalls.length ++ holds) := by
  have hstart := start_of_traced ctx type metadata message h.traced
  have hcalled := tracedCall?_start ctx type metadata message h.traced
  have hlength := length_records_start ctx type metadata message h.traced
  have hcounts := counts_start ctx type metadata message h.traced
  refine
    { traced := ?_, shapes := ?_, accounts := ?_, held := ?_, apart := ?_, spans := ?_, free := ?_
      rejected := ?_, late := ?_, quiet := ?_ }
  · rw [hstart]
    exact h.traced
  · rw [shapes_start ctx type metadata message h.traced, h.shapes, List.map_append]
    rfl
  · intro i hi
    rw [hcalled]
    by_cases hin : i = t.tracedCalls.length
    · rw [if_pos hin]
      exact ⟨_, rfl, Accounts.start_new ctx type metadata message h.traced⟩
    · rw [if_neg hin]
      have hlt : i < t.tracedCalls.length := by
        rw [hstart] at hi
        simp only [perform, List.length_append, List.length_singleton] at hi
        omega
      obtain ⟨traced, ht, haccounts⟩ := h.accounts i hlt
      exact ⟨traced, ht, haccounts.start_old ctx type metadata message h.traced⟩
  · rintro ⟨j, p⟩
    rw [List.count_append, h.held, has_start ctx type metadata message h.traced]
  · intro i j c d hc hd he
    rw [hcalled] at hc hd
    by_cases hi : i = t.tracedCalls.length <;> by_cases hj : j = t.tracedCalls.length
    · rw [hi, hj]
    · rw [if_pos hi] at hc
      rw [if_neg hj] at hd
      cases hc
      exact absurd he.symm (h.span_ne ctx type metadata message hd)
    · rw [if_neg hi] at hc
      rw [if_pos hj] at hd
      cases hd
      exact absurd he (h.span_ne ctx type metadata message hc)
    · rw [if_neg hi] at hc
      rw [if_neg hj] at hd
      exact h.apart i j c d hc hd he
  · rw [hlength, h.spans, hstart]
    simp only [perform, List.length_append, List.length_singleton]
    omega
  · intro span hspan
    obtain ⟨hlt, hfree⟩ := h.free span hspan
    refine ⟨by omega, fun i c hc => ?_⟩
    rw [hcalled] at hc
    by_cases hi : i = t.tracedCalls.length
    · rw [if_pos hi] at hc
      cases hc
      rw [TracedCall.ofStart, CallStart.span_started]
      exact Nat.ne_of_gt hlt
    · rw [if_neg hi] at hc
      exact hfree i c hc
  · exact hcounts.1.trans h.rejected
  · exact hcounts.2.trans h.late
  · rw [hstart]
    exact quiet_reports h.quiet (CallStart.inTime_started _).2

end

/-! ## What is done past the calls -/

/-- The recorder may be used past the calls, as long as it leaves the records of their spans. -/
theorem Orderly.of_recorder (h : t.Orderly b shapes holds) {r : Recorder} {free : List Nat}
    (hlength : r.records.length = t.tracedCalls.length + free.length)
    (hkeep : ∀ i c, t.tracedCall? i = some c →
      r.records[c.span]? = t.recorder.records[c.span]?)
    (hfree : ∀ span ∈ free, span < r.records.length ∧
      ∀ i c, t.tracedCall? i = some c → c.span ≠ span) :
    ({ t with recorder := r, reports := [] } : Tracing).Orderly
      { b with rejected := r.rejected, late := r.late, free } shapes holds :=
  { h with
    accounts := fun i hi => by
      obtain ⟨traced, htraced, o, events, hconfig, hlegal, hspan, hcall, hrecord⟩ :=
        h.accounts i hi
      exact ⟨traced, htraced, o, events, hconfig, hlegal, hspan, hcall,
        (hkeep i traced htraced).trans hrecord⟩
    held := h.held
    apart := h.apart
    spans := hlength
    free := hfree
    rejected := rfl
    late := rfl
    quiet := fun line hline => by cases hline }

end Tracing

end CallTrace
