import CallTrace.Proofs.Payloads
import CallTrace.Proofs.Related
import CallTrace.Session.Continuation

/-!
# Redacted exchanges

A redacted message has nothing in it.  An exchange is redacted by redacting every message in it:
those of its streams and sinks, and those that its calls hold or have on record.  As long as nothing
logs payloads, every operation does the same to an exchange and to the redacted one, whose tracing
is the same, and its result there is the redacted result.
-/

namespace CallTrace

def Message.redacted (_ : Message) : Message := .unit

/-! ## Streams and sinks -/

def Polled.redacted (answer : Polled (Delivery Message)) : Polled (Delivery Message) :=
  answer.mapContents Message.redacted

def Script.redacted (s : Script (Delivery Message)) : Script (Delivery Message) :=
  s.map Polled.redacted

theorem Script.poll_redacted (s : Script (Delivery Message)) :
    (Script.redacted s).poll = (Script.redacted s.poll.1, s.poll.2.redacted) := by
  cases s <;> rfl

def Source.redacted : Source → Source
  | script s => .script (Script.redacted s)
  | watched call role inner => .watched call role inner.redacted

theorem Source.size_redacted (source : Source) : source.redacted.size = source.size := by
  induction source with
  | script s => exact List.length_map _
  | watched call role inner ih => exact ih

section

variable {M N : Type} (f : M → N)

def Channel.map (c : Channel M) : Channel N :=
  { capacity := c.capacity, queue := c.queue.map f, closed := c.closed, connected := c.connected }

def ScriptedTicket.map : ScriptedTicket M → ScriptedTicket N
  | write number waited m => .write number waited (f m)
  | complete => .complete

def ScriptedSink.map (s : ScriptedSink M) : ScriptedSink N :=
  { slow := s.slow, failures := s.failures, completeFailure := s.completeFailure
    seesComplete := s.seesComplete, begun := s.begun, received := s.received.map f
    completed := s.completed }

def Outlet.map : Outlet M → Outlet N
  | channel c => .channel (c.map f)
  | scripted s => .scripted (s.map f)

def OutletTicket.map : OutletTicket M → OutletTicket N
  | channel op => .channel (op.map f)
  | scripted ticket => .scripted (ticket.map f)

def Attempt.map {τ υ : Type} (f : τ → υ) : Attempt τ → Attempt υ
  | waiting ticket => .waiting (f ticket)
  | answered answer => .answered answer

def Received.map : Received M → Received N
  | message m => .message (f m)
  | empty => .empty
  | disconnected => .disconnected
  | closed => .closed
  | collected messages completed => .collected (messages.map f) completed

-- A sink does with other contents what it does anyway.
theorem Channel.attempt_map (c : Channel M) (op : SinkOp M) :
    (c.map f).attempt (op.map f) =
      ((c.attempt op).1.map f, (c.attempt op).2.map (SinkOp.map f)) := by
  cases op with
  | complete => rfl
  | write m =>
    have hclosed : (c.map f).closed = c.closed := rfl
    have hroom : (c.map f).queue.length < (c.map f).capacity ↔ c.queue.length < c.capacity := by
      simp [map]
    simp only [attempt, SinkOp.map, hclosed, hroom]
    split
    · rfl
    · split
      · simp [map, Attempt.map]
      · rfl

theorem ScriptedSink.attempt_map (s : ScriptedSink M) (ticket : ScriptedTicket M) :
    (s.map f).attempt (ticket.map f) =
      ((s.attempt ticket).1.map f, (s.attempt ticket).2.map (ScriptedTicket.map f)) := by
  cases ticket with
  | write number waited m =>
    simp only [attempt, ScriptedTicket.map]
    rw [show (s.map f).slow = s.slow from rfl, show (s.map f).failures = s.failures from rfl]
    split
    · rfl
    · split <;> simp [map, Attempt.map]
  | complete =>
    simp only [attempt, ScriptedTicket.map]
    rw [show (s.map f).seesComplete = s.seesComplete from rfl]
    split <;> rfl

namespace Outlet

theorem start_map (o : Outlet M) (op : SinkOp M) :
    (o.map f).start (op.map f) = ((o.start op).1.map f, (o.start op).2.map f) := by
  cases o with
  | channel c => rfl
  | scripted s => cases op <;> rfl

theorem attempt_map (o : Outlet M) (ticket : OutletTicket M) :
    (o.map f).attempt (ticket.map f) =
      ((o.attempt ticket).1.map f, (o.attempt ticket).2.map (OutletTicket.map f)) := by
  cases o with
  | channel c =>
    cases ticket with
    | channel op =>
      simp only [map, OutletTicket.map, attempt, c.attempt_map]
      generalize c.attempt op = tried
      rcases tried with ⟨c', op' | answer⟩ <;> rfl
    | scripted ticket => rfl
  | scripted s =>
    cases ticket with
    | channel op => rfl
    | scripted ticket =>
      simp only [map, OutletTicket.map, attempt, s.attempt_map]
      generalize s.attempt ticket = tried
      rcases tried with ⟨s', ticket' | answer⟩ <;> rfl

theorem disconnect_map (o : Outlet M) : (o.map f).disconnect = o.disconnect.map f := by
  cases o <;> rfl

theorem close_map (o : Outlet M) : (o.map f).close = o.close.map f := by
  cases o <;> rfl

theorem receive_map (o : Outlet M) :
    (o.map f).receive = (o.receive.1.map f, o.receive.2.map f) := by
  cases o with
  | channel c =>
    obtain ⟨capacity, queue, closed, connected⟩ := c
    cases closed <;> cases queue <;> cases connected <;> rfl
  | scripted s => rfl

theorem collected_map (o : Outlet M) : (o.map f).collected = o.collected.map f := by
  cases o <;> rfl

end Outlet

end

/-! ## Tracing -/

namespace Tracing

/-- Tracing under which no call logs payloads. -/
structure Silent (t : Tracing) : Prop where
  config : t.config.logPayloads = false
  calls : ∀ traced, some traced ∈ t.tracedCalls → traced.call.log.logPayloads = false

variable {t : Tracing} (h : t.Silent)
include h

theorem Silent.tracedCall? {i : Nat} {traced : TracedCall}
    (htraced : t.tracedCall? i = some traced) : traced.call.log.logPayloads = false :=
  h.calls traced (List.mem_of_getElem? (Option.join_eq_some_iff.1 htraced))

theorem Silent.tell (i : Nat) (event : CallEvent Message) : (t.tell i event).Silent := by
  unfold Tracing.tell
  split
  · exact h
  · rename_i traced htraced
    refine ⟨h.config, fun other hother => ?_⟩
    rcases List.mem_or_eq_of_mem_set hother with hold | hnew
    · exact h.calls other hold
    · cases hnew
      exact (traced.call.logPayloads_step event).trans (h.tracedCall? htraced)

theorem Silent.start (ctx : CallContext) (type : MethodType) (metadata : Metadata)
    (message : Option Message) : (t.start ctx type metadata message).1.Silent := by
  unfold Tracing.start
  split
  · refine ⟨h.config, fun other hother => ?_⟩
    rcases List.mem_append.1 hother with hold | hnew
    · exact h.calls other hold
    · cases List.mem_singleton.1 hnew
      exact (Recorder.logPayloads_startCall _ _ _ _ _ _ _).trans h.config
  · refine ⟨h.config, fun other hother => ?_⟩
    rcases List.mem_append.1 hother with hold | hnew
    · exact h.calls other hold
    · cases List.mem_singleton.1 hnew

theorem Silent.tell_redacted (i : Nat) (event : CallEvent Message) :
    t.tell i (event.map Message.redacted) = t.tell i event := by
  unfold Tracing.tell
  split
  · rfl
  · rename_i traced htraced
    rw [Call.step_map Message.redacted (h.tracedCall? htraced)]

theorem Silent.start_redacted (ctx : CallContext) (type : MethodType) (metadata : Metadata)
    (message : Option Message) :
    t.start ctx type metadata (message.map Message.redacted) =
      t.start ctx type metadata message := by
  unfold Tracing.start
  dsimp only
  rw [Recorder.startCall_map Message.redacted t.recorder h.config]

omit h in
theorem watch_redacted (t : Tracing) (i : Nat) (role : Role) (source : Source) :
    t.watch i role source.redacted = (t.watch i role source).redacted := by
  unfold watch
  split <;> rfl

theorem Silent.poll (source : Source) : (t.poll source).1.Silent := by
  induction source with
  | script s => exact h
  | watched i role inner ih =>
    cases role with
    | requests => exact ih.tell i (.requestPolled (t.poll inner).2.2)
    | responses => exact ih.tell i (.responsePolled (t.poll inner).2.2)

theorem Silent.poll_redacted (source : Source) :
    t.poll source.redacted =
      ((t.poll source).1, (t.poll source).2.1.redacted, (t.poll source).2.2.redacted) := by
  induction source with
  | script s =>
    unfold Source.redacted Tracing.poll
    rw [Script.poll_redacted]
  | watched i role inner ih =>
    have hinner := h.poll inner
    unfold Source.redacted Tracing.poll
    rw [ih]
    cases role with
    | requests =>
      have htold := hinner.tell_redacted i (.requestPolled (t.poll inner).2.2)
      exact congrArg (·, _) htold
    | responses =>
      have htold := hinner.tell_redacted i (.responsePolled (t.poll inner).2.2)
      exact congrArg (·, _) htold

theorem Silent.dropSource (source : Source) : (t.dropSource source).Silent := by
  induction source with
  | script s => exact h
  | watched i role inner ih =>
    cases role with
    | requests => exact ih.tell i .requestsDropped
    | responses => exact ih.tell i .responsesDropped

omit h in
theorem dropSource_redacted (t : Tracing) (source : Source) :
    t.dropSource source.redacted = t.dropSource source := by
  induction source with
  | script s => rfl
  | watched i role inner ih =>
    unfold Source.redacted dropSource
    rw [ih]

theorem Silent.unwatch (source : Source) : (t.unwatch source).1.Silent := by
  cases source with
  | script s => exact h
  | watched i role inner =>
    cases role with
    | requests => exact h.tell i .requestsDropped
    | responses => exact h.tell i .responsesDropped

omit h in
theorem unwatch_redacted (t : Tracing) (source : Source) :
    t.unwatch source.redacted = ((t.unwatch source).1, (t.unwatch source).2.redacted) := by
  cases source with
  | script s => rfl
  | watched i role inner => cases role <;> rfl

omit h in
theorem Silent.pollWhile (h : t.Silent) (source : Source) (n : Nat) :
    (t.pollWhile source n).1.Silent := by
  induction n generalizing t source with
  | zero => exact h
  | succ n ih =>
    have hpolled := h.poll source
    unfold Tracing.pollWhile
    generalize t.poll source = polled at hpolled ⊢
    rcases polled with ⟨t', source', _ | (s | m) | _⟩
    · exact hpolled
    · exact hpolled
    · exact ih hpolled source'
    · exact hpolled

omit h in
theorem Silent.pollWhile_redacted (h : t.Silent) (source : Source) (n : Nat) :
    t.pollWhile source.redacted n =
      ((t.pollWhile source n).1, (t.pollWhile source n).2.1.redacted,
        (t.pollWhile source n).2.2.map Polled.redacted) := by
  induction n generalizing t source with
  | zero => rfl
  | succ n ih =>
    have hpolled := h.poll source
    unfold Tracing.pollWhile
    rw [h.poll_redacted]
    generalize t.poll source = polled at hpolled ⊢
    rcases polled with ⟨t', source', _ | (s | m) | _⟩
    · rfl
    · rfl
    · -- Only a message lets the polling go on.
      have hrest := ih hpolled source'
      dsimp only [Polled.redacted, Polled.mapContents, Polled.map, Except.map]
      rw [hrest]
      rfl
    · rfl

end Tracing

/-! ## Calls -/

def Requests.redacted : Requests → Requests
  | single m => .single m.redacted
  | stream s => .stream (Script.redacted s)
  | forwarded => .forwarded

def CallSpec.redacted (spec : CallSpec) : CallSpec :=
  { spec with
    requests := spec.requests.redacted
    outlet := spec.outlet.map (Outlet.map Message.redacted) }

def CallRequest.redacted (r : CallRequest) : CallRequest :=
  { r with message := r.message.map Message.redacted, stream := r.stream.map Source.redacted }

def CallResult.redacted : CallResult → CallResult
  | reply m metadata => .reply m.redacted metadata
  | stream metadata => .stream metadata
  | done => .done
  | fault s => .fault s

def Seen.redacted (seen : Seen) : Seen :=
  { seen with message := seen.message.map Message.redacted }

def Note.redacted : Note → Note
  | seen s => .seen s.redacted
  | pulled answer => .pulled (answer.map Polled.redacted)
  | called result => .called result.redacted
  | served result => .served result.redacted
  | n => n

def CallState.redacted (s : CallState) : CallState :=
  { s with
    message := s.message.map Message.redacted
    requests := s.requests.map Source.redacted
    outlet := s.outlet.map (Outlet.map Message.redacted) }

def Return.redacted : Return → Return
  | reply m metadata => .reply m.redacted metadata
  | stream answers metadata => .stream (Script.redacted answers) metadata
  | echo metadata => .echo metadata
  | done => .done
  | fault s => .fault s

theorem CallSpec.sink_redacted (spec : CallSpec) :
    spec.redacted.sink = spec.sink.map (Outlet.map Message.redacted) := by
  obtain ⟨_, kind, type, _, _, _, _, _, _, outlet⟩ := spec
  cases kind with
  | client => rfl
  | server =>
    unfold sink redacted
    dsimp only
    split
    · cases outlet <;> rfl
    · rfl

theorem CallRequest.ofType_redacted (type : MethodType) (r : CallRequest) :
    r.redacted.ofType type = (r.ofType type).redacted := by
  obtain ⟨metadata, message, stream⟩ := r
  unfold ofType redacted
  split
  · cases stream <;> rfl
  · cases message <;> rfl

theorem Return.ofType_redacted (kind : SpanKind) (type : MethodType) (r : Return) :
    r.redacted.ofType kind type = (r.ofType kind type).redacted := by
  cases r <;> cases kind <;> cases type <;> rfl

/-! ## Exchanges -/

namespace Exchange

/-- The redacted exchange of one in which nothing logs payloads. -/
structure RedactsTo (x y : Exchange) : Prop where
  silent : x.toTracing.Silent
  tracing : y.toTracing = x.toTracing
  calls : y.calls = x.calls.map CallState.redacted
  keptStreams : y.keptStreams = x.keptStreams.map Source.redacted
  keptWriters : y.keptWriters = x.keptWriters
  spanNames : y.spanNames = x.spanNames
  outletNames : y.outletNames = x.outletNames
  notes : y.notes = x.notes.map Note.redacted

namespace RedactsTo

variable {x y : Exchange} (h : x.RedactsTo y)
include h

theorem withTracing {t : Tracing} (ht : t.Silent) :
    ({ x with toTracing := t } : Exchange).RedactsTo { y with toTracing := t } :=
  { h with silent := ht, tracing := rfl }

theorem withRecorder (r : Recorder) :
    ({ x with recorder := r } : Exchange).RedactsTo { y with recorder := r } :=
  { h with
    silent := ⟨h.silent.config, h.silent.calls⟩
    tracing := congrArg (fun t : Tracing => { t with recorder := r }) h.tracing }

theorem note (n : Note) : (x.note n).RedactsTo (y.note n.redacted) := by
  refine { h with notes := ?_ }
  unfold Exchange.note
  rw [h.notes, List.map_append, List.map_singleton]

theorem update (i : Nat) {change change' : CallState → CallState}
    (hchange : ∀ s, change' s.redacted = (change s).redacted) :
    (x.update i change).RedactsTo (y.update i change') := by
  refine { h with calls := ?_ }
  unfold Exchange.update
  rw [h.calls, modify_map hchange]

theorem tell (i : Nat) (event : CallEvent Message) :
    (x.tell i event).RedactsTo (y.tell i (event.map Message.redacted)) := by
  unfold Exchange.tell
  rw [h.tracing, h.silent.tell_redacted]
  exact h.withTracing (h.silent.tell i event)

theorem call? (i : Nat) : y.calls[i]? = x.calls[i]?.map CallState.redacted := by
  rw [h.calls, List.getElem?_map]

/-! ### Streams -/

theorem poll (source : Source) :
    InStepBy RedactsTo (Prod.map Source.redacted Polled.redacted) (x.poll source)
      (y.poll source.redacted) := by
  unfold Exchange.poll
  rw [h.tracing, h.silent.poll_redacted]
  exact ⟨h.withTracing (h.silent.poll source), rfl⟩

theorem dropSource (source : Source) :
    (x.dropSource source).RedactsTo (y.dropSource source.redacted) := by
  unfold Exchange.dropSource
  rw [h.tracing, Tracing.dropSource_redacted]
  exact h.withTracing (h.silent.dropSource source)

theorem requests? (i : Nat) : y.requests? i = (x.requests? i).map Source.redacted := by
  unfold Exchange.requests?
  rw [h.call?]
  cases x.calls[i]? <;> rfl

theorem takeRequests (i : Nat) :
    InStepBy RedactsTo (Option.map Source.redacted) (x.takeRequests i) (y.takeRequests i) :=
  ⟨h.update i fun _ => rfl, h.requests? i⟩

theorem giveRequests (i : Nat) (source : Source) :
    (x.giveRequests i source).RedactsTo (y.giveRequests i source.redacted) :=
  h.update i fun _ => rfl

theorem dropRequests (i : Nat) : (x.dropRequests i).RedactsTo (y.dropRequests i) := by
  obtain ⟨x', y', source, hx, hy, hxy⟩ := (h.takeRequests i).split
  unfold Exchange.dropRequests
  rw [hx, hy]
  cases source with
  | none => exact hxy
  | some source => exact hxy.dropSource source

theorem pull (i : Nat) :
    InStepBy RedactsTo (Option.map Polled.redacted) (x.pull i) (y.pull i) := by
  obtain ⟨x', y', source, hx, hy, hxy⟩ := (h.takeRequests i).split
  unfold Exchange.pull
  rw [hx, hy]
  cases source with
  | none => exact ⟨hxy, rfl⟩
  | some source =>
    obtain ⟨x'', y'', ⟨left, answer⟩, hx', hy', hxy'⟩ := (hxy.poll source).split
    dsimp only [Option.map_some]
    rw [hx', hy']
    exact ⟨hxy'.giveRequests i left, rfl⟩

theorem keepStream (name : String) (source : Source) :
    (x.keepStream name source).RedactsTo (y.keepStream name source.redacted) := by
  have hkept : ({ x with keptStreams := x.keptStreams.set name source } : Exchange).RedactsTo
      { y with keptStreams := y.keptStreams.set name source.redacted } :=
    { h with keptStreams := by rw [h.keptStreams, Table.map_set] }
  unfold Exchange.keepStream
  dsimp only
  rw [show y.keptStreams.find? name = (x.keptStreams.find? name).map Source.redacted by
    rw [h.keptStreams, Table.find?_map]]
  cases x.keptStreams.find? name with
  | none => exact hkept
  | some old => exact hkept.dropSource old

theorem keepRequests (i : Nat) (name : String) :
    (x.keepRequests i name).RedactsTo (y.keepRequests i name) := by
  obtain ⟨x', y', source, hx, hy, hxy⟩ := (h.takeRequests i).split
  unfold Exchange.keepRequests
  rw [hx, hy]
  cases source with
  | none => exact hxy
  | some source => exact hxy.keepStream name source

/-! ### Sinks -/

theorem outlet? (i : Nat) : y.calls[i]?.bind CallState.outlet =
    (x.calls[i]?.bind CallState.outlet).map (Outlet.map Message.redacted) := by
  rw [h.call?]
  cases x.calls[i]? <;> rfl

theorem startWrite (i : Nat) (op : SinkOp Message) :
    InStepBy RedactsTo (Option.map (OutletTicket.map Message.redacted)) (x.startWrite i op)
      (y.startWrite i (op.map Message.redacted)) := by
  have htold := h.tell i (.responseWritten op)
  unfold CallEvent.map at htold
  unfold Exchange.startWrite
  dsimp only
  rw [htold.outlet?]
  cases (x.tell i (.responseWritten op)).calls[i]?.bind CallState.outlet with
  | none => exact ⟨htold, rfl⟩
  | some outlet =>
    dsimp only [Option.map_some]
    rw [outlet.start_map]
    exact ⟨htold.update i fun _ => rfl, rfl⟩

theorem attemptWrite (i : Nat) (ticket : OutletTicket Message) :
    InStepBy RedactsTo (Attempt.map (OutletTicket.map Message.redacted)) (x.attemptWrite i ticket)
      (y.attemptWrite i (ticket.map Message.redacted)) := by
  unfold Exchange.attemptWrite
  rw [h.outlet?]
  cases x.calls[i]?.bind CallState.outlet with
  | none => exact ⟨h, rfl⟩
  | some outlet =>
    dsimp only [Option.map_some]
    rw [outlet.attempt_map]
    exact ⟨h.update i fun _ => rfl, rfl⟩

theorem writeOnce (i : Nat) (op : SinkOp Message) :
    InStepBy RedactsTo (Option.map (Attempt.map (OutletTicket.map Message.redacted)))
      (x.writeOnce i op) (y.writeOnce i (op.map Message.redacted)) := by
  obtain ⟨x', y', ticket, hx, hy, hxy⟩ := (h.startWrite i op).split
  unfold Exchange.writeOnce
  rw [hx, hy]
  cases ticket with
  | none => exact ⟨hxy, rfl⟩
  | some ticket =>
    have hattempt := hxy.attemptWrite i ticket
    exact ⟨hattempt.states, congrArg some hattempt.result⟩

theorem updateOutlet (i : Nat) {f : Outlet Message → Outlet Message}
    (hf : ∀ o, f (o.map Message.redacted) = (f o).map Message.redacted) :
    (x.update i fun s => { s with outlet := s.outlet.map f }).RedactsTo
      (y.update i fun s => { s with outlet := s.outlet.map f }) := by
  apply h.update
  rintro ⟨_, _, _, _, _, _, outlet⟩
  cases outlet with
  | none => rfl
  | some o => simp [CallState.redacted, hf]

theorem releaseWriter (i : Nat) : (x.releaseWriter i).RedactsTo (y.releaseWriter i) :=
  (h.updateOutlet i (Outlet.disconnect_map _)).tell i .responsesDropped

theorem holdsWriter (i : Nat) : y.holdsWriter i = x.holdsWriter i := by
  unfold Exchange.holdsWriter
  rw [h.call?, Option.map_map]
  rfl

theorem takeWriter (i : Nat) : InStepBy RedactsTo id (x.takeWriter i) (y.takeWriter i) :=
  ⟨h.update i fun _ => rfl, h.holdsWriter i⟩

theorem dropWriter (i : Nat) : (x.dropWriter i).RedactsTo (y.dropWriter i) := by
  obtain ⟨x', y', held, hx, hy, hxy⟩ := (h.takeWriter i).split
  unfold Exchange.dropWriter
  rw [hx, hy]
  cases held with
  | false => exact hxy
  | true => exact hxy.releaseWriter i

theorem keepWriterOf (name : String) (i : Nat) :
    (x.keepWriterOf name i).RedactsTo (y.keepWriterOf name i) := by
  have hkept : ({ x with keptWriters := x.keptWriters.set name i } : Exchange).RedactsTo
      { y with keptWriters := x.keptWriters.set name i } := { h with keptWriters := rfl }
  unfold Exchange.keepWriterOf
  rw [h.keptWriters]
  dsimp only
  split
  · exact hkept
  · exact hkept.releaseWriter _

theorem keepWriter (i : Nat) (name : String) :
    (x.keepWriter i name).RedactsTo (y.keepWriter i name) := by
  obtain ⟨x', y', held, hx, hy, hxy⟩ := (h.takeWriter i).split
  unfold Exchange.keepWriter
  rw [hx, hy]
  cases held with
  | false => exact hxy
  | true => exact hxy.keepWriterOf name i

theorem writeHeld (i : Nat) (op : SinkOp Message) :
    InStepBy RedactsTo (Option.map (Attempt.map (OutletTicket.map Message.redacted)))
      (x.writeHeld i op) (y.writeHeld i (op.map Message.redacted)) := by
  unfold Exchange.writeHeld
  rw [h.holdsWriter i]
  split
  · exact h.writeOnce i op
  · exact ⟨h, rfl⟩

theorem dropHeld (i : Nat) : (x.dropHeld i).RedactsTo (y.dropHeld i) :=
  (h.dropRequests i).dropWriter i

/-! ### Starting calls -/

theorem parentContext? (enclosing : Option SpanContext) (parent : Parent) :
    y.parentContext? enclosing parent = x.parentContext? enclosing parent := by
  unfold Exchange.parentContext?
  rw [h.spanNames, h.tracing]

theorem takeRequest (caller : Option Nat) (spec : CallSpec) :
    InStepBy RedactsTo CallRequest.redacted (x.takeRequest caller spec)
      (y.takeRequest caller spec.redacted) := by
  have htype : spec.redacted.type = spec.type := rfl
  unfold Exchange.takeRequest
  rw [show spec.redacted.requests = spec.requests.redacted from rfl, htype]
  cases spec.requests with
  | single m => exact ⟨h, rfl⟩
  | stream s => exact ⟨h, rfl⟩
  | forwarded =>
    cases caller with
    | none => exact ⟨h, rfl⟩
    | some i =>
      dsimp only [Requests.redacted, Option.bind_some]
      rw [h.call?]
      cases x.calls[i]? with
      | none => exact ⟨h, rfl⟩
      | some s =>
        dsimp only [Option.map_some]
        split
        · obtain ⟨x', y', stream, hx, hy, hxy⟩ := (h.takeRequests i).split
          rw [hx, hy]
          exact ⟨hxy, rfl⟩
        · exact ⟨h, rfl⟩

theorem nameOutlet (name : String) (i : Nat) :
    (x.nameOutlet name i).RedactsTo (y.nameOutlet name i) := by
  unfold Exchange.nameOutlet
  dsimp only
  rw [h.outletNames]
  split
  · exact { h with outletNames := by rw [h.outletNames] }
  · have hclosed := h.updateOutlet ‹_› (Outlet.close_map _)
    exact { hclosed with outletNames := by rw [hclosed.outletNames] }

theorem addCall {t : Tracing} (ht : t.Silent) (s : CallState) :
    ({ x with toTracing := t, calls := x.calls ++ [s] } : Exchange).RedactsTo
      { y with toTracing := t, calls := y.calls ++ [s.redacted] } :=
  { h.withTracing ht with calls := by rw [h.calls, List.map_append, List.map_singleton] }

theorem startOn (parent : Option SpanContext) (spec : CallSpec) (request : CallRequest) :
    InStepBy RedactsTo (Prod.map id Seen.redacted) (x.startOn parent spec request)
      (y.startOn parent spec.redacted request.redacted) := by
  have hlength : y.calls.length = x.calls.length := by rw [h.calls, List.length_map]
  have hstart : y.toTracing.start (contextOf spec.redacted parent) spec.redacted.type
      request.redacted.metadata request.redacted.message =
        x.toTracing.start (contextOf spec parent) spec.type request.metadata request.message := by
    rw [h.tracing]
    exact h.silent.start_redacted _ _ _ _
  have hsilent := h.silent.start (contextOf spec parent) spec.type request.metadata request.message
  have hwatch (t : Tracing) : request.redacted.stream.map (t.watch x.calls.length .requests) =
      (request.stream.map (t.watch x.calls.length .requests)).map Source.redacted := by
    unfold CallRequest.redacted
    cases request.stream with
    | none => rfl
    | some source => exact congrArg some (t.watch_redacted x.calls.length .requests source)
  unfold Exchange.startOn
  rw [hstart, hlength, spec.sink_redacted]
  generalize x.toTracing.start (contextOf spec parent) spec.type request.metadata
    request.message = started at hsilent ⊢
  obtain ⟨t, metadata, context⟩ := started
  dsimp only at hsilent ⊢
  rw [hwatch t, Option.isSome_map]
  generalize spec.sink = sink
  have hadded := h.addCall hsilent
    { kind := spec.kind, type := spec.type, metadata, message := request.message
      requests := request.stream.map (t.watch x.calls.length .requests)
      writer := sink.isSome, outlet := sink }
  refine ⟨?_, rfl⟩
  -- A name is of use for a sink only.
  rw [show spec.redacted.name = spec.name from rfl]
  cases spec.name with
  | none => exact hadded
  | some name =>
    cases sink with
    | none => exact hadded
    | some outlet => exact hadded.nameOutlet name x.calls.length

theorem startCall (caller : Option Nat) (enclosing : Option SpanContext) (spec : CallSpec) :
    InStepBy RedactsTo (Prod.map id Seen.redacted) (x.startCall caller enclosing spec)
      (y.startCall caller enclosing spec.redacted) := by
  obtain ⟨x', y', request, hx, hy, hxy⟩ := (h.takeRequest caller spec).split
  have hparent : y.parentContext? enclosing spec.redacted.parent =
      x.parentContext? enclosing spec.parent := h.parentContext? enclosing spec.parent
  have hrequest : request.redacted.ofType spec.redacted.type =
      (request.ofType spec.type).redacted := request.ofType_redacted spec.type
  unfold Exchange.startCall
  rw [hx, hy, hparent]
  dsimp only
  rw [hrequest]
  exact hxy.startOn _ spec _

/-! ### The end of a call -/

theorem settleStream (i : Nat) (source : Source) :
    InStepBy RedactsTo Source.redacted (x.settleStream i source)
      (y.settleStream i source.redacted) := by
  have htold := (h.dropHeld i).tell i (.resolved .stream)
  have hwatch (source : Source) := congrArg (·.watch i .responses source) htold.tracing
  exact ⟨htold, (hwatch source.redacted).trans (Tracing.watch_redacted _ i .responses source)⟩

theorem returned (i : Nat) (r : Return) : y.returned i r.redacted = (x.returned i r).redacted := by
  unfold Exchange.returned
  rw [h.call?]
  cases x.calls[i]? with
  | none => rfl
  | some s => exact r.ofType_redacted s.kind s.type

theorem settle (i : Nat) (r : Return) :
    InStepBy RedactsTo (Prod.map CallResult.redacted (Option.map Source.redacted)) (x.settle i r)
      (y.settle i r.redacted) := by
  have hleft := h.dropHeld i
  unfold Exchange.settle
  rw [h.returned i r]
  cases x.returned i r with
  | reply m metadata => exact ⟨hleft.tell i (.resolved (.reply m)), rfl⟩
  | done => exact ⟨hleft.tell i (.resolved .done), rfl⟩
  | fault s => exact ⟨hleft.tell i (.resolved (.fault s)), rfl⟩
  | stream answers metadata =>
    obtain ⟨x', y', response, hx, hy, hxy⟩ := (h.settleStream i (.script answers)).split
    rw [show (Source.script answers).redacted = .script (Script.redacted answers) from rfl] at hy
    dsimp only [Return.redacted]
    rw [hx, hy]
    exact ⟨hxy, rfl⟩
  | echo metadata =>
    obtain ⟨x', y', source, hx, hy, hxy⟩ := (h.takeRequests i).split
    obtain ⟨x'', y'', response, hx', hy', hxy'⟩ :=
      (hxy.settleStream i (source.getD (.script []))).split
    have hechoed : (source.map Source.redacted).getD (.script []) =
        (source.getD (.script [])).redacted := by
      cases source <;> rfl
    dsimp only [Return.redacted]
    rw [hx, hy]
    dsimp only
    rw [hx', hechoed, hy']
    exact ⟨hxy', rfl⟩

theorem written (i : Nat) : y.written i = (x.written i).map Message.redacted := by
  unfold Exchange.written
  rw [h.outlet?]
  cases x.calls[i]?.bind CallState.outlet with
  | none => rfl
  | some outlet => exact outlet.collected_map Message.redacted

theorem settleNested (i : Nat) (r : Return) :
    InStepBy RedactsTo (Prod.map CallResult.redacted (List.map Message.redacted))
      (x.settleNested i r) (y.settleNested i r.redacted) := by
  obtain ⟨x', y', ⟨result, response⟩, hx, hy, hxy⟩ := (h.settle i r).split
  unfold Exchange.settleNested
  rw [hx, hy]
  have hwritten := hxy.written i
  cases response with
  | none => exact ⟨hxy, congrArg (result.redacted, ·) hwritten⟩
  | some response => exact ⟨hxy.dropSource response, congrArg (result.redacted, ·) hwritten⟩

theorem abandonOne (i : Nat) : (x.abandonOne i).RedactsTo (y.abandonOne i) :=
  (h.dropHeld i).tell i .abandoned

end RedactsTo

end Exchange

end CallTrace
