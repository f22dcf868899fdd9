import CallTrace.Proofs.Detail
import CallTrace.Proofs.Related
import CallTrace.Session.Continuation

/-!
# Detail in an exchange

Two exchanges whose calls are traced with more detail or with less are the same once both are bare:
their calls, streams and sinks are, and so are the spans of their calls.  Every operation keeps this
and gives the same result in both, so a continuation runs alike in them.
-/

namespace CallTrace

/-! ## Tracing -/

def TracedCall.bare (c : TracedCall) : TracedCall := { c with call := c.call.bare }

namespace Tracing

/-- The tracing without any detail, be it logged or to be logged. -/
def bare (t : Tracing) : Tracing :=
  { t with
    recorder := t.recorder.bare
    config := t.config.bare
    tracedCalls := t.tracedCalls.map (Option.map TracedCall.bare) }

theorem bare_perform (t : Tracing) (span : Nat) (effects : List Effect) :
    (t.perform span effects).bare =
      { t.bare with
        recorder := t.bare.recorder.performBare span (Effect.bare effects)
        reports := t.reports ++ (Effect.bare effects).filterMap Effect.report? } := by
  simp [perform, bare, Recorder.bare_perform, Effect.reports_bare]

theorem tracedCall?_bare (t : Tracing) (i : Nat) :
    t.bare.tracedCall? i = (t.tracedCall? i).map TracedCall.bare := by
  simp only [tracedCall?, bare, List.getElem?_map]
  rcases t.tracedCalls[i]? with _ | (_ | c) <;> rfl

/-- Two tracings that differ in detail alone. -/
def BareEq (t u : Tracing) : Prop := t.bare = u.bare

namespace BareEq

variable {t u : Tracing} (h : t.BareEq u)
include h

theorem recorder : t.recorder.bare = u.recorder.bare :=
  show t.bare.recorder = u.bare.recorder from congrArg Tracing.recorder h

theorem config : t.config.bare = u.config.bare :=
  show t.bare.config = u.bare.config from congrArg Tracing.config h

theorem ambient : t.ambient = u.ambient :=
  show t.bare.ambient = u.bare.ambient from congrArg Tracing.ambient h

theorem traced : t.traced = u.traced :=
  show t.bare.traced = u.bare.traced from congrArg Tracing.traced h

theorem reports : t.reports = u.reports :=
  show t.bare.reports = u.bare.reports from congrArg Tracing.reports h

theorem active : t.recorder.active = u.recorder.active :=
  show t.recorder.bare.active = u.recorder.bare.active from congrArg Recorder.active h.recorder

theorem tracedCalls : t.tracedCalls.map (Option.map TracedCall.bare) =
    u.tracedCalls.map (Option.map TracedCall.bare) :=
  show t.bare.tracedCalls = u.bare.tracedCalls from congrArg Tracing.tracedCalls h

theorem tracedCall? (i : Nat) :
    (t.tracedCall? i).map TracedCall.bare = (u.tracedCall? i).map TracedCall.bare := by
  rw [← tracedCall?_bare, ← tracedCall?_bare, h]

theorem withRecorder {r r' : Recorder} (hr : r.bare = r'.bare) :
    ({ t with recorder := r } : Tracing).BareEq { u with recorder := r' } := by
  unfold BareEq bare
  rw [hr, h.config, h.ambient, h.traced, h.reports, h.tracedCalls]

theorem withCalls {calls calls' : List (Option TracedCall)}
    (hcalls : calls.map (Option.map TracedCall.bare) =
      calls'.map (Option.map TracedCall.bare)) :
    ({ t with tracedCalls := calls } : Tracing).BareEq { u with tracedCalls := calls' } := by
  unfold BareEq bare
  rw [h.recorder, h.config, h.ambient, h.traced, h.reports, hcalls]

theorem concat {c d : Option TracedCall} (hcd : c.map TracedCall.bare = d.map TracedCall.bare) :
    ({ t with tracedCalls := t.tracedCalls ++ [c] } : Tracing).BareEq
      { u with tracedCalls := u.tracedCalls ++ [d] } := by
  apply h.withCalls
  rw [List.map_append, List.map_append, h.tracedCalls, List.map_singleton, List.map_singleton, hcd]

theorem perform (span : Nat) {effects effects' : List Effect}
    (he : Effect.bare effects = Effect.bare effects') :
    (t.perform span effects).BareEq (u.perform span effects') := by
  unfold BareEq
  rw [bare_perform, bare_perform, h, he, h.reports]

theorem tell (i : Nat) (event : CallEvent Message) : (t.tell i event).BareEq (u.tell i event) := by
  have hcall := h.tracedCall? i
  unfold Tracing.tell
  generalize t.tracedCall? i = c at hcall ⊢
  generalize u.tracedCall? i = d at hcall ⊢
  rcases c with _ | ⟨span, c⟩ <;> rcases d with _ | ⟨span', d⟩
  · exact h
  · cases hcall
  · cases hcall
  · simp only [Option.map_some, Option.some.injEq, TracedCall.bare, TracedCall.mk.injEq] at hcall
    obtain ⟨rfl, hbare⟩ := hcall
    -- Both calls take the step of the bare call.
    have hstep := c.bare_step event
    rw [hbare, d.bare_step event] at hstep
    obtain ⟨hnext, heffects⟩ := Prod.mk.inj hstep
    refine BareEq.perform ?_ span heffects.symm
    apply h.withCalls
    rw [List.map_set, List.map_set, h.tracedCalls, Option.map_some, Option.map_some]
    exact congrArg (fun call => List.set _ i (some (TracedCall.mk span call))) hnext.symm

theorem start (ctx : CallContext) (type : MethodType) (metadata : Metadata)
    (message : Option Message) :
    InStep BareEq (t.start ctx type metadata message) (u.start ctx type metadata message) := by
  have hactive : (if t.ambient then t.recorder.active else none) =
      if u.ambient then u.recorder.active else none := by rw [h.ambient, h.active]
  unfold Tracing.start
  rw [hactive]
  by_cases hu : u.traced = true
  · rw [if_pos (h.traced.trans hu), if_pos hu]
    generalize (if u.ambient then u.recorder.active else none) = active
    have hstarted := t.recorder.startCall_bare t.config active ctx type metadata message
    rw [h.recorder, h.config, u.recorder.startCall_bare u.config] at hstarted
    dsimp only
    generalize t.recorder.startCall t.config active ctx type metadata message = begun
      at hstarted ⊢
    generalize u.recorder.startCall u.config active ctx type metadata message = begun'
      at hstarted ⊢
    obtain ⟨r, handed, span, call, effects⟩ := begun
    obtain ⟨r', handed', span', call', effects'⟩ := begun'
    simp only [StartedCall.bare, Prod.mk.injEq, StartedCall.mk.injEq] at hstarted
    obtain ⟨hr, rfl, rfl, hcall, heffects⟩ := hstarted
    have hcontext : call'.log.context = call.log.context :=
      show call'.bare.log.context = call.bare.log.context by rw [hcall]
    have hconcat := (h.withRecorder hr.symm).concat (c := some ⟨span', call⟩)
      (d := some ⟨span', call'⟩) (congrArg (fun call => some (TracedCall.mk span' call)) hcall.symm)
    exact ⟨hconcat.perform span' heffects.symm,
      congrArg (fun context => (handed', some context)) hcontext.symm⟩
  · rw [if_neg (h.traced ▸ hu), if_neg hu]
    exact ⟨h.concat rfl, rfl⟩

theorem watch (i : Nat) (role : Role) (source : Source) :
    t.watch i role source = u.watch i role source := by
  unfold Tracing.watch
  rw [h.traced]

theorem poll (source : Source) : InStep BareEq (t.poll source) (u.poll source) := by
  induction source with
  | script s => exact ⟨h, rfl⟩
  | watched i role inner ih =>
    obtain ⟨t', u', ⟨inner', answer⟩, ht, hu, htu⟩ := ih.split
    unfold Tracing.poll
    rw [ht, hu]
    cases role with
    | requests => exact ⟨htu.tell i (.requestPolled answer), rfl⟩
    | responses => exact ⟨htu.tell i (.responsePolled answer), rfl⟩

theorem unwatch (source : Source) : InStep BareEq (t.unwatch source) (u.unwatch source) := by
  cases source with
  | script s => exact ⟨h, rfl⟩
  | watched i role inner =>
    cases role with
    | requests => exact ⟨h.tell i .requestsDropped, rfl⟩
    | responses => exact ⟨h.tell i .responsesDropped, rfl⟩

theorem dropSource (source : Source) : (t.dropSource source).BareEq (u.dropSource source) := by
  induction source with
  | script s => exact h
  | watched i role inner ih =>
    cases role with
    | requests => exact ih.tell i .requestsDropped
    | responses => exact ih.tell i .responsesDropped

omit h in
theorem pollWhile (h : t.BareEq u) (source : Source) (n : Nat) :
    InStep BareEq (t.pollWhile source n) (u.pollWhile source n) := by
  induction n generalizing t u source with
  | zero => exact ⟨h, rfl⟩
  | succ n ih =>
    obtain ⟨t', u', ⟨source', answer⟩, ht, hu, htu⟩ := (h.poll source).split
    unfold Tracing.pollWhile
    rw [ht, hu]
    rcases answer with _ | (s | m) | _
    · exact ⟨htu, rfl⟩
    · exact ⟨htu, rfl⟩
    · -- Only a message lets the polling go on.
      have hrest := ih htu source'
      exact ⟨hrest.states,
        congrArg (fun rest : Source × List _ => (rest.1, .item (.ok m) :: rest.2)) hrest.result⟩
    · exact ⟨htu, rfl⟩

end BareEq

end Tracing

/-! ## Exchanges -/

def Note.bare : Note → Note
  | .counts c => .counts c.bare
  | n => n

namespace Exchange

def bare (x : Exchange) : Exchange :=
  { x with toTracing := x.toTracing.bare, notes := x.notes.map Note.bare }

/-- Two exchanges that differ in detail alone. -/
def BareEq (x y : Exchange) : Prop := x.bare = y.bare

namespace BareEq

variable {x y : Exchange} (h : x.BareEq y)
include h

theorem tracing : x.toTracing.BareEq y.toTracing :=
  show x.bare.toTracing = y.bare.toTracing from congrArg Exchange.toTracing h

theorem calls : x.calls = y.calls :=
  show x.bare.calls = y.bare.calls from congrArg Exchange.calls h

theorem keptStreams : x.keptStreams = y.keptStreams :=
  show x.bare.keptStreams = y.bare.keptStreams from congrArg Exchange.keptStreams h

theorem keptWriters : x.keptWriters = y.keptWriters :=
  show x.bare.keptWriters = y.bare.keptWriters from congrArg Exchange.keptWriters h

theorem spanNames : x.spanNames = y.spanNames :=
  show x.bare.spanNames = y.bare.spanNames from congrArg Exchange.spanNames h

theorem outletNames : x.outletNames = y.outletNames :=
  show x.bare.outletNames = y.bare.outletNames from congrArg Exchange.outletNames h

theorem notes : x.notes.map Note.bare = y.notes.map Note.bare :=
  show x.bare.notes = y.bare.notes from congrArg Exchange.notes h

theorem withTracing {t u : Tracing} (ht : t.BareEq u) :
    ({ x with toTracing := t } : Exchange).BareEq { y with toTracing := u } := by
  show { x.bare with toTracing := t.bare } = { y.bare with toTracing := u.bare }
  rw [h, ht]

theorem note {n m : Note} (hn : n.bare = m.bare) : (x.note n).BareEq (y.note m) := by
  unfold BareEq bare Exchange.note
  rw [List.map_append, List.map_append, List.map_singleton, List.map_singleton, h.notes, hn]
  exact congrArg (fun x : Exchange => { x with notes := y.notes.map Note.bare ++ [m.bare] }) h

theorem update (i : Nat) (change : CallState → CallState) :
    (x.update i change).BareEq (y.update i change) :=
  congrArg (fun x : Exchange => x.update i change) h

theorem withCalls (calls : List CallState) :
    ({ x with calls := calls } : Exchange).BareEq { y with calls := calls } :=
  congrArg (fun x : Exchange => ({ x with calls := calls } : Exchange)) h

theorem withKeptStreams (kept : Table Source) :
    ({ x with keptStreams := kept } : Exchange).BareEq { y with keptStreams := kept } :=
  congrArg (fun x : Exchange => ({ x with keptStreams := kept } : Exchange)) h

theorem withKeptWriters (kept : Table Nat) :
    ({ x with keptWriters := kept } : Exchange).BareEq { y with keptWriters := kept } :=
  congrArg (fun x : Exchange => ({ x with keptWriters := kept } : Exchange)) h

theorem withSpanNames (names : Table Nat) :
    ({ x with spanNames := names } : Exchange).BareEq { y with spanNames := names } :=
  congrArg (fun x : Exchange => ({ x with spanNames := names } : Exchange)) h

theorem withOutletNames (names : Table Nat) :
    ({ x with outletNames := names } : Exchange).BareEq { y with outletNames := names } :=
  congrArg (fun x : Exchange => ({ x with outletNames := names } : Exchange)) h

theorem tell (i : Nat) (event : CallEvent Message) : (x.tell i event).BareEq (y.tell i event) :=
  h.withTracing (h.tracing.tell i event)

/-! ### Streams -/

theorem poll (source : Source) : InStep BareEq (x.poll source) (y.poll source) := by
  have hpolled := h.tracing.poll source
  exact ⟨h.withTracing hpolled.states, hpolled.result⟩

theorem dropSource (source : Source) : (x.dropSource source).BareEq (y.dropSource source) :=
  h.withTracing (h.tracing.dropSource source)

theorem requests? (i : Nat) : x.requests? i = y.requests? i := by
  unfold Exchange.requests?
  rw [h.calls]

theorem takeRequests (i : Nat) : InStep BareEq (x.takeRequests i) (y.takeRequests i) :=
  ⟨h.update i _, h.requests? i⟩

theorem giveRequests (i : Nat) (source : Source) :
    (x.giveRequests i source).BareEq (y.giveRequests i source) := h.update i _

theorem dropRequests (i : Nat) : (x.dropRequests i).BareEq (y.dropRequests i) := by
  obtain ⟨x', y', source, hx, hy, hxy⟩ := (h.takeRequests i).split
  unfold Exchange.dropRequests
  rw [hx, hy]
  cases source with
  | none => exact hxy
  | some source => exact hxy.dropSource source

theorem pull (i : Nat) : InStep BareEq (x.pull i) (y.pull i) := by
  obtain ⟨x', y', source, hx, hy, hxy⟩ := (h.takeRequests i).split
  unfold Exchange.pull
  rw [hx, hy]
  cases source with
  | none => exact ⟨hxy, rfl⟩
  | some source =>
    obtain ⟨x'', y'', ⟨left, answer⟩, hx', hy', hxy'⟩ := (hxy.poll source).split
    dsimp only
    rw [hx', hy']
    exact ⟨hxy'.giveRequests i left, rfl⟩

theorem keepStream (name : String) (source : Source) :
    (x.keepStream name source).BareEq (y.keepStream name source) := by
  unfold Exchange.keepStream
  rw [h.keptStreams]
  dsimp only
  split
  · exact h.withKeptStreams _
  · exact (h.withKeptStreams _).dropSource _

theorem keepRequests (i : Nat) (name : String) :
    (x.keepRequests i name).BareEq (y.keepRequests i name) := by
  obtain ⟨x', y', source, hx, hy, hxy⟩ := (h.takeRequests i).split
  unfold Exchange.keepRequests
  rw [hx, hy]
  cases source with
  | none => exact hxy
  | some source => exact hxy.keepStream name source

/-! ### Sinks -/

theorem startWrite (i : Nat) (op : SinkOp Message) :
    InStep BareEq (x.startWrite i op) (y.startWrite i op) := by
  have htold := h.tell i (.responseWritten op)
  unfold Exchange.startWrite
  dsimp only
  rw [htold.calls]
  split
  · exact ⟨htold, rfl⟩
  · exact ⟨htold.update i _, rfl⟩

theorem attemptWrite (i : Nat) (ticket : OutletTicket Message) :
    InStep BareEq (x.attemptWrite i ticket) (y.attemptWrite i ticket) := by
  unfold Exchange.attemptWrite
  rw [h.calls]
  split
  · exact ⟨h, rfl⟩
  · exact ⟨h.update i _, rfl⟩

theorem writeOnce (i : Nat) (op : SinkOp Message) :
    InStep BareEq (x.writeOnce i op) (y.writeOnce i op) := by
  obtain ⟨x', y', ticket, hx, hy, hxy⟩ := (h.startWrite i op).split
  unfold Exchange.writeOnce
  rw [hx, hy]
  cases ticket with
  | none => exact ⟨hxy, rfl⟩
  | some ticket =>
    have hattempt := hxy.attemptWrite i ticket
    exact ⟨hattempt.states, congrArg some hattempt.result⟩

theorem releaseWriter (i : Nat) : (x.releaseWriter i).BareEq (y.releaseWriter i) :=
  (h.update i _).tell i .responsesDropped

theorem holdsWriter (i : Nat) : x.holdsWriter i = y.holdsWriter i := by
  unfold Exchange.holdsWriter
  rw [h.calls]

theorem takeWriter (i : Nat) : InStep BareEq (x.takeWriter i) (y.takeWriter i) :=
  ⟨h.update i _, h.holdsWriter i⟩

theorem dropWriter (i : Nat) : (x.dropWriter i).BareEq (y.dropWriter i) := by
  obtain ⟨x', y', held, hx, hy, hxy⟩ := (h.takeWriter i).split
  unfold Exchange.dropWriter
  rw [hx, hy]
  cases held with
  | false => exact hxy
  | true => exact hxy.releaseWriter i

theorem keepWriterOf (name : String) (i : Nat) :
    (x.keepWriterOf name i).BareEq (y.keepWriterOf name i) := by
  unfold Exchange.keepWriterOf
  rw [h.keptWriters]
  dsimp only
  split
  · exact h.withKeptWriters _
  · exact (h.withKeptWriters _).releaseWriter _

theorem keepWriter (i : Nat) (name : String) :
    (x.keepWriter i name).BareEq (y.keepWriter i name) := by
  obtain ⟨x', y', held, hx, hy, hxy⟩ := (h.takeWriter i).split
  unfold Exchange.keepWriter
  rw [hx, hy]
  cases held with
  | false => exact hxy
  | true => exact hxy.keepWriterOf name i

theorem writeHeld (i : Nat) (op : SinkOp Message) :
    InStep BareEq (x.writeHeld i op) (y.writeHeld i op) := by
  unfold Exchange.writeHeld
  rw [h.holdsWriter i]
  split
  · exact h.writeOnce i op
  · exact ⟨h, rfl⟩

theorem dropHeld (i : Nat) : (x.dropHeld i).BareEq (y.dropHeld i) :=
  (h.dropRequests i).dropWriter i

/-! ### Starting calls -/

theorem parentContext? (enclosing : Option SpanContext) (parent : Parent) :
    x.parentContext? enclosing parent = y.parentContext? enclosing parent := by
  cases parent with
  | span name =>
    unfold Exchange.parentContext?
    rw [h.spanNames, funext (Recorder.context?_of_bare h.tracing.recorder)]
  | _ => rfl

theorem takeRequest (caller : Option Nat) (spec : CallSpec) :
    InStep BareEq (x.takeRequest caller spec) (y.takeRequest caller spec) := by
  unfold Exchange.takeRequest
  cases spec.requests with
  | single m => exact ⟨h, rfl⟩
  | stream s => exact ⟨h, rfl⟩
  | forwarded =>
    dsimp only
    rw [h.calls]
    split
    · exact ⟨h, rfl⟩
    · rename_i i s _
      split
      · obtain ⟨x', y', stream, hx, hy, hxy⟩ := (h.takeRequests i).split
        rw [hx, hy]
        exact ⟨hxy, rfl⟩
      · exact ⟨h, rfl⟩

theorem nameOutlet (name : String) (i : Nat) :
    (x.nameOutlet name i).BareEq (y.nameOutlet name i) := by
  unfold Exchange.nameOutlet
  dsimp only
  rw [h.outletNames]
  split
  · rw [h.outletNames]
    exact h.withOutletNames _
  · have hclosed := h.update ‹_› fun s => { s with outlet := s.outlet.map Outlet.close }
    rw [hclosed.outletNames]
    exact hclosed.withOutletNames _

theorem startOn (parent : Option SpanContext) (spec : CallSpec) (request : CallRequest) :
    InStep BareEq (x.startOn parent spec request) (y.startOn parent spec request) := by
  obtain ⟨t, u, ⟨metadata, context⟩, ht, hu, htu⟩ := (h.tracing.start (contextOf spec parent)
    spec.type request.metadata request.message).split
  unfold Exchange.startOn
  rw [ht, hu, h.calls]
  dsimp only
  rw [funext (htu.watch y.calls.length .requests)]
  have hstarted := (h.withTracing htu).withCalls (y.calls ++ [{
    kind := spec.kind, type := spec.type, metadata, message := request.message
    requests := request.stream.map (u.watch y.calls.length .requests)
    writer := spec.sink.isSome, outlet := spec.sink }])
  -- A name is of use for a sink only.
  split
  · exact ⟨hstarted.nameOutlet _ _, rfl⟩
  · exact ⟨hstarted, rfl⟩

theorem startCall (caller : Option Nat) (enclosing : Option SpanContext) (spec : CallSpec) :
    InStep BareEq (x.startCall caller enclosing spec) (y.startCall caller enclosing spec) := by
  obtain ⟨x', y', request, hx, hy, hxy⟩ := (h.takeRequest caller spec).split
  unfold Exchange.startCall
  rw [hx, hy, h.parentContext?]
  exact hxy.startOn _ spec _

/-! ### The end of a call -/

theorem settleStream (i : Nat) (source : Source) :
    InStep BareEq (x.settleStream i source) (y.settleStream i source) := by
  have htold := (h.dropHeld i).tell i (.resolved .stream)
  exact ⟨htold, htold.tracing.watch i .responses source⟩

theorem returned (i : Nat) (r : Return) : x.returned i r = y.returned i r := by
  unfold Exchange.returned
  rw [h.calls]

theorem settle (i : Nat) (r : Return) : InStep BareEq (x.settle i r) (y.settle i r) := by
  have hleft := h.dropHeld i
  unfold Exchange.settle
  rw [h.returned i r]
  cases y.returned i r with
  | reply m metadata => exact ⟨hleft.tell i _, rfl⟩
  | done => exact ⟨hleft.tell i _, rfl⟩
  | fault s => exact ⟨hleft.tell i _, rfl⟩
  | stream answers metadata =>
    obtain ⟨x', y', response, hx, hy, hxy⟩ := (h.settleStream i (.script answers)).split
    dsimp only
    rw [hx, hy]
    exact ⟨hxy, rfl⟩
  | echo metadata =>
    obtain ⟨x', y', source, hx, hy, hxy⟩ := (h.takeRequests i).split
    obtain ⟨x'', y'', response, hx', hy', hxy'⟩ :=
      (hxy.settleStream i (source.getD (.script []))).split
    dsimp only
    rw [hx, hy]
    dsimp only
    rw [hx', hy']
    exact ⟨hxy', rfl⟩

theorem written (i : Nat) : x.written i = y.written i := by
  unfold Exchange.written
  rw [h.calls]

theorem settleNested (i : Nat) (r : Return) :
    InStep BareEq (x.settleNested i r) (y.settleNested i r) := by
  obtain ⟨x', y', ⟨result, response⟩, hx, hy, hxy⟩ := (h.settle i r).split
  unfold Exchange.settleNested
  rw [hx, hy]
  have hwritten := hxy.written i
  cases response with
  | none => exact ⟨hxy, congrArg (result, ·) hwritten⟩
  | some response => exact ⟨hxy.dropSource response, congrArg (result, ·) hwritten⟩

theorem abandonOne (i : Nat) : (x.abandonOne i).BareEq (y.abandonOne i) :=
  (h.dropHeld i).tell i .abandoned

omit h in
theorem abandon (h : x.BareEq y) (i : Nat) (rest : Suspended) :
    (x.abandon i rest).BareEq (y.abandon i rest) := by
  induction rest generalizing i with
  | paused next => exact h.abandonOne i
  | writing ticket next => exact h.abandonOne i
  | awaiting nested body next ih => exact (ih nested).abandonOne i

/-! ### Runs -/

omit h in
-- The continuation gets the same answers in both exchanges and takes the same steps.
theorem run (h : x.BareEq y) (i : Nat) (k : Continuation) :
    InStep BareEq (x.run i k) (y.run i k) := by
  induction k generalizing x y i with
  | resolve r => exact ⟨h, rfl⟩
  | pause next => exact ⟨h, rfl⟩
  | note n next ih => exact ih (h.note rfl) i
  | noteCounts next ih =>
    have hnote : (Note.counts x.recorder.counts).bare = (Note.counts y.recorder.counts).bare :=
      congrArg Note.counts (Recorder.counts_of_bare h.tracing.recorder)
    exact ih (h.note hnote) i
  | hint next ih =>
    unfold Exchange.run
    rw [h.requests? i]
    exact ih _ h i
  | pull next ih =>
    obtain ⟨x', y', answer, hx, hy, hxy⟩ := (h.pull i).split
    unfold Exchange.run
    rw [hx, hy]
    rcases answer with _ | _ | _ | _
    · exact ih _ hxy i
    · exact ⟨hxy, rfl⟩
    · exact ih _ hxy i
    · exact ih _ hxy i
  | holdsWriter next ih =>
    unfold Exchange.run
    rw [h.holdsWriter i]
    exact ih _ h i
  | write op next ih =>
    obtain ⟨x', y', answer, hx, hy, hxy⟩ := (h.writeHeld i op).split
    unfold Exchange.run
    rw [hx, hy]
    rcases answer with _ | ticket | answer
    · exact ih _ hxy i
    · exact ⟨hxy, rfl⟩
    · exact ih _ hxy i
  | dropRequests next ih => exact ih (h.dropRequests i) i
  | dropWriter next ih => exact ih (h.dropWriter i) i
  | keepRequests name next ih => exact ih (h.keepRequests i name) i
  | keepWriter name next ih => exact ih (h.keepWriter i name) i
  | call spec body next ihbody ih =>
    obtain ⟨x', y', ⟨nested, seen⟩, hx, hy, hxy⟩ := (h.startCall (some i) none spec).split
    obtain ⟨x'', y'', progress, hx', hy', hxy'⟩ := (ihbody seen hxy nested).split
    unfold Exchange.run
    rw [hx, hy]
    dsimp only
    rw [hx', hy']
    cases progress with
    | waiting rest => exact ⟨hxy', rfl⟩
    | ended r =>
      obtain ⟨x₃, y₃, ⟨result, written⟩, hx₃, hy₃, hxy₃⟩ := (hxy'.settleNested nested r).split
      dsimp only
      rw [hx₃, hy₃]
      exact ih result written hxy₃ i

omit h in
theorem resume (h : x.BareEq y) (i : Nat) (rest : Suspended) :
    InStep BareEq (x.resume i rest) (y.resume i rest) := by
  induction rest generalizing i with
  | paused next => exact h.run i next
  | writing ticket next =>
    obtain ⟨x', y', result, hx, hy, hxy⟩ := (h.attemptWrite i ticket).split
    unfold Exchange.resume
    rw [hx, hy]
    cases result with
    | waiting ticket => exact ⟨hxy, rfl⟩
    | answered a => exact hxy.run i (next (some a))
  | awaiting nested body next ih =>
    obtain ⟨x', y', progress, hx, hy, hxy⟩ := (ih nested).split
    unfold Exchange.resume
    rw [hx, hy]
    cases progress with
    | waiting rest => exact ⟨hxy, rfl⟩
    | ended r =>
      obtain ⟨x'', y'', ⟨result, written⟩, hx', hy', hxy'⟩ := (hxy.settleNested nested r).split
      dsimp only
      rw [hx', hy']
      exact hxy'.run i (next result written)

end BareEq

end Exchange

end CallTrace
