import CallTrace.Proofs.Effects
import CallTrace.Proofs.Propagation
import CallTrace.Proofs.Related
import CallTrace.Session.Exchange

/-!
# Exchanges that look alike

Two exchanges look alike to the parties of their calls if they differ in nothing but what tracing
adds: watches around streams, spans, and metadata under the names of headers that carry spans.
Every operation keeps this, whatever is traced on either side.
-/

namespace CallTrace

/-- The answers that a stream has left, whoever watches it. -/
def Source.answers : Source → Script (Delivery Message)
  | script s => s
  | watched _ _ inner => inner.answers

def Source.Alike (a b : Source) : Prop := a.answers = b.answers

theorem Source.size_eq (source : Source) : source.size = source.answers.length := by
  induction source with
  | script s => rfl
  | watched call role inner ih => exact ih

/-! ## Tracing -/

namespace Tracing

variable {names : List String} {t u : Tracing}

def Fits (names : List String) (t : Tracing) : Prop :=
  t.traced = true → ∀ name ∈ t.recorder.propagator.fields, name ∈ names

theorem Fits.perform (h : t.Fits names) (span : Nat) (effects : List Effect) :
    (t.perform span effects).Fits names := by
  intro htraced
  show ∀ name ∈ (t.recorder.perform span effects).propagator.fields, name ∈ names
  rw [(Recorder.sameSetup_perform t.recorder span effects).propagator]
  exact h htraced

theorem Fits.tell (h : t.Fits names) (i : Nat) (event : CallEvent Message) :
    (t.tell i event).Fits names := by
  unfold Tracing.tell
  split
  · exact h
  · apply Fits.perform
    exact h

theorem Fits.poll (h : t.Fits names) (source : Source) : (t.poll source).1.Fits names := by
  induction source with
  | script s => exact h
  | watched call role inner ih => cases role <;> exact ih.tell call _

theorem Fits.unwatch (h : t.Fits names) (source : Source) : (t.unwatch source).1.Fits names := by
  cases source with
  | script s => exact h
  | watched call role inner => cases role <;> exact h.tell call _

theorem Fits.dropSource (h : t.Fits names) (source : Source) : (t.dropSource source).Fits names := by
  induction source with
  | script s => exact h
  | watched call role inner ih => cases role <;> exact ih.tell call _

-- A watch passes on what the stream inside gives.
theorem poll_answers (t : Tracing) (source : Source) :
    (t.poll source).2.1.answers = source.answers.poll.1 ∧
      (t.poll source).2.2 = source.answers.poll.2 := by
  induction source with
  | script s => exact ⟨rfl, rfl⟩
  | watched call role inner ih => exact ih

theorem poll_alike (t u : Tracing) {a b : Source} (h : a.Alike b) :
    (t.poll a).2.1.Alike (u.poll b).2.1 ∧ (t.poll a).2.2 = (u.poll b).2.2 := by
  obtain ⟨hleft, hanswer⟩ := t.poll_answers a
  obtain ⟨hleft', hanswer'⟩ := u.poll_answers b
  unfold Source.Alike at h ⊢
  rw [hleft, hleft', hanswer, hanswer', h]
  exact ⟨rfl, rfl⟩

theorem pollWhile_alike (ht : t.Fits names) (hu : u.Fits names) {a b : Source} (h : a.Alike b)
    (n : Nat) :
    (t.pollWhile a n).1.Fits names ∧ (u.pollWhile b n).1.Fits names ∧
      (t.pollWhile a n).2.1.Alike (u.pollWhile b n).2.1 ∧
      (t.pollWhile a n).2.2 = (u.pollWhile b n).2.2 := by
  induction n generalizing t u a b with
  | zero => exact ⟨ht, hu, h, rfl⟩
  | succ n ih =>
    obtain ⟨hleft, hanswer⟩ := poll_alike t u h
    have htp := ht.poll a
    have hup := hu.poll b
    unfold pollWhile
    generalize t.poll a = polled at hleft hanswer htp ⊢
    generalize u.poll b = polled' at hleft hanswer hup ⊢
    obtain ⟨t', a', answer⟩ := polled
    obtain ⟨u', b', answer'⟩ := polled'
    cases hanswer
    rcases answer with _ | (s | m) | _
    · exact ⟨htp, hup, hleft, rfl⟩
    · exact ⟨htp, hup, hleft, rfl⟩
    · -- Only a message lets the polling go on.
      obtain ⟨htn, hun, hleftn, hanswers⟩ := ih htp hup hleft
      exact ⟨htn, hun, hleftn, congrArg (.item (.ok m) :: ·) hanswers⟩
    · exact ⟨htp, hup, hleft, rfl⟩

theorem answers_unwatch (t : Tracing) (source : Source) :
    (t.unwatch source).2.answers = source.answers := by
  cases source with
  | script s => rfl
  | watched call role inner => cases role <;> rfl

theorem answers_watch (t : Tracing) (i : Nat) (role : Role) (source : Source) :
    (t.watch i role source).answers = source.answers := by
  unfold watch
  split <;> rfl

-- The continuation is handed the metadata of the request but for the headers of the span.
theorem start_fits (h : t.Fits names) (ctx : CallContext) (type : MethodType)
    (metadata : Metadata) (message : Option Message) :
    (t.start ctx type metadata message).1.Fits names ∧
      (t.start ctx type metadata message).2.1.without names = metadata.without names := by
  unfold start
  split
  · rename_i htraced
    cases ctx with
    | server ctx =>
      refine ⟨?_, rfl⟩
      apply Fits.perform
      exact h
    | client ctx =>
      refine ⟨?_, ?_⟩
      · apply Fits.perform
        exact h
      · exact Recorder.without_inject _ _ _ _ (h htraced)
  · exact ⟨h, rfl⟩

end Tracing

/-! ## What the parties see -/

/-- A continuation is handed the same, but for headers of spans and for the span itself. -/
structure Seen.Alike (names : List String) (a b : Seen) : Prop where
  metadata : a.metadata.without names = b.metadata.without names
  message : a.message = b.message

/-- The same is on record; what was counted on the recorder is left out. -/
inductive Note.Alike (names : List String) : Note → Note → Prop
  | seen {a b : Seen} (h : a.Alike names b) : Alike names (.seen a) (.seen b)
  | counts (c d : Counts) : Alike names (.counts c) (.counts d)
  | same (n : Note) : Alike names n n

structure CallRequest.Alike (names : List String) (a b : CallRequest) : Prop where
  metadata : a.metadata.without names = b.metadata.without names
  message : a.message = b.message
  stream : Option.Rel Source.Alike a.stream b.stream

theorem CallRequest.Alike.ofType {names : List String} {r r' : CallRequest}
    (h : r.Alike names r') (type : MethodType) : (r.ofType type).Alike names (r'.ofType type) := by
  unfold CallRequest.ofType
  split
  · refine ⟨h.metadata, rfl, .some ?_⟩
    have hstream := h.stream
    generalize r.stream = s at hstream ⊢
    generalize r'.stream = s' at hstream ⊢
    cases hstream with
    | none => rfl
    | some hss => exact hss
  · exact ⟨h.metadata, congrArg (fun m => some (m.getD .unit)) h.message, .none⟩

/-- The same call, but for the parent of its span and for headers of spans. -/
structure CallSpec.Alike (names : List String) (a b : CallSpec) : Prop where
  same : b = { a with parent := b.parent, metadata := b.metadata }
  metadata : a.metadata.without names = b.metadata.without names

structure CallState.Alike (names : List String) (a b : CallState) : Prop where
  kind : a.kind = b.kind
  type : a.type = b.type
  metadata : a.metadata.without names = b.metadata.without names
  message : a.message = b.message
  requests : Option.Rel Source.Alike a.requests b.requests
  writer : a.writer = b.writer
  outlet : a.outlet = b.outlet

namespace Exchange

/-- The parties of the calls in one exchange see what those in the other see. -/
structure Alike (names : List String) (x y : Exchange) : Prop where
  left : x.toTracing.Fits names
  right : y.toTracing.Fits names
  calls : List.Forall₂ (CallState.Alike names) x.calls y.calls
  keptStreams : Table.Rel Source.Alike x.keptStreams y.keptStreams
  keptWriters : x.keptWriters = y.keptWriters
  outletNames : x.outletNames = y.outletNames
  notes : List.Forall₂ (Note.Alike names) x.notes y.notes

variable {names : List String} {x y : Exchange} {a b : Source}

theorem Alike.of_tracing (h : x.Alike names y) {t u : Tracing} (ht : t.Fits names)
    (hu : u.Fits names) :
    ({ x with toTracing := t } : Exchange).Alike names { y with toTracing := u } :=
  ⟨ht, hu, h.calls, h.keptStreams, h.keptWriters, h.outletNames, h.notes⟩

theorem Alike.note (h : x.Alike names y) {n n' : Note} (hn : n.Alike names n') :
    (x.note n).Alike names (y.note n') :=
  { h with notes := List.rel_append h.notes (.cons hn .nil) }

theorem Alike.tell (h : x.Alike names y) (i : Nat) (event : CallEvent Message) :
    (x.tell i event).Alike names (y.tell i event) :=
  h.of_tracing (h.left.tell i event) (h.right.tell i event)

theorem Alike.update (h : x.Alike names y) (i : Nat) {f g : CallState → CallState}
    (hfg : ∀ c d, c.Alike names d → (f c).Alike names (g d)) :
    (x.update i f).Alike names (y.update i g) :=
  { h with calls := rel_modify h.calls i hfg }

theorem Alike.call? (h : x.Alike names y) (i : Nat) :
    Option.Rel (CallState.Alike names) x.calls[i]? y.calls[i]? := rel_getElem? h.calls i

/-! ## Streams -/

theorem Alike.poll (h : x.Alike names y) (hab : a.Alike b) :
    (x.poll a).1.Alike names (y.poll b).1 ∧ (x.poll a).2.1.Alike (y.poll b).2.1 ∧
      (x.poll a).2.2 = (y.poll b).2.2 :=
  ⟨h.of_tracing (h.left.poll a) (h.right.poll b), Tracing.poll_alike _ _ hab⟩

theorem Alike.dropSource (h : x.Alike names y) (a b : Source) :
    (x.dropSource a).Alike names (y.dropSource b) :=
  h.of_tracing (h.left.dropSource a) (h.right.dropSource b)

theorem Alike.requests? (h : x.Alike names y) (i : Nat) :
    Option.Rel Source.Alike (x.requests? i) (y.requests? i) := by
  have hcall := h.call? i
  unfold Exchange.requests?
  generalize x.calls[i]? = c at hcall ⊢
  generalize y.calls[i]? = d at hcall ⊢
  cases hcall with
  | none => exact .none
  | some hcd => exact hcd.requests

theorem Alike.takeRequests (h : x.Alike names y) (i : Nat) :
    (x.takeRequests i).1.Alike names (y.takeRequests i).1 ∧
      Option.Rel Source.Alike (x.takeRequests i).2 (y.takeRequests i).2 := by
  refine ⟨?_, h.requests? i⟩
  apply h.update
  intro c d hcd
  exact { hcd with requests := .none }

theorem Alike.giveRequests (h : x.Alike names y) (i : Nat) (hab : a.Alike b) :
    (x.giveRequests i a).Alike names (y.giveRequests i b) := by
  apply h.update
  intro c d hcd
  exact { hcd with requests := .some hab }

theorem Alike.dropRequests (h : x.Alike names y) (i : Nat) :
    (x.dropRequests i).Alike names (y.dropRequests i) := by
  obtain ⟨htaken, hsource⟩ := h.takeRequests i
  unfold Exchange.dropRequests
  generalize x.takeRequests i = taken at htaken hsource ⊢
  generalize y.takeRequests i = taken' at htaken hsource ⊢
  obtain ⟨x', source⟩ := taken
  obtain ⟨y', source'⟩ := taken'
  cases hsource with
  | none => exact htaken
  | some hab => exact htaken.dropSource _ _

theorem Alike.pull (h : x.Alike names y) (i : Nat) :
    (x.pull i).1.Alike names (y.pull i).1 ∧ (x.pull i).2 = (y.pull i).2 := by
  obtain ⟨htaken, hsource⟩ := h.takeRequests i
  unfold Exchange.pull
  generalize x.takeRequests i = taken at htaken hsource ⊢
  generalize y.takeRequests i = taken' at htaken hsource ⊢
  obtain ⟨x', source⟩ := taken
  obtain ⟨y', source'⟩ := taken'
  cases hsource with
  | none => exact ⟨htaken, rfl⟩
  | some hab =>
    obtain ⟨hpolled, hleft, hanswer⟩ := htaken.poll hab
    exact ⟨hpolled.giveRequests i hleft, congrArg some hanswer⟩

theorem Alike.keepStream (h : x.Alike names y) (name : String) (hab : a.Alike b) :
    (x.keepStream name a).Alike names (y.keepStream name b) := by
  have hold := h.keptStreams.find? name
  have hkept : ({ x with keptStreams := x.keptStreams.set name a } : Exchange).Alike names
      { y with keptStreams := y.keptStreams.set name b } :=
    { h with keptStreams := h.keptStreams.set name hab }
  unfold Exchange.keepStream
  dsimp only
  generalize x.keptStreams.find? name = old at hold ⊢
  generalize y.keptStreams.find? name = old' at hold ⊢
  cases hold with
  | none => exact hkept
  | some hold => exact hkept.dropSource _ _

theorem Alike.keepRequests (h : x.Alike names y) (i : Nat) (name : String) :
    (x.keepRequests i name).Alike names (y.keepRequests i name) := by
  obtain ⟨htaken, hsource⟩ := h.takeRequests i
  unfold Exchange.keepRequests
  generalize x.takeRequests i = taken at htaken hsource ⊢
  generalize y.takeRequests i = taken' at htaken hsource ⊢
  obtain ⟨x', source⟩ := taken
  obtain ⟨y', source'⟩ := taken'
  cases hsource with
  | none => exact htaken
  | some hab => exact htaken.keepStream name hab

/-! ## Sinks -/

theorem Alike.outlet? (h : x.Alike names y) (i : Nat) :
    x.calls[i]?.bind CallState.outlet = y.calls[i]?.bind CallState.outlet := by
  have hcall := h.call? i
  generalize x.calls[i]? = c at hcall ⊢
  generalize y.calls[i]? = d at hcall ⊢
  cases hcall with
  | none => rfl
  | some hcd => exact hcd.outlet

theorem Alike.updateOutlet (h : x.Alike names y) (i : Nat)
    (f : Option (Outlet Message) → Option (Outlet Message)) :
    (x.update i fun c => { c with outlet := f c.outlet }).Alike names
      (y.update i fun c => { c with outlet := f c.outlet }) := by
  apply h.update
  intro c d hcd
  exact { hcd with outlet := congrArg f hcd.outlet }

theorem Alike.startWrite (h : x.Alike names y) (i : Nat) (op : SinkOp Message) :
    (x.startWrite i op).1.Alike names (y.startWrite i op).1 ∧
      (x.startWrite i op).2 = (y.startWrite i op).2 := by
  have htold := h.tell i (.responseWritten op)
  unfold Exchange.startWrite
  dsimp only
  rw [htold.outlet? i]
  split
  · exact ⟨htold, rfl⟩
  · exact ⟨htold.updateOutlet i fun _ => _, rfl⟩

theorem Alike.attemptWrite (h : x.Alike names y) (i : Nat) (ticket : OutletTicket Message) :
    (x.attemptWrite i ticket).1.Alike names (y.attemptWrite i ticket).1 ∧
      (x.attemptWrite i ticket).2 = (y.attemptWrite i ticket).2 := by
  unfold Exchange.attemptWrite
  rw [h.outlet? i]
  split
  · exact ⟨h, rfl⟩
  · exact ⟨h.updateOutlet i fun _ => _, rfl⟩

theorem Alike.writeOnce (h : x.Alike names y) (i : Nat) (op : SinkOp Message) :
    (x.writeOnce i op).1.Alike names (y.writeOnce i op).1 ∧
      (x.writeOnce i op).2 = (y.writeOnce i op).2 := by
  obtain ⟨hstarted, hticket⟩ := h.startWrite i op
  unfold Exchange.writeOnce
  generalize x.startWrite i op = started at hstarted hticket ⊢
  generalize y.startWrite i op = started' at hstarted hticket ⊢
  obtain ⟨x', ticket⟩ := started
  obtain ⟨y', ticket'⟩ := started'
  cases hticket
  cases ticket with
  | none => exact ⟨hstarted, rfl⟩
  | some ticket =>
    obtain ⟨hattempt, hresult⟩ := hstarted.attemptWrite i ticket
    exact ⟨hattempt, congrArg some hresult⟩

theorem Alike.releaseWriter (h : x.Alike names y) (i : Nat) :
    (x.releaseWriter i).Alike names (y.releaseWriter i) :=
  (h.updateOutlet i (Option.map Outlet.disconnect)).tell i .responsesDropped

theorem Alike.holdsWriter (h : x.Alike names y) (i : Nat) : x.holdsWriter i = y.holdsWriter i := by
  have hcall := h.call? i
  unfold Exchange.holdsWriter
  generalize x.calls[i]? = c at hcall ⊢
  generalize y.calls[i]? = d at hcall ⊢
  cases hcall with
  | none => rfl
  | some hcd => exact hcd.writer

theorem Alike.takeWriter (h : x.Alike names y) (i : Nat) :
    (x.takeWriter i).1.Alike names (y.takeWriter i).1 ∧
      (x.takeWriter i).2 = (y.takeWriter i).2 := by
  refine ⟨?_, h.holdsWriter i⟩
  apply h.update
  intro c d hcd
  exact { hcd with writer := rfl }

theorem Alike.dropWriter (h : x.Alike names y) (i : Nat) :
    (x.dropWriter i).Alike names (y.dropWriter i) := by
  obtain ⟨htaken, hheld⟩ := h.takeWriter i
  unfold Exchange.dropWriter
  generalize x.takeWriter i = taken at htaken hheld ⊢
  generalize y.takeWriter i = taken' at htaken hheld ⊢
  obtain ⟨x', held⟩ := taken
  obtain ⟨y', held'⟩ := taken'
  cases hheld
  cases held with
  | false => exact htaken
  | true => exact htaken.releaseWriter i

theorem Alike.keepWriterOf (h : x.Alike names y) (name : String) (i : Nat) :
    (x.keepWriterOf name i).Alike names (y.keepWriterOf name i) := by
  have hkept : ({ x with keptWriters := x.keptWriters.set name i } : Exchange).Alike names
      { y with keptWriters := y.keptWriters.set name i } :=
    { h with keptWriters := congrArg (·.set name i) h.keptWriters }
  unfold Exchange.keepWriterOf
  dsimp only
  rw [h.keptWriters] at hkept ⊢
  split
  · exact hkept
  · exact hkept.releaseWriter _

theorem Alike.keepWriter (h : x.Alike names y) (i : Nat) (name : String) :
    (x.keepWriter i name).Alike names (y.keepWriter i name) := by
  obtain ⟨htaken, hheld⟩ := h.takeWriter i
  unfold Exchange.keepWriter
  generalize x.takeWriter i = taken at htaken hheld ⊢
  generalize y.takeWriter i = taken' at htaken hheld ⊢
  obtain ⟨x', held⟩ := taken
  obtain ⟨y', held'⟩ := taken'
  cases hheld
  cases held with
  | false => exact htaken
  | true => exact htaken.keepWriterOf name i

theorem Alike.writeHeld (h : x.Alike names y) (i : Nat) (op : SinkOp Message) :
    (x.writeHeld i op).1.Alike names (y.writeHeld i op).1 ∧
      (x.writeHeld i op).2 = (y.writeHeld i op).2 := by
  unfold Exchange.writeHeld
  rw [h.holdsWriter i]
  split
  · exact h.writeOnce i op
  · exact ⟨h, rfl⟩

theorem Alike.dropHeld (h : x.Alike names y) (i : Nat) :
    (x.dropHeld i).Alike names (y.dropHeld i) := (h.dropRequests i).dropWriter i

/-! ## Starting calls -/

theorem Alike.takeRequest (h : x.Alike names y) (caller : Option Nat) {spec spec' : CallSpec}
    (hspec : spec.Alike names spec') :
    (x.takeRequest caller spec).1.Alike names (y.takeRequest caller spec').1 ∧
      (x.takeRequest caller spec).2.Alike names (y.takeRequest caller spec').2 := by
  obtain ⟨hsame, hmetadata⟩ := hspec
  have hrequests : spec'.requests = spec.requests := by rw [hsame]
  have htype : spec'.type = spec.type := by rw [hsame]
  unfold Exchange.takeRequest
  rw [hrequests]
  cases spec.requests with
  | single m => exact ⟨h, hmetadata, rfl, .none⟩
  | stream s => exact ⟨h, hmetadata, rfl, .some rfl⟩
  | forwarded =>
    cases caller with
    | none => exact ⟨h, hmetadata, rfl, .none⟩
    | some i =>
      have hcall := h.call? i
      have htaken := h.takeRequests i
      dsimp only [Option.bind_some]
      generalize x.calls[i]? = c at hcall ⊢
      generalize y.calls[i]? = d at hcall ⊢
      cases hcall with
      | none => exact ⟨h, hmetadata, rfl, .none⟩
      | some hcd =>
        dsimp only [Option.map_some]
        rw [htype]
        split
        · exact ⟨htaken.1, hcd.metadata, rfl, htaken.2⟩
        · exact ⟨h, hcd.metadata, hcd.message, .none⟩

theorem Alike.nameOutlet (h : x.Alike names y) (name : String) (i : Nat) :
    (x.nameOutlet name i).Alike names (y.nameOutlet name i) := by
  unfold Exchange.nameOutlet
  dsimp only
  rw [h.outletNames]
  split
  · exact { h with outletNames := congrArg (·.set name i) h.outletNames }
  · have hclosed := h.updateOutlet ‹_› (Option.map Outlet.close)
    exact { hclosed with outletNames := congrArg (·.set name i) hclosed.outletNames }

-- Streams stay alike, whichever tracing watches them.
theorem alike_watch {a b : Option Source} (h : Option.Rel Source.Alike a b) (t u : Tracing)
    (i j : Nat) (role : Role) :
    Option.Rel Source.Alike (a.map (t.watch i role)) (b.map (u.watch j role)) := by
  cases h with
  | none => exact .none
  | some hab =>
    apply Option.Rel.some
    unfold Source.Alike at hab ⊢
    rw [Tracing.answers_watch, Tracing.answers_watch, hab]

-- The continuation is handed its own request, whatever the span descends from.
theorem Alike.startOn (h : x.Alike names y) (parent parent' : Option SpanContext)
    {spec spec' : CallSpec} (hspec : spec.Alike names spec') {request request' : CallRequest}
    (hrequest : request.Alike names request') :
    (x.startOn parent spec request).1.Alike names (y.startOn parent' spec' request').1 ∧
      (x.startOn parent spec request).2.1 = (y.startOn parent' spec' request').2.1 ∧
      (x.startOn parent spec request).2.2.Alike names
        (y.startOn parent' spec' request').2.2 := by
  obtain ⟨hsame, -⟩ := hspec
  have hkind : spec'.kind = spec.kind := by rw [hsame]
  have htype : spec'.type = spec.type := by rw [hsame]
  have hname : spec'.name = spec.name := by rw [hsame]
  have hsink : spec'.sink = spec.sink := by rw [hsame]; rfl
  have hlength : x.calls.length = y.calls.length := h.calls.length_eq
  obtain ⟨hleft, hmetadata⟩ := Tracing.start_fits h.left (contextOf spec parent) spec.type
    request.metadata request.message
  obtain ⟨hright, hmetadata'⟩ := Tracing.start_fits h.right (contextOf spec' parent') spec'.type
    request'.metadata request'.message
  have hhanded := hmetadata.trans (hrequest.metadata.trans hmetadata'.symm)
  unfold Exchange.startOn
  dsimp only
  generalize x.toTracing.start (contextOf spec parent) spec.type request.metadata
    request.message = started at hleft hhanded ⊢
  generalize y.toTracing.start (contextOf spec' parent') spec'.type request'.metadata
    request'.message = started' at hright hhanded ⊢
  obtain ⟨t, metadata, context⟩ := started
  obtain ⟨u, metadata', context'⟩ := started'
  dsimp only at hleft hright hhanded ⊢
  have hstream := alike_watch hrequest.stream t u x.calls.length y.calls.length .requests
  rw [← hlength] at hstream ⊢
  rw [hkind, htype, hname, hsink]
  have hstarted : ({ x with
      toTracing := t
      calls := x.calls ++ [{
        kind := spec.kind, type := spec.type, metadata, message := request.message
        requests := request.stream.map (t.watch x.calls.length .requests)
        writer := spec.sink.isSome, outlet := spec.sink }] } : Exchange).Alike names
      { y with
        toTracing := u
        calls := y.calls ++ [{
          kind := spec.kind, type := spec.type, metadata := metadata', message := request'.message
          requests := request'.stream.map (u.watch x.calls.length .requests)
          writer := spec.sink.isSome, outlet := spec.sink }] } :=
    { h.of_tracing hleft hright with
      calls := List.rel_append h.calls
        (.cons ⟨rfl, rfl, hhanded, hrequest.message, hstream, rfl, rfl⟩ .nil) }
  refine ⟨?_, rfl, hhanded, hrequest.message⟩
  -- A name is of use for a sink only.
  generalize spec.sink = sink at hstarted ⊢
  cases spec.name with
  | none => exact hstarted
  | some name =>
    cases sink with
    | none => exact hstarted
    | some outlet => exact hstarted.nameOutlet name x.calls.length

theorem Alike.startCall (h : x.Alike names y) (caller : Option Nat)
    (enclosing enclosing' : Option SpanContext) {spec spec' : CallSpec}
    (hspec : spec.Alike names spec') :
    (x.startCall caller enclosing spec).1.Alike names (y.startCall caller enclosing' spec').1 ∧
      (x.startCall caller enclosing spec).2.1 = (y.startCall caller enclosing' spec').2.1 ∧
      (x.startCall caller enclosing spec).2.2.Alike names
        (y.startCall caller enclosing' spec').2.2 := by
  obtain ⟨htaken, hrequest⟩ := h.takeRequest caller hspec
  have htype : spec'.type = spec.type := by rw [hspec.same]
  unfold Exchange.startCall
  dsimp only
  rw [htype]
  exact htaken.startOn _ _ hspec (hrequest.ofType spec.type)

end Exchange

end CallTrace
