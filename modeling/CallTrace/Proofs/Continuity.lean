import CallTrace.Proofs.Call.Opening
import CallTrace.Proofs.RoundTrip
import Mathlib.Data.List.Chain

/-!
# Traces over several calls

A server call that receives what a client call was handed, and a client call that is made below the
server call whose handler makes it, go on with the trace.  Whatever else happens on the recorder in
between, a chain of such calls is one trace in which each span is the child of the one before.
-/

namespace CallTrace

/-! ## A recorder in use -/

/-- One recorder after another, with anything done to it in between but to make it fail. -/
inductive Recorder.Used (r : Recorder) : Recorder → Prop
  | refl : Used r r
  | start {r' : Recorder} (h : Used r r') (options : SpanOptions) : Used r (r'.start options).1
  | apply {r' : Recorder} (h : Used r r') (span : Nat) (op : SpanOp) : Used r (r'.apply span op)
  | activate {r' : Recorder} (h : Used r r') (active : Option SpanContext) :
    Used r { r' with active }
  | reset {r' : Recorder} (h : Used r r') : Used r r'.reset

namespace Recorder.Used

variable {r r' r'' : Recorder}

theorem trans (h : r.Used r') (h' : r'.Used r'') : r.Used r'' := by
  induction h' with
  | refl => exact h
  | start _ options ih => exact ih.start options
  | apply _ span op ih => exact ih.apply span op
  | activate _ active ih => exact ih.activate active
  | reset _ ih => exact ih.reset

theorem perform (h : r.Used r') (span : Nat) (effects : List Effect) :
    r.Used (r'.perform span effects) := by
  induction effects generalizing r' with
  | nil => exact h
  | cons e effects ih =>
    cases e with
    | report line => exact ih h
    | span op => exact ih (h.apply span op)

-- How contexts are written and read stays the same.
theorem setup (h : r.Used r') : r'.propagator = r.propagator ∧
    r'.injectFailure = r.injectFailure ∧ r'.extractFailure = r.extractFailure := by
  induction h with
  | refl => exact ⟨rfl, rfl, rfl⟩
  | start _ options ih => exact ih
  | @apply r' _ span op ih =>
    have hsame := sameSetup_apply r' span op
    rw [hsame.propagator, hsame.injectFailure, hsame.extractFailure]
    exact ih
  | activate _ active ih => exact ih
  | reset _ ih => exact ih

-- A span that was started keeps its number and its context.
theorem context? (h : r.Used r') {span : Nat} {ctx : SpanContext}
    (hctx : r.context? span = some ctx) : r'.context? span = some ctx := by
  induction h with
  | refl => exact hctx
  | @start r' _ options ih =>
    unfold Recorder.context? at ih ⊢
    obtain ⟨record, hrecord, hcontext⟩ := Option.map_eq_some_iff.1 ih
    obtain ⟨hlt, -⟩ := List.getElem?_eq_some_iff.1 hrecord
    have hold : (r'.start options).1.records[span]? = some record := by
      unfold Recorder.start
      rw [List.getElem?_append_left hlt, hrecord]
    rw [hold, Option.map_some, hcontext]
  | @apply r' _ n op ih =>
    unfold Recorder.context? at ih ⊢
    rw [getElem?_apply]
    split
    · have happly : SpanRecord.context ∘ (SpanRecord.apply · op) = SpanRecord.context := by
        funext record
        cases op <;> simp only [Function.comp_apply, SpanRecord.apply]
        · split <;> rfl
        · split <;> rfl
      rw [Option.map_map, happly, ih]
    · exact ih
  | activate _ active ih => exact ih
  | reset _ ih => exact ih

end Recorder.Used

/-! ## Spans of one trace -/

namespace SpanContext

/-- The second span is a child of the first, in the same trace and sampled alike. -/
structure Continues (a b : SpanContext) : Prop where
  trace : b.traceId = a.traceId
  sampled : b.sampled = a.sampled
  parent : b.parent = some a.spanId

structure Nonzero (ctx : SpanContext) : Prop where
  trace : ctx.traceId ≠ .zero
  span : ctx.spanId ≠ .zero
  parent : ctx.parent ≠ some .zero

theorem continues_child (ctx : SpanContext) (ids : IdSupply) (k : Nat) :
    ctx.Continues (ctx.child ids k) := ⟨rfl, rfl, rfl⟩

theorem spanId_start (parent : Option SpanContext) (ids : IdSupply) (k : Nat) :
    (start parent ids k).spanId = ids.span k := by
  cases parent <;> rfl

theorem nonzero_start {parent : Option SpanContext}
    (h : ∀ p, parent = some p → p.traceId ≠ .zero ∧ p.spanId ≠ .zero) (ids : IdSupply) (k : Nat) :
    (start parent ids k).Nonzero := by
  have hspan : (start parent ids k).spanId ≠ .zero := by
    rw [spanId_start]
    exact ids.span_ne_zero k
  cases parent with
  | none => exact ⟨ids.trace_ne_zero k, hspan, by simp [start, root]⟩
  | some p =>
    obtain ⟨htrace, hp⟩ := h p rfl
    exact ⟨htrace, hspan, fun hzero => hp (Option.some.inj hzero)⟩

-- Trace and sampling are those of the first span, through the whole chain.
theorem of_chain {first : SpanContext} {rest : List SpanContext}
    (chain : (first :: rest).IsChain Continues) :
    ∀ ctx ∈ rest, ctx.traceId = first.traceId ∧ ctx.sampled = first.sampled := by
  induction rest generalizing first with
  | nil => simp
  | cons next rest ih =>
    obtain ⟨hnext, hrest⟩ := List.isChain_cons_cons.1 chain
    intro ctx hctx
    rcases List.mem_cons.1 hctx with rfl | hctx
    · exact ⟨hnext.trace, hnext.sampled⟩
    · obtain ⟨htrace, hsampled⟩ := ih hrest ctx hctx
      exact ⟨htrace.trans hnext.trace, hsampled.trans hnext.sampled⟩

end SpanContext

/-- The metadata holds nothing that keeps an injected context from being found: no single B3 header
where several are written, no debug flag for a span that is not sampled, and no parent that is no
identifier for a span without one. -/
def Propagator.Clear (p : Propagator) (ctx : SpanContext) (m : Metadata) : Prop :=
  match p with
  | w3c | b3 .single => True
  | b3 .multi => get? m B3.single = none ∧
      (get? m B3.flags = some "1" → ctx.sampled = true) ∧
      (ctx.parent = none → ∀ text, get? m B3.parentSpanId = some text →
        (Id.ofText? text : Option SpanId) ≠ none)

-- The identity of an injected context is found in the metadata, whether or not its state is taken.
theorem Propagator.found_of_clear {p : Propagator} {ctx : SpanContext} (hctx : ctx.Nonzero)
    {m : Metadata} (h : p.Clear ctx m) :
    ∃ seen, p.extract (p.inject ctx m).1 = .ok (some seen) ∧ seen.traceId = ctx.traceId ∧
      seen.spanId = ctx.spanId ∧ seen.sampled = ctx.sampled := by
  rcases p with _ | _ | _
  · exact ⟨_, (extract_ok_iff _).2 (read_inject_w3c m hctx.trace hctx.span), rfl, rfl, rfl⟩
  · have hread := read_inject_single m hctx.trace hctx.span hctx.parent .single
    exact ⟨_, (extract_ok_iff _).2 hread, rfl, rfl, TraceFlags.sampled_ofSampled _⟩
  · obtain ⟨hsingle, hflags, hold⟩ := h
    have hread := read_inject_multi m hctx.trace hctx.span .multi
    have hsampled : (get? m B3.flags == some "1" || ctx.sampled) = ctx.sampled := by
      cases hs : ctx.sampled with
      | true => simp
      | false =>
        rw [hs] at hflags
        simpa using hflags
    -- The parent that is read is the one written, or else a leftover that is an identifier.
    have hparent : ∃ parent, B3.parentOf (((ctx.parent.map Id.text).or
        (get? m B3.parentSpanId)).map String.toList) = .ok parent := by
      rw [B3.parentOf_or hctx.parent]
      cases hp : ctx.parent with
      | some id => exact ⟨some id, rfl⟩
      | none =>
        cases ht : get? m B3.parentSpanId with
        | none => exact ⟨none, rfl⟩
        | some text =>
          obtain ⟨id, hid⟩ := Option.ne_none_iff_exists'.1 (hold hp text ht)
          unfold Id.ofText? at hid
          refine ⟨some id, ?_⟩
          simp only [Option.map_some, B3.parentOf, hid]
          rfl
    obtain ⟨parent, hparent⟩ := hparent
    rw [hsingle] at hread
    simp only [hparent, hsampled] at hread
    exact ⟨_, (extract_ok_iff _).2 hread, rfl, rfl, TraceFlags.sampled_ofSampled _⟩

/-! ## One call and the next -/

namespace CallStart

variable {M : Type} [Payload M]

/-- The next call of a trace, on the same recorder: what a client call was handed is received, or
the handler of a server call makes a call below the context that it finds with its request. -/
inductive LeadsTo (a b : CallStart M) : Prop
  | received (ha : a.ctx.kind = .client) (hb : b.ctx.kind = .server)
    (metadata : b.metadata = a.outcome.2.1) (later : a.outcome.1.Used b.recorder)
  | continued {client : ClientContext} (ha : a.ctx.kind = .server) (hb : b.ctx = .client client)
    (parent : client.parent = some a.started.call.log.context)
    (later : a.outcome.1.Used b.recorder)

theorem LeadsTo.later {a b : CallStart M} (h : a.LeadsTo b) : a.outcome.1.Used b.recorder := by
  cases h with
  | received _ _ _ later => exact later
  | continued _ _ _ later => exact later

variable (o : CallStart M)

/-- The server call that receives what a client call was handed, after these steps of the latter. -/
def receive (events : List (CallEvent M)) (server : ServerContext) : CallStart M :=
  { o with
    recorder := o.after events, active := none, ctx := .server server, metadata := o.outcome.2.1 }

/-- The client call that the handler of a server call makes after these steps, below its span. -/
def callBelow (events : List (CallEvent M)) (method : String) (type : MethodType)
    (metadata : Metadata) (message : Option M) : CallStart M :=
  { o with
    recorder := o.after events
    ctx := .client { method, parent := some o.started.call.log.context }
    type, metadata, message }

theorem used_after (events : List (CallEvent M)) : o.outcome.1.Used (o.after events) :=
  Recorder.Used.refl.perform _ _

theorem leadsTo_receive (h : o.ctx.kind = .client) (events : List (CallEvent M))
    (server : ServerContext) : o.LeadsTo (o.receive events server) :=
  .received h rfl rfl (o.used_after events)

theorem leadsTo_callBelow (h : o.ctx.kind = .server) (events : List (CallEvent M))
    (method : String) (type : MethodType) (metadata : Metadata) (message : Option M) :
    o.LeadsTo (o.callBelow events method type metadata message) :=
  .continued h rfl rfl (o.used_after events)

theorem used_outcome : o.recorder.Used o.outcome.1 := by
  unfold outcome
  rw [Recorder.startCall_eq]
  exact Recorder.Used.refl.start _

theorem context?_outcome : o.outcome.1.context? o.started.span = some o.record.context := by
  unfold Recorder.context?
  rw [records_outcome, span_started, List.getElem?_concat_length]
  rfl

theorem context_started : o.started.call.log.context = o.record.context := by
  rw [call_started]
  rfl

theorem metadata_outcome : o.outcome.2.1 =
    o.recorder.handedMetadata o.config o.active o.ctx o.type o.metadata := by
  unfold outcome
  rw [Recorder.startCall_eq]

variable {o}

omit [Payload M] in
theorem context_of_client {client : ClientContext} (h : o.ctx = .client client) :
    o.record.context =
      SpanContext.start (client.parent.or o.active) o.recorder.ids o.recorder.records.length := by
  unfold record Recorder.newRecord Recorder.nextContext Recorder.callOptions
  rw [h]

omit [Payload M] in
theorem context_of_server (h : o.ctx.kind = .server) {seen : SpanContext}
    (hseen : o.recorder.extract .httpHeaders o.metadata = .ok (some seen)) :
    o.record.context = seen.child o.recorder.ids o.recorder.records.length := by
  unfold record Recorder.newRecord Recorder.nextContext Recorder.callOptions
  cases hctx : o.ctx with
  | client client =>
    rw [hctx] at h
    cases h
  | server server =>
    simp only [hseen]
    rfl

theorem metadata_of_client (h : o.ctx.kind = .client) (hinject : o.recorder.injectFailure = none) :
    o.outcome.2.1 = (o.recorder.propagator.inject o.record.context o.metadata).1 := by
  rw [metadata_outcome]
  unfold record Recorder.newRecord Recorder.handedMetadata Recorder.inject
  cases hctx : o.ctx with
  | client client => simp only [hinject]
  | server server =>
    rw [hctx] at h
    cases h

/-- A call whose span can be found from another process. -/
structure Findable (o : CallStart M) : Prop where
  injects : o.recorder.injectFailure = none
  extracts : o.recorder.extractFailure = none
  nonzero : o.record.context.Nonzero

theorem continues_of_leadsTo {a b : CallStart M} (ha : a.Findable) (h : a.LeadsTo b)
    (hclear : a.ctx.kind = .client → a.recorder.propagator.Clear a.record.context a.metadata) :
    a.record.context.Continues b.record.context := by
  obtain ⟨hpropagator, -, hextract⟩ := (a.used_outcome.trans h.later).setup
  cases h with
  | received hkind hb hmetadata later =>
    obtain ⟨seen, hseen, htrace, hspan, hsampled⟩ :=
      Propagator.found_of_clear ha.nonzero (hclear hkind)
    have hread : b.recorder.extract .httpHeaders b.metadata = .ok (some seen) := by
      rw [hmetadata, metadata_of_client hkind ha.injects, Recorder.extract, hextract, ha.extracts,
        hpropagator]
      exact hseen
    rw [context_of_server hb hread]
    exact ⟨htrace, hsampled, congrArg some hspan⟩
  | continued _ hb hparent later =>
    rw [context_of_client hb, hparent, a.context_started]
    exact a.record.context.continues_child _ _

theorem findable_of_leadsTo {a b : CallStart M} (ha : a.Findable) (h : a.LeadsTo b)
    (hnext : a.record.context.Continues b.record.context) : b.Findable := by
  obtain ⟨-, hinject, hextract⟩ := (a.used_outcome.trans h.later).setup
  have hspan : b.record.context.spanId ≠ .zero := by
    unfold record Recorder.newRecord Recorder.nextContext
    rw [SpanContext.spanId_start]
    exact b.recorder.ids.span_ne_zero _
  refine ⟨hinject.trans ha.injects, hextract.trans ha.extracts, ?_, hspan, ?_⟩
  · rw [hnext.trace]
    exact ha.nonzero.trace
  · rw [hnext.parent]
    exact fun hp => ha.nonzero.span (Option.some.inj hp)

/-! ## Any number of calls -/

theorem continues_of_chain {first : CallStart M} {rest : List (CallStart M)}
    (hfirst : first.Findable) (chain : (first :: rest).IsChain LeadsTo)
    (hclear : ∀ o ∈ first :: rest, o.ctx.kind = .client →
      o.recorder.propagator.Clear o.record.context o.metadata) :
    ((first :: rest).map fun o => o.record.context).IsChain SpanContext.Continues := by
  induction rest generalizing first with
  | nil => exact List.isChain_singleton _
  | cons next rest ih =>
    obtain ⟨hnext, hrest⟩ := List.isChain_cons_cons.1 chain
    have hcontinues := continues_of_leadsTo hfirst hnext (hclear first List.mem_cons_self)
    have hlater := ih (findable_of_leadsTo hfirst hnext hcontinues) hrest fun o ho =>
      hclear o (List.mem_cons_of_mem first ho)
    rw [List.map_cons, List.map_cons] at *
    exact List.isChain_cons_cons.2 ⟨hcontinues, hlater⟩

-- The recorder shows all spans of the chain after its last call.
theorem context?_of_chain {first : CallStart M} {rest : List (CallStart M)}
    (chain : (first :: rest).IsChain LeadsTo) {r : Recorder}
    (hr : ((first :: rest).getLast (by simp)).outcome.1.Used r) :
    first.outcome.1.Used r ∧
      ∀ o ∈ first :: rest, r.context? o.started.span = some o.record.context := by
  induction rest generalizing first with
  | nil =>
    refine ⟨hr, fun o ho => ?_⟩
    rw [List.mem_singleton.1 ho]
    exact hr.context? first.context?_outcome
  | cons next rest ih =>
    obtain ⟨hnext, hrest⟩ := List.isChain_cons_cons.1 chain
    rw [List.getLast_cons_cons] at hr
    obtain ⟨hused, hcontexts⟩ := ih hrest hr
    have hfirst := (hnext.later.trans next.used_outcome).trans hused
    refine ⟨hfirst, List.forall_mem_cons.2 ⟨?_, hcontexts⟩⟩
    exact hfirst.context? first.context?_outcome

/--
A chain of calls that starts with a client call, with or without a parent, is one trace.  However
the recorder was used meanwhile, it shows at the end that all spans have the trace and the sampled
bit of the first, and that each is the child of the one before.
-/
theorem trace_continues {first : CallStart M} {rest : List (CallStart M)} {client : ClientContext}
    (hclient : first.ctx = .client client)
    (unfailing : first.recorder.injectFailure = none ∧ first.recorder.extractFailure = none)
    (hparent : ∀ parent, client.parent.or first.active = some parent →
      parent.traceId ≠ .zero ∧ parent.spanId ≠ .zero)
    (chain : (first :: rest).IsChain LeadsTo)
    (clear : ∀ o ∈ first :: rest, o.ctx.kind = .client →
      o.recorder.propagator.Clear o.record.context o.metadata)
    {r : Recorder} (hr : ((first :: rest).getLast (by simp)).outcome.1.Used r) :
    ∃ (root : SpanContext) (trail : List SpanContext),
      (first :: rest).map (fun o => r.context? o.started.span) = (root :: trail).map some ∧
      root.parent = (client.parent.or first.active).map SpanContext.spanId ∧
      (root :: trail).IsChain (fun a b => b.parent = some a.spanId) ∧
      ∀ ctx ∈ trail, ctx.traceId = root.traceId ∧ ctx.sampled = root.sampled := by
  have hroot := context_of_client hclient
  have hnonzero := SpanContext.nonzero_start hparent first.recorder.ids
    first.recorder.records.length
  rw [← hroot] at hnonzero
  have hcontinues := continues_of_chain ⟨unfailing.1, unfailing.2, hnonzero⟩ chain clear
  have hcontexts := (context?_of_chain chain hr).2
  refine ⟨first.record.context, rest.map fun o => o.record.context, ?_, ?_, ?_, ?_⟩
  · rw [← List.map_cons (f := fun o : CallStart M => o.record.context), List.map_map]
    exact List.map_congr_left hcontexts
  · rw [hroot]
    cases client.parent.or first.active <;> rfl
  · exact hcontinues.imp fun _ _ h => h.parent
  · exact SpanContext.of_chain hcontinues

-- A handler that makes a call of its own, on metadata that another trace has left its headers in.
theorem handler_continues_trace :
    let sent : CallStart Message :=
      { recorder := { ids := .odd 0 0 }, config := {}, active := none
        ctx := .client { method := "/a" }, type := .unary, metadata := .empty
        message := some (.text "x") }
    let received := sent.receive [] { method := "/a" }
    let stale := (Metadata.empty.append (.of "traceparent") (Bytes.ofText "old")).append
      (.of "traceparent") (Bytes.ofText "older")
    let nested := received.callBelow [] "/b" .bidiStreaming stale none
    let last := nested.receive [.requestPolled .pending] { method := "/b" }
    ∃ (root : SpanContext) (trail : List SpanContext),
      [sent, received, nested, last].map (fun o => last.outcome.1.context? o.started.span) =
        (root :: trail).map some ∧
      root.parent = none ∧
      (root :: trail).IsChain (fun a b => b.parent = some a.spanId) ∧
      ∀ ctx ∈ trail, ctx.traceId = root.traceId ∧ ctx.sampled = root.sampled := by
  intro sent received stale nested last
  have hsent : sent.ctx = .client { method := "/a" } := rfl
  have hreceived : sent.LeadsTo received := sent.leadsTo_receive rfl _ _
  have hnested : received.LeadsTo nested := received.leadsTo_callBelow rfl _ _ _ _ _
  have hlast : nested.LeadsTo last := nested.leadsTo_receive rfl _ _
  have chain : [sent, received, nested, last].IsChain LeadsTo := by
    simp only [List.isChain_cons_cons]
    exact ⟨hreceived, hnested, hlast, .singleton _⟩
  have hpropagator : nested.recorder.propagator = .w3c :=
    (((sent.used_outcome.trans hreceived.later).trans received.used_outcome).trans
      hnested.later).setup.1
  refine trace_continues hsent ⟨rfl, rfl⟩ (fun parent h => by cases h) chain ?_ .refl
  intro o ho hkind
  simp only [List.mem_cons, List.not_mem_nil, or_false] at ho
  rcases ho with rfl | rfl | rfl | rfl
  · trivial
  · cases hkind
  · rw [hpropagator]
    trivial
  · cases hkind

end CallStart

end CallTrace
