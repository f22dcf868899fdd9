import CallTrace.Proofs.Call.Faults
import CallTrace.Proofs.Call.Messages
import CallTrace.Session.Tracing

/-!
# Detail

What a configuration can switch off is detail: the entries of the stages of a call, and the data of
its messages.  Whatever is made bare of its detail commutes with every step of a call, up to the
count of late operations, so two settings lead to the same spans but for the detail.
-/

namespace CallTrace

/-! ## Bare entries -/

def Stage.all : List Stage :=
  [callStarted, requestStreamCompleted, responseStreamCompleted, callCompleted]

namespace Fields

def without (f : Fields) (key : String) : Fields := ⟨f.entries.filter (·.1 ≠ key)⟩

/-- Whether an entry is that of a stage, by its event. -/
def isStage (f : Fields) : Bool := Stage.all.any fun s => f.eventName? == some s.text

/-- An entry without the data that a message may have. -/
def bare (f : Fields) : Fields := if f.isMessage then f.without TagKey.data else f

theorem isStage_stage (s : Stage) : (event s.text).isStage = true := by
  cases s <;> simp [isStage, Stage.all]

theorem isStage_message {M : Type} [Payload M] (payloads : Bool) (p : Passage M) :
    (p.fields payloads).isStage = false := by
  cases p <;> cases payloads <;>
    simp [isStage, Stage.all, Stage.text, Passage.fields, eventName?, get?, TagValue.text?,
      requestEvent, responseEvent]

-- The data is all that a bare message lacks.
theorem bare_message {M : Type} [Payload M] (payloads : Bool) (p : Passage M) :
    (p.fields payloads).bare = p.fields false := by
  rw [bare, Call.isMessage_fields, if_pos rfl]
  cases p <;> cases payloads <;>
    simp [without, Passage.fields, TagKey.event, TagKey.data]

theorem plain_of_error {f : Fields} (h : f.eventName? = some errorEvent) :
    f.isStage = false ∧ f.bare = f := by
  constructor
  · simp [isStage, Stage.all, h, Stage.text, errorEvent]
  · rw [bare, Call.isMessage_fault h]
    rfl

theorem eventName?_bare (f : Fields) : f.bare.eventName? = f.eventName? := by
  unfold bare
  split
  · unfold eventName? get? without
    rw [List.find?_filter]
    congr 3
    funext e
    by_cases he : e.1 = TagKey.event
    · simp [he]
      decide
    · simp [he]
  · rfl

-- What is bare has no detail left.
theorem bare_bare (f : Fields) : f.bare.isStage = f.isStage ∧ f.bare.bare = f.bare := by
  have hname := f.eventName?_bare
  refine ⟨by simp [isStage, hname], ?_⟩
  cases h : f.isMessage with
  | false =>
    have hsame : f.bare = f := by simp [bare, h]
    rw [hsame, hsame]
  | true =>
    have hmessage : f.bare.isMessage = true := by simpa [isMessage, hname] using h
    have hbare : f.bare = f.without TagKey.data := if_pos h
    calc f.bare.bare = f.bare.without TagKey.data := if_pos hmessage
      _ = f.bare := by rw [hbare]; simp [without]

end Fields

/-! ## Bare effects -/

def SpanOp.bare? : SpanOp → Option SpanOp
  | .log f => if f.isStage then none else some (.log f.bare)
  | op => some op

def Effect.bare? : Effect → Option Effect
  | .span op => op.bare?.map .span
  | .report line => some (.report line)

def Effect.bare (effects : List Effect) : List Effect := effects.filterMap Effect.bare?

theorem Effect.bare_append (before after : List Effect) :
    Effect.bare (before ++ after) = Effect.bare before ++ Effect.bare after :=
  List.filterMap_append

-- No report is detail.
theorem Effect.reports_bare (effects : List Effect) :
    (Effect.bare effects).filterMap Effect.report? = effects.filterMap Effect.report? := by
  induction effects with
  | nil => rfl
  | cons e effects ih =>
    cases e with
    | report line => exact congrArg (line :: ·) ih
    | span op =>
      cases hop : op.bare? with
      | none =>
        rw [show bare (.span op :: effects) = bare effects by simp [bare, bare?, hop]]
        exact ih
      | some op' =>
        rw [show bare (.span op :: effects) = .span op' :: bare effects by simp [bare, bare?, hop]]
        exact ih

/-- A record without the entries of stages and the data of messages. -/
def SpanRecord.bare (r : SpanRecord) : SpanRecord :=
  { r with logs := (r.logs.filter (!·.isStage)).map Fields.bare }

-- An operation that is detail leaves the bare record, and any other acts on it.
theorem SpanRecord.bare_apply (r : SpanRecord) (op : SpanOp) :
    (r.apply op).bare = (op.bare?.map r.bare.apply).getD r.bare := by
  have hfinished : r.bare.finished = r.finished := rfl
  cases op with
  | tag key value =>
    simp only [apply, SpanOp.bare?, Option.map_some, Option.getD_some, hfinished]
    split <;> rfl
  | log f =>
    cases h : r.finished with
    | true =>
      have hkept (g : Fields) : r.bare.apply (.log g) = r.bare := by simp [apply, hfinished, h]
      cases hf : f.isStage <;> simp [SpanOp.bare?, hf, hkept] <;> simp [apply, h]
    | false =>
      have hadded (g : Fields) :
          r.bare.apply (.log g) = { r.bare with logs := r.bare.logs ++ [g] } := by
        simp [apply, hfinished, h]
      cases hf : f.isStage <;> simp [SpanOp.bare?, hf, hadded] <;> simp [apply, h, bare, hf]
  | finish => rfl

/-! ## Bare calls -/

/-- The configuration with these options for logging. -/
def Config.logging (config : Config) (verbose payloads : Bool) : Config :=
  { config with verbose, logPayloads := payloads }

def Config.bare (config : Config) : Config := config.logging false false

namespace CallLog

variable (log : CallLog)

def bare : CallLog := { log with verbose := false, logPayloads := false }

theorem bare_request {M : Type} [Payload M] (m : M) :
    Effect.bare (log.request m) = log.bare.request m := by
  cases hf : log.finished <;>
    simp [request, message, bare, hf, Call.messageFields_request, Effect.bare, Effect.bare?,
      SpanOp.bare?, Fields.isStage_message, Fields.bare_message]

theorem bare_response {M : Type} [Payload M] (m : M) :
    Effect.bare (log.response m) = log.bare.response m := by
  cases hf : log.finished <;>
    simp [response, message, bare, hf, Call.messageFields_response, Effect.bare, Effect.bare?,
      SpanOp.bare?, Fields.isStage_message, Fields.bare_message]

theorem bare_stage (s : Stage) : Effect.bare (log.stage s) = log.bare.stage s := by
  cases hv : log.verbose <;> cases hf : log.finished <;>
    simp [stage, lifecycle, bare, hv, hf, Effect.bare, Effect.bare?, SpanOp.bare?,
      Fields.isStage_stage]

theorem bare_setupFault (e : Error) : Effect.bare (log.setupFault e) = log.bare.setupFault e := by
  obtain ⟨hstage, hbare⟩ := Fields.plain_of_error (eventName?_setupFields e)
  cases hf : log.finished <;>
    simp [setupFault, bare, hf, Effect.bare, Effect.bare?, SpanOp.bare?, hstage, hbare]

theorem bare_opening (setup : Option Error) :
    Effect.bare (log.opening setup) = log.bare.opening setup := by
  cases setup with
  | none => rfl
  | some e => exact log.bare_setupFault e

theorem bare_finish : log.bare.finish = (log.finish.1.bare, Effect.bare log.finish.2) := by
  cases hf : log.finished with
  | true => simp [finish, bare, hf, suppressed, Effect.bare, Effect.bare?]
  | false =>
    have hstage := log.bare_stage .callCompleted
    have hopen : log.bare.finished = false := hf
    simp only [finish, hf, hopen, Bool.false_eq_true, if_false, Effect.bare_append, hstage]
    rfl

theorem bare_fault (s : Status) :
    log.bare.fault s = ((log.fault s).1.bare, Effect.bare (log.fault s).2) := by
  obtain ⟨hstage, hbare⟩ := Fields.plain_of_error (eventName?_faultFields s)
  cases hf : log.finished <;>
    simp [fault, bare, hf, suppressed, Effect.bare, Effect.bare?, SpanOp.bare?, hstage, hbare]

theorem bare_drop : log.bare.drop = (log.drop.1.bare, Effect.bare log.drop.2) := by
  cases hf : log.finished with
  | true => simp [drop, bare, hf, Effect.bare]
  | false =>
    have hopen : log.bare.finished = false := hf
    simp only [drop, hf, hopen, Bool.false_eq_true, if_false]
    exact log.bare_fault abandonedStatus

end CallLog

namespace Call

variable {M : Type} [Payload M] (c : Call)

def bare : Call := { c with log := c.log.bare }

theorem bare_finish : c.bare.finish = (c.finish.1.bare, Effect.bare c.finish.2) := by
  unfold finish
  rw [show c.bare.log = c.log.bare from rfl, c.log.bare_finish]
  rfl

theorem bare_fault (s : Status) :
    c.bare.fault s = ((c.fault s).1.bare, Effect.bare (c.fault s).2) := by
  unfold fault
  rw [show c.bare.log = c.log.bare from rfl, c.log.bare_fault]
  rfl

theorem bare_release : c.bare.release = (c.release.1.bare, Effect.bare c.release.2) := by
  have hheld : c.bare.held = c.held := rfl
  unfold release
  rw [hheld, show c.bare.log = c.log.bare from rfl, c.log.bare_drop]
  split <;> rfl

theorem bare_requestPolled (answer : Polled (Delivery M)) :
    c.bare.requestPolled answer =
      ((c.requestPolled answer).1.bare, Effect.bare (c.requestPolled answer).2) := by
  unfold requestPolled
  rw [show c.bare.requests = c.requests from rfl]
  rcases c.requests with _ | (w | w)
  · rfl
  · dsimp only
    -- The watch answers alike, whatever the log keeps of it.
    generalize w.react _ = reaction
    rcases reaction with ⟨w', _ | (m | _)⟩
    · rfl
    · exact congrArg (Prod.mk _) (c.log.bare_request m).symm
    · exact congrArg (Prod.mk _) (c.log.bare_stage _).symm
  · dsimp only
    generalize w.react answer = reaction
    rcases reaction with ⟨w', _ | (m | _ | s)⟩
    · rfl
    · exact congrArg (Prod.mk _) (c.log.bare_request m).symm
    · exact congrArg (Prod.mk _) (c.log.bare_stage _).symm
    · rfl

theorem bare_responsePolled (answer : Polled (Delivery M)) :
    c.bare.responsePolled answer =
      ((c.responsePolled answer).1.bare, Effect.bare (c.responsePolled answer).2) := by
  unfold responsePolled
  rw [show c.bare.responses = c.responses from rfl]
  rcases c.responses with _ | (w | w)
  · rfl
  · dsimp only
    generalize w.react answer = reaction
    rcases reaction with ⟨w', _ | (m | _ | s)⟩
    · rfl
    · exact congrArg (Prod.mk _) (c.log.bare_response m).symm
    · have hfinish := bare_finish { c with responses := some (.reader w') }
      have hstage := c.log.bare_stage .responseStreamCompleted
      dsimp only
      rw [Effect.bare_append, hstage]
      exact congrArg (fun p : Call × List Effect => (p.1, _ ++ p.2)) hfinish
    · exact bare_fault { c with responses := some (.reader w') } s
  · rfl

theorem bare_responseWritten (op : SinkOp M) :
    c.bare.responseWritten op =
      ((c.responseWritten op).1.bare, Effect.bare (c.responseWritten op).2) := by
  unfold responseWritten
  rw [show c.bare.responses = c.responses from rfl]
  rcases c.responses with _ | (w | w)
  · rfl
  · rfl
  · dsimp only
    generalize w.hear op.event = reaction
    rcases reaction with ⟨w', _ | (m | _)⟩
    · rfl
    · exact congrArg (Prod.mk _) (c.log.bare_response m).symm
    · exact congrArg (Prod.mk _) (c.log.bare_stage _).symm

theorem bare_settle (outcome : Outcome M) :
    c.bare.settle outcome = ((c.settle outcome).1.bare, Effect.bare (c.settle outcome).2) := by
  cases outcome with
  | reply m =>
    have hresponse := c.log.bare_response m
    simp only [settle, c.bare_finish, Effect.bare_append, hresponse]
    rfl
  | stream => rfl
  | done => exact c.bare_finish
  | fault s => exact c.bare_fault s

/-- A bare call takes the same step as the call, and its effects are the bare ones. -/
theorem bare_step (e : CallEvent M) :
    c.bare.step e = ((c.step e).1.bare, Effect.bare (c.step e).2) := by
  cases e with
  | requestPolled answer => exact c.bare_requestPolled answer
  | responsePolled answer => exact c.bare_responsePolled answer
  | responseWritten op => exact c.bare_responseWritten op
  | requestsDropped => exact bare_release { c with requests := none }
  | responsesDropped => exact bare_release { c with responses := none }
  | abandoned => exact bare_release { c with running := false }
  | resolved outcome =>
    unfold step
    rw [show c.bare.running = c.running from rfl]
    cases c.running with
    | false => rfl
    | true =>
      have hrelease := bare_release { (c.settle outcome).1 with running := false }
      have hgone : ({ (c.settle outcome).1.bare with running := false } : Call) =
          ({ (c.settle outcome).1 with running := false } : Call).bare := rfl
      simp only [if_true, c.bare_settle, Effect.bare_append, hgone, hrelease]

theorem bare_run (events : List (CallEvent M)) :
    c.bare.run events = ((c.run events).1.bare, Effect.bare (c.run events).2) := by
  induction events generalizing c with
  | nil => rfl
  | cons e events ih => simp only [run, c.bare_step, ih, Effect.bare_append]

end Call

/-! ## Bare recorders -/

theorem SpanRecord.bare_bare (r : SpanRecord) : r.bare.bare = r.bare := by
  have hstage (f : Fields) : (!f.bare.isStage) = !f.isStage := by rw [f.bare_bare.1]
  have hbare (f : Fields) : f.bare.bare = f.bare := f.bare_bare.2
  simp [bare, List.filter_map, Function.comp_def, hstage, hbare]

namespace Recorder

/-- A recorder with bare records; late operations may have been detail, so they are not counted. -/
def bare (r : Recorder) : Recorder :=
  { r with records := r.records.map SpanRecord.bare, late := 0 }

theorem bare_bare (r : Recorder) : r.bare.bare = r.bare := by
  simp [bare, Function.comp_def, SpanRecord.bare_bare]

-- A recorder on which a span was finished, tagged or logged to, without the detail.
theorem bare_apply_of {r : Recorder} {span : Nat} {record : SpanRecord}
    (h : r.records[span]? = some record) (op : SpanOp) :
    (r.apply span op).bare =
      { r.bare with
        records := r.bare.records.set span (record.apply op).bare
        rejected := r.rejected + (record.finished && op == .finish).toNat } := by
  unfold apply
  rw [h]
  dsimp only
  cases record.finished with
  | false => simp [bare, List.map_set]
  | true => cases op <;> simp [bare, List.map_set]

theorem bare_apply (r : Recorder) (span : Nat) (op : SpanOp) :
    (r.apply span op).bare = (op.bare?.map fun op => (r.bare.apply span op).bare).getD r.bare := by
  cases h : r.records[span]? with
  | none =>
    have hidle (op : SpanOp) : (r.bare.apply span op).bare = r.bare := by
      rw [apply, show r.bare.records[span]? = none by simp [bare, h], r.bare_bare]
    simp only [hidle]
    rw [apply, h]
    cases op.bare? <;> rfl
  | some record =>
    have hbare : r.bare.records[span]? = some record.bare := by simp [bare, h]
    have hrecord := record.bare_apply op
    rw [bare_apply_of h]
    cases hop : op.bare? with
    | none =>
      -- Only an entry is detail, and the record is bare without it.
      have hfinish : (op == SpanOp.finish) = false := by
        cases op <;> simp [SpanOp.bare?] at hop ⊢
      have hset : r.bare.records.set span record.bare = r.bare.records := by
        obtain ⟨hlt, hget⟩ := List.getElem?_eq_some_iff.1 hbare
        rw [← hget, List.set_getElem_self]
      rw [hop] at hrecord
      simp only [Option.map_none, Option.getD_none] at hrecord ⊢
      rw [hrecord, hset, hfinish, Bool.and_false]
      rfl
    | some op' =>
      have hfinish : (op' == SpanOp.finish) = (op == SpanOp.finish) := by
        cases op with
        | tag key value => cases hop; rfl
        | log f =>
          simp only [SpanOp.bare?] at hop
          split at hop <;> cases hop
          rfl
        | finish => cases hop; rfl
      rw [hop] at hrecord
      simp only [Option.map_some, Option.getD_some] at hrecord ⊢
      rw [bare_apply_of hbare, r.bare_bare, ← hrecord, SpanRecord.bare_bare, hfinish]
      rfl

/-- Does bare effects to a span. -/
def performBare (r : Recorder) (span : Nat) (effects : List Effect) : Recorder :=
  (effects.filterMap Effect.op?).foldl (fun r op => (r.apply span op).bare) r

theorem bare_perform (r : Recorder) (span : Nat) (effects : List Effect) :
    (r.perform span effects).bare = r.bare.performBare span (Effect.bare effects) := by
  induction effects generalizing r with
  | nil => rfl
  | cons e effects ih =>
    cases e with
    | report line => exact ih r
    | span op =>
      rw [perform_span, ih, bare_apply]
      cases hop : op.bare? with
      | none => simp [Effect.bare, Effect.bare?, hop]
      | some op' => simp [Effect.bare, Effect.bare?, hop, performBare, Effect.op?]

end Recorder

/-! ## What is read from a recorder -/

/-- The counts without that of late operations, which may have been detail. -/
def Counts.bare (c : Counts) : Counts := { c with late := 0 }

-- A span with its number, without the detail.
def bareSpan (span : Nat × SpanRecord) : Nat × SpanRecord := (span.1, span.2.bare)

namespace Recorder

section

variable (r : Recorder)

theorem start_bare (options : SpanOptions) :
    r.bare.start options = ((r.start options).1.bare, (r.start options).2) := by
  simp [start, bare, SpanRecord.bare]

theorem context?_bare (span : Nat) : r.bare.context? span = r.context? span := by
  simp only [context?, bare, List.getElem?_map, Option.map_map]
  rfl

theorem spans_bare : r.bare.spans = r.spans.map bareSpan := by
  simp [spans, bare, List.zipIdx_map, List.map_drop, Function.comp_def, bareSpan]

theorem finishedSpans_bare : r.bare.finishedSpans = r.finishedSpans.map bareSpan := by
  rw [finishedSpans, spans_bare, List.filter_map]
  rfl

theorem singleFinished?_bare : r.bare.singleFinished? = r.singleFinished?.map bareSpan := by
  unfold singleFinished?
  rw [finishedSpans_bare]
  rcases r.finishedSpans with _ | ⟨e, _ | ⟨_, _⟩⟩ <;> rfl

theorem findFinished?_bare (name : String) :
    r.bare.findFinished? name = (r.findFinished? name).map bareSpan := by
  unfold findFinished?
  rw [finishedSpans_bare, List.find?_map]
  rfl

theorem counts_bare : r.bare.counts = r.counts.bare := by
  simp only [counts, Counts.bare, finishedSpans_bare, spans_bare, List.length_map, List.filter_map]
  rfl

end

/-! ### Recorders that differ in detail -/

variable {r r' : Recorder} (h : r.bare = r'.bare)
include h

theorem start_of_bare (options : SpanOptions) :
    (r.start options).1.bare = (r'.start options).1.bare ∧
      (r.start options).2 = (r'.start options).2 := by
  have hstarted := r.start_bare options
  rw [h, r'.start_bare options] at hstarted
  obtain ⟨hr, hspan⟩ := Prod.mk.inj hstarted
  exact ⟨hr.symm, hspan.symm⟩

theorem apply_of_bare (span : Nat) (op : SpanOp) :
    (r.apply span op).bare = (r'.apply span op).bare := by
  rw [bare_apply, bare_apply, h]

theorem context?_of_bare (span : Nat) : r.context? span = r'.context? span := by
  rw [← context?_bare, h, context?_bare]

theorem finishedSpans_of_bare : r.finishedSpans.map bareSpan = r'.finishedSpans.map bareSpan := by
  rw [← finishedSpans_bare, h, finishedSpans_bare]

theorem singleFinished?_of_bare :
    r.singleFinished?.map bareSpan = r'.singleFinished?.map bareSpan := by
  rw [← singleFinished?_bare, h, singleFinished?_bare]

theorem findFinished?_of_bare (name : String) :
    (r.findFinished? name).map bareSpan = (r'.findFinished? name).map bareSpan := by
  rw [← findFinished?_bare, h, findFinished?_bare]

theorem counts_of_bare : r.counts.bare = r'.counts.bare := by
  rw [← counts_bare, h, counts_bare]

theorem outline_of_bare : r.outline = r'.outline := by
  have hstarted : r.counts.started = r'.counts.started :=
    show r.counts.bare.started = r'.counts.bare.started by rw [counts_of_bare h]
  have hpropagator : r.propagator = r'.propagator :=
    show r.bare.propagator = r'.bare.propagator by rw [h]
  unfold outline
  rw [hstarted, hpropagator]

theorem inject_of_bare (ctx : SpanContext) (format : Format) (carrier : Metadata) :
    r.inject ctx format carrier = r'.inject ctx format carrier :=
  show r.bare.inject ctx format carrier = r'.bare.inject ctx format carrier by rw [h]

theorem extract_of_bare (format : Format) (carrier : Metadata) :
    r.extract format carrier = r'.extract format carrier :=
  show r.bare.extract format carrier = r'.bare.extract format carrier by rw [h]

end Recorder

/-! ## Starting bare calls -/

def StartedCall.bare (started : StartedCall) : StartedCall :=
  { started with call := started.call.bare, effects := Effect.bare started.effects }

theorem StartedCall.ofSpan_bare {M : Type} [Payload M] (config : Config) (kind : SpanKind)
    (type : MethodType) (method : String) (span : Nat) (context : SpanContext)
    (setup : Option Error) (message : Option M) :
    ofSpan config.bare kind type method span context setup message =
      (ofSpan config kind type method span context setup message).bare := by
  let log := CallLog.ofConfig config context
  have hmessage : Effect.bare ((message.map log.request).getD []) =
      (message.map log.bare.request).getD [] := by
    cases message with
    | none => rfl
    | some m => exact log.bare_request m
  have heffects : Effect.bare (log.opening setup ++ log.stage .callStarted ++
      (message.map log.request).getD []) = log.bare.opening setup ++ log.bare.stage .callStarted ++
        (message.map log.bare.request).getD [] := by
    rw [Effect.bare_append, Effect.bare_append, log.bare_opening, log.bare_stage, hmessage]
  exact congrArg (fun effects => StartedCall.mk span _ (.report _ :: effects)) heffects.symm

namespace Recorder

theorem nextContext_bare (r : Recorder) (options : SpanOptions) :
    r.bare.nextContext options = r.nextContext options := by
  simp [nextContext, bare]

theorem callOptions_bare (r : Recorder) (config : Config) (active : Option SpanContext)
    (ctx : CallContext) (type : MethodType) (metadata : Metadata) :
    r.bare.callOptions config.bare active ctx type metadata =
      r.callOptions config active ctx type metadata := by
  cases ctx <;> rfl

variable {M : Type} [Payload M]

/-- A call starts alike on a bare recorder, with the bare effects. -/
theorem startCall_bare (r : Recorder) (config : Config) (active : Option SpanContext)
    (ctx : CallContext) (type : MethodType) (metadata : Metadata) (message : Option M) :
    r.bare.startCall config.bare active ctx type metadata message =
      ((r.startCall config active ctx type metadata message).1.bare,
        (r.startCall config active ctx type metadata message).2.1,
        (r.startCall config active ctx type metadata message).2.2.bare) := by
  have hfault : r.bare.setupFault? config.bare active ctx type metadata =
      r.setupFault? config active ctx type metadata := by
    cases ctx with
    | client ctx => simp only [setupFault?, callOptions_bare, nextContext_bare]; rfl
    | server ctx => rfl
  have hhanded : r.bare.handedMetadata config.bare active ctx type metadata =
      r.handedMetadata config active ctx type metadata := by
    cases ctx with
    | client ctx => simp only [handedMetadata, callOptions_bare, nextContext_bare]; rfl
    | server ctx => rfl
  simp only [startCall_eq, hfault, hhanded, callOptions_bare, nextContext_bare, start_bare,
    StartedCall.ofSpan_bare]
  rw [show r.bare.records.length = r.records.length from List.length_map _]

end Recorder

namespace CallStart

variable {M : Type} [Payload M] (o : CallStart M)

def logging (verbose payloads : Bool) : CallStart M :=
  { o with config := o.config.logging verbose payloads }

def bare : CallStart M := { o with recorder := o.recorder.bare, config := o.config.bare }

theorem outcome_bare :
    o.bare.outcome = (o.outcome.1.bare, o.outcome.2.1, o.outcome.2.2.bare) :=
  o.recorder.startCall_bare o.config o.active o.ctx o.type o.metadata o.message

theorem started_bare : o.bare.started = o.started.bare := congrArg (·.2.2) o.outcome_bare

-- What a call leaves on its recorder, without the detail, is what the bare call does to it.
theorem bare_after (events : List (CallEvent M)) :
    (o.after events).bare = o.bare.outcome.1.performBare o.bare.started.span
      (o.bare.started.effects ++ (o.bare.started.call.run events).2) := by
  have hrun : Effect.bare (o.started.call.run events).2 = (o.started.call.bare.run events).2 := by
    rw [Call.bare_run]
  rw [started_bare, outcome_bare]
  unfold after
  rw [Recorder.bare_perform, Effect.bare_append, hrun]
  rfl

variable {o} {o' : CallStart M} (h : o.bare = o'.bare)
include h

theorem handed_of_bare : o.outcome.2.1 = o'.outcome.2.1 := by
  have houtcome := o.outcome_bare
  rw [h, o'.outcome_bare] at houtcome
  exact (congrArg (·.2.1) houtcome).symm

/-- Calls that start alike but for detail, and go through the same steps, leave the same span. -/
theorem span_of_bare (events : List (CallEvent M)) :
    ((o.after events).records[o.started.span]?).map SpanRecord.bare =
      ((o'.after events).records[o'.started.span]?).map SpanRecord.bare := by
  have hspan : o.started.span = o'.started.span := by
    show o.started.bare.span = o'.started.bare.span
    rw [← started_bare, h, started_bare]
  have hafter : (o.after events).bare.records = (o'.after events).bare.records := by
    rw [bare_after, h, ← bare_after]
  rw [← List.getElem?_map, ← List.getElem?_map, hspan]
  exact congrArg (fun records : List SpanRecord => records[o'.started.span]?) hafter

end CallStart

end CallTrace
