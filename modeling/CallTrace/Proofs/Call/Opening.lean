import CallTrace.Proofs.Call.Course

/-!
# The start of a call

Both ends start a call alike: one new span, whose first entries are the fault of the setup, the
first stage and a single request.  The two ends differ in where the parent comes from, in what is
written to the metadata and in the tags.
-/

namespace CallTrace

namespace CallContext

def kind : CallContext → SpanKind
  | client _ => .client
  | server _ => .server

def method : CallContext → String
  | client ctx => ctx.method
  | server ctx => ctx.method

end CallContext

namespace Recorder

-- What the span of a call is started with.
def callOptions (r : Recorder) (config : Config) (active : Option SpanContext)
    (ctx : CallContext) (type : MethodType) (metadata : Metadata) : SpanOptions :=
  match ctx with
  | .client ctx =>
    { name := config.operationName .client ctx.method
      parent := ctx.parent.or active
      tags := callTags config .client type ctx.method ++
        ctx.authority.toList.map fun a => (TagKey.peerAddress, .text a) }
  | .server ctx =>
    { name := config.operationName .server ctx.method
      parent := ((r.extract .httpHeaders metadata).toOption).join
      tags := callTags config .server type ctx.method ++
        (TagKey.headers, .text metadata.headersText) :: (ctx.peer.map peerTags).getD [] }

/-- The context of the next span when it is started so. -/
def nextContext (r : Recorder) (options : SpanOptions) : SpanContext :=
  SpanContext.start options.parent r.ids r.records.length

/-- The fault of injection on a client, and of extraction on a server. -/
def setupFault? (r : Recorder) (config : Config) (active : Option SpanContext) (ctx : CallContext)
    (type : MethodType) (metadata : Metadata) : Option Error :=
  match ctx with
  | .client _ =>
    let context := r.nextContext (r.callOptions config active ctx type metadata)
    match (r.inject context .httpHeaders metadata).2 with
    | .ok () => none
    | .error e => some e
  | .server _ =>
    match r.extract .httpHeaders metadata with
    | .ok _ => none
    | .error e => some e

/-- The metadata that the continuation is handed: injection writes to it, extraction does not. -/
def handedMetadata (r : Recorder) (config : Config) (active : Option SpanContext)
    (ctx : CallContext) (type : MethodType) (metadata : Metadata) : Metadata :=
  match ctx with
  | .client _ =>
    (r.inject (r.nextContext (r.callOptions config active ctx type metadata)) .httpHeaders
      metadata).1
  | .server _ => metadata

-- The record of a span that was just started.
def newRecord (r : Recorder) (options : SpanOptions) : SpanRecord :=
  { name := options.name
    context := r.nextContext options
    tags := options.tags.foldl (fun tags t => setTag t.1 t.2 tags) [] }

variable {M : Type} [Payload M]

theorem startCall_eq (r : Recorder) (config : Config) (active : Option SpanContext)
    (ctx : CallContext) (type : MethodType) (metadata : Metadata) (message : Option M) :
    r.startCall config active ctx type metadata message =
      let options := r.callOptions config active ctx type metadata
      ((r.start options).1, r.handedMetadata config active ctx type metadata,
        StartedCall.ofSpan config ctx.kind type ctx.method r.records.length
          (r.nextContext options) (r.setupFault? config active ctx type metadata) message) := by
  cases ctx with
  | client ctx => rfl
  | server ctx =>
    unfold startCall startServer callOptions setupFault?
    cases h : r.extract .httpHeaders metadata <;> rfl

-- Starting a call starts one span, which comes after all others.
theorem records_startCall (r : Recorder) (config : Config) (active : Option SpanContext)
    (ctx : CallContext) (type : MethodType) (metadata : Metadata) (message : Option M) :
    (r.startCall config active ctx type metadata message).1.records =
      r.records ++ [r.newRecord (r.callOptions config active ctx type metadata)] := by
  rw [startCall_eq]
  rfl

end Recorder

namespace StartedCall

variable {M : Type} [Payload M]

/-- The entries with which the span of a call begins. -/
def openingEntries (log : CallLog) (setup : Option Error) (message : Option M) : List Fields :=
  setup.toList.map CallLog.setupFields ++ log.stageEntries .callStarted ++
    message.toList.map (log.messageFields requestEvent)

section

variable (config : Config) (kind : SpanKind) (type : MethodType) (method : String) (span : Nat)
  (context : SpanContext) (setup : Option Error) (message : Option M)

-- The record of the span after the start of its call.
theorem replay_ofSpan (r : SpanRecord) (hr : r.finishCount = 0) :
    r.replay (ofSpan config kind type method span context setup message).effects =
      { r with
        logs := r.logs ++ openingEntries (CallLog.ofConfig config context) setup message } := by
  have hopen : (CallLog.ofConfig config context).finished = false := rfl
  have hsetup : r.replay ((CallLog.ofConfig config context).opening setup) =
      r.replay (((setup.toList.map CallLog.setupFields).map fun f => .span (.log f))) := by
    cases setup <;> simp [CallLog.opening, CallLog.setupFault, hopen]
  have hmessage : (message.map (CallLog.ofConfig config context).request).getD [] =
      (message.toList.map ((CallLog.ofConfig config context).messageFields requestEvent)).map
        fun f => .span (.log f) := by
    cases message <;> simp [CallLog.request, CallLog.message_of_open hopen]
  unfold ofSpan openingEntries
  simp only [SpanRecord.replay_report, SpanRecord.replay_append, hsetup,
    CallLog.stage_of_open hopen, hmessage]
  rw [← SpanRecord.replay_append, ← SpanRecord.replay_append, ← List.map_append,
    ← List.map_append, SpanRecord.replay_entries r _ hr]
  simp only [List.append_assoc]

end

end StartedCall

/-! ## Calls from their start -/

structure CallStart (M : Type) where
  recorder : Recorder
  config : Config
  active : Option SpanContext
  ctx : CallContext
  type : MethodType
  metadata : Metadata
  message : Option M

namespace CallStart

variable {M : Type} [Payload M] (o : CallStart M)

def outcome : Recorder × Metadata × StartedCall :=
  o.recorder.startCall o.config o.active o.ctx o.type o.metadata o.message

def started : StartedCall := o.outcome.2.2

/-- The recorder after the start of the call and a run of its parties' steps. -/
def after (events : List (CallEvent M)) : Recorder :=
  o.outcome.1.perform o.started.span (o.started.effects ++ (o.started.call.run events).2)

def setup : Option Error := o.recorder.setupFault? o.config o.active o.ctx o.type o.metadata

/-- The record of the call's span before anything is done to it. -/
def record : SpanRecord :=
  o.recorder.newRecord (o.recorder.callOptions o.config o.active o.ctx o.type o.metadata)

theorem started_eq : o.started = StartedCall.ofSpan o.config o.ctx.kind o.type o.ctx.method
    o.recorder.records.length o.record.context o.setup o.message := by
  unfold started outcome
  rw [Recorder.startCall_eq]
  rfl

theorem call_started : o.started.call =
    Call.ofLog o.ctx.kind o.type (CallLog.ofConfig o.config o.record.context) := by
  rw [started_eq]
  rfl

theorem span_started : o.started.span = o.recorder.records.length := by
  rw [started_eq]
  rfl

theorem records_outcome : o.outcome.1.records = o.recorder.records ++ [o.record] :=
  Recorder.records_startCall _ _ _ _ _ _ _

theorem counts_outcome :
    o.outcome.1.rejected = o.recorder.rejected ∧ o.outcome.1.late = o.recorder.late := by
  unfold outcome
  rw [Recorder.startCall_eq]
  exact ⟨rfl, rfl⟩

theorem sound_started : o.started.call.Sound := by
  rw [call_started]
  exact Call.sound_ofLog _ _ rfl

theorem open_started : o.started.call.log.finished = false := by
  rw [call_started]
  rfl

theorem running_started : o.started.call.running = true := by
  rw [call_started]
  rfl

theorem replay_started : o.record.replay o.started.effects =
    { o.record with
      logs := StartedCall.openingEntries o.started.call.log o.setup o.message } := by
  rw [started_eq]
  exact StartedCall.replay_ofSpan _ _ _ _ _ _ _ _ _ rfl

-- The record of the span after the start and a run.
theorem replay_run (events : List (CallEvent M)) :
    o.record.replay (o.started.effects ++ (o.started.call.run events).2) =
      { o.record with
        tags := ((o.started.call.ending events).map (Ending.tags o.record.tags)).getD o.record.tags
        logs := StartedCall.openingEntries o.started.call.log o.setup o.message ++
          o.started.call.entries events ++
          ((o.started.call.ending events).map (Ending.entries o.started.call.log.verbose)).getD []
        finishCount := if (o.started.call.ending events).isSome then 1 else 0 } := by
  rw [SpanRecord.replay_append, replay_started,
    Call.replay_run o.sound_started o.open_started events _ rfl]

theorem record_after (events : List (CallEvent M)) :
    (o.after events).records[o.started.span]? =
      some (o.record.replay (o.started.effects ++ (o.started.call.run events).2)) := by
  unfold after
  rw [Recorder.getElem?_perform, if_pos rfl, records_outcome, span_started,
    List.getElem?_concat_length]
  rfl

/-- The span has been finished once if the log of the call has ended, and not at all before. -/
theorem finishCount_run (events : List (CallEvent M)) :
    (o.record.replay (o.started.effects ++ (o.started.call.run events).2)).finishCount =
      if (o.started.call.run events).1.log.finished then 1 else 0 := by
  rw [replay_run, Call.finished_run o.sound_started o.open_started]

-- The start of a call only writes to the new span, and reports no end.
theorem inTime_started : o.record.InTime o.started.effects ∧ Quiet o.started.effects := by
  rw [started_eq]
  refine inTime_of_open rfl fun e he => ?_
  have hstage (s : Stage) (log : CallLog) (h : e ∈ log.stage s) : ∃ f, e = .span (.log f) := by
    unfold CallLog.stage CallLog.lifecycle at h
    split at h
    · exact ⟨_, List.mem_singleton.1 h⟩
    · cases h
  have hmessage (m : M) (log : CallLog) (h : e ∈ log.request m) : ∃ f, e = .span (.log f) := by
    unfold CallLog.request CallLog.message at h
    split at h
    · cases h
    · exact ⟨_, List.mem_singleton.1 h⟩
  simp only [StartedCall.ofSpan, List.mem_cons, List.mem_append] at he
  rcases he with rfl | (he | he) | he
  · refine .inr ⟨_, rfl, ?_⟩
    cases o.ctx.kind <;> simp [Report.isSuppressed, SpanKind.text]
  · cases hsetup : o.setup with
    | none => simp [hsetup, CallLog.opening] at he
    | some error =>
      simp only [hsetup, CallLog.opening, CallLog.setupFault, CallLog.ofConfig,
        Bool.false_eq_true, if_false, List.mem_cons, List.not_mem_nil, or_false] at he
      rcases he with rfl | rfl
      · exact .inr ⟨_, rfl, by simp [Report.isSuppressed]⟩
      · exact .inl ⟨_, rfl⟩
  · exact .inl (hstage _ _ he)
  · cases hm : o.message with
    | none => simp [hm] at he
    | some m => exact .inl (hmessage m _ (by simpa [hm] using he))

end CallStart

end CallTrace
