import CallTrace.Proofs.Call.Opening

/-!
# Contents of messages

A step of a call carries messages.  Other contents may be put into them, even messages of another
type, which leaves the number and the order of the messages and everything else as it is.  A log
that is silent about payloads takes no notice: call and effects stay the same.
-/

namespace CallTrace

variable {M N : Type} (f : M → N)

/-! ## Other contents -/

def Polled.map {α β : Type} (f : α → β) : Polled α → Polled β
  | pending => .pending
  | item a => .item (f a)
  | ended => .ended

/-- An answer of a stream with other contents; a fault is none. -/
abbrev Polled.mapContents (answer : Polled (Delivery M)) : Polled (Delivery N) :=
  answer.map (Except.map f)

def SinkOp.map : SinkOp M → SinkOp N
  | write m => .write (f m)
  | complete => .complete

def Outcome.map : Outcome M → Outcome N
  | reply m => .reply (f m)
  | stream => .stream
  | done => .done
  | fault s => .fault s

def CallEvent.map : CallEvent M → CallEvent N
  | requestPolled answer => .requestPolled (answer.mapContents f)
  | requestsDropped => .requestsDropped
  | responsePolled answer => .responsePolled (answer.mapContents f)
  | responseWritten op => .responseWritten (op.map f)
  | responsesDropped => .responsesDropped
  | resolved outcome => .resolved (outcome.map f)
  | abandoned => .abandoned

/-- The start of a call with other contents in its request. -/
def CallStart.map (o : CallStart M) : CallStart N :=
  { recorder := o.recorder, config := o.config, active := o.active, ctx := o.ctx, type := o.type
    metadata := o.metadata, message := o.message.map f }

def ReaderEvent.map : ReaderEvent M → ReaderEvent N
  | message m => .message (f m)
  | ended => .ended
  | fault s => .fault s

def WriteEvent.map : WriteEvent M → WriteEvent N
  | write m => .write (f m)
  | complete => .complete

/-! ## Watches -/

theorem ReaderWatch.react_map (w : ReaderWatch) (answer : Polled (Delivery M)) :
    w.react (answer.mapContents f) =
      ((w.react answer).1, (w.react answer).2.map (ReaderEvent.map f)) := by
  obtain ⟨message, ended, fault, terminated⟩ := w
  rcases answer with _ | (s | m) | _ <;> cases terminated <;> cases message <;> cases ended <;>
    cases fault <;> rfl

theorem SinkOp.event_map (op : SinkOp M) : (op.map f).event = op.event.map f := by
  cases op <;> rfl

theorem WriterWatch.hear_map (w : WriterWatch) (e : WriteEvent M) :
    w.hear (e.map f) = ((w.hear e).1, (w.hear e).2.map (WriteEvent.map f)) := by
  obtain ⟨write, complete⟩ := w
  cases e <;> cases write <;> cases complete <;> rfl

/-! ## Silent logs -/

variable [Payload M] [Payload N]

namespace CallLog

variable {log : CallLog}

theorem message_of_silent (h : log.logPayloads = false) (event : String) (m : M) (n : N) :
    log.message event m = log.message event n := by
  simp [message, messageFields, h]

theorem request_of_silent (h : log.logPayloads = false) (m : M) (n : N) :
    log.request m = log.request n := message_of_silent h _ m n

theorem response_of_silent (h : log.logPayloads = false) (m : M) (n : N) :
    log.response m = log.response n := message_of_silent h _ m n

theorem logPayloads_finish (log : CallLog) : log.finish.1.logPayloads = log.logPayloads := by
  unfold finish
  split <;> rfl

theorem logPayloads_fault (log : CallLog) (s : Status) :
    (log.fault s).1.logPayloads = log.logPayloads := by
  unfold fault
  split <;> rfl

theorem logPayloads_drop (log : CallLog) : log.drop.1.logPayloads = log.logPayloads := by
  unfold drop
  split
  · rfl
  · exact log.logPayloads_fault abandonedStatus

end CallLog

/-! ## Steps -/

namespace Call

variable {c : Call}

-- No step changes what the log is to tell of payloads.
theorem logPayloads_release (c : Call) : c.release.1.log.logPayloads = c.log.logPayloads := by
  unfold release
  split
  · rfl
  · exact c.log.logPayloads_drop

theorem logPayloads_requestPolled (c : Call) (answer : Polled (Delivery M)) :
    (c.requestPolled answer).1.log.logPayloads = c.log.logPayloads := by
  unfold requestPolled
  rcases c.requests with _ | (w | w)
  · rfl
  · dsimp only
    generalize w.react _ = reaction
    rcases reaction with ⟨w', _ | (m | _)⟩ <;> rfl
  · dsimp only
    generalize w.react answer = reaction
    rcases reaction with ⟨w', _ | (m | _ | s)⟩ <;> rfl

theorem logPayloads_responsePolled (c : Call) (answer : Polled (Delivery M)) :
    (c.responsePolled answer).1.log.logPayloads = c.log.logPayloads := by
  unfold responsePolled
  rcases c.responses with _ | (w | w)
  · rfl
  · dsimp only
    generalize w.react answer = reaction
    rcases reaction with ⟨w', _ | (m | _ | s)⟩
    · rfl
    · rfl
    · exact c.log.logPayloads_finish
    · exact c.log.logPayloads_fault s
  · rfl

theorem logPayloads_responseWritten (c : Call) (op : SinkOp M) :
    (c.responseWritten op).1.log.logPayloads = c.log.logPayloads := by
  unfold responseWritten
  rcases c.responses with _ | (w | w)
  · rfl
  · rfl
  · dsimp only
    generalize w.hear op.event = reaction
    rcases reaction with ⟨w', _ | (m | _)⟩ <;> rfl

theorem logPayloads_settle (c : Call) (outcome : Outcome M) :
    (c.settle outcome).1.log.logPayloads = c.log.logPayloads := by
  cases outcome with
  | reply m => exact c.log.logPayloads_finish
  | stream => rfl
  | done => exact c.log.logPayloads_finish
  | fault s => exact c.log.logPayloads_fault s

theorem logPayloads_step (c : Call) (e : CallEvent M) :
    (c.step e).1.log.logPayloads = c.log.logPayloads := by
  cases e with
  | requestPolled answer => exact c.logPayloads_requestPolled answer
  | responsePolled answer => exact c.logPayloads_responsePolled answer
  | responseWritten op => exact c.logPayloads_responseWritten op
  | requestsDropped => exact logPayloads_release _
  | responsesDropped => exact logPayloads_release _
  | abandoned => exact logPayloads_release _
  | resolved outcome =>
    simp only [step]
    split
    · exact (logPayloads_release _).trans (c.logPayloads_settle outcome)
    · rfl

section

variable (h : c.log.logPayloads = false)
include h

theorem requestPolled_map (answer : Polled (Delivery M)) :
    c.requestPolled (answer.mapContents f) = c.requestPolled answer := by
  unfold requestPolled
  rcases c.requests with _ | (w | w)
  · rfl
  · obtain ⟨write, complete⟩ := w
    -- Only a message has contents that the watch could tell.
    rcases answer with _ | (s | m) | _
    · rfl
    · rfl
    · cases write with
      | false => rfl
      | true => exact congrArg (Prod.mk _) (CallLog.request_of_silent h (f m) m)
    · cases complete <;> rfl
  · dsimp only
    rw [ReaderWatch.react_map]
    generalize w.react answer = reaction
    rcases reaction with ⟨w', _ | (m | _ | s)⟩
    · rfl
    · exact congrArg (Prod.mk _) (CallLog.request_of_silent h (f m) m)
    · rfl
    · rfl

theorem responsePolled_map (answer : Polled (Delivery M)) :
    c.responsePolled (answer.mapContents f) = c.responsePolled answer := by
  unfold responsePolled
  rcases c.responses with _ | (w | w)
  · rfl
  · dsimp only
    rw [ReaderWatch.react_map]
    generalize w.react answer = reaction
    rcases reaction with ⟨w', _ | (m | _ | s)⟩
    · rfl
    · exact congrArg (Prod.mk _) (CallLog.response_of_silent h (f m) m)
    · rfl
    · rfl
  · rfl

theorem responseWritten_map (op : SinkOp M) :
    c.responseWritten (op.map f) = c.responseWritten op := by
  unfold responseWritten
  rcases c.responses with _ | (w | w)
  · rfl
  · rfl
  · dsimp only
    rw [SinkOp.event_map, WriterWatch.hear_map]
    generalize w.hear op.event = reaction
    rcases reaction with ⟨w', _ | (m | _)⟩
    · rfl
    · exact congrArg (Prod.mk _) (CallLog.response_of_silent h (f m) m)
    · rfl

theorem settle_map (outcome : Outcome M) : c.settle (outcome.map f) = c.settle outcome := by
  cases outcome with
  | reply m =>
    have hresponse := CallLog.response_of_silent h (f m) m
    simp only [Outcome.map, settle, hresponse]
  | stream | done | fault s => rfl

/-- A call that is silent about payloads takes the same step, whatever the messages hold. -/
theorem step_map (e : CallEvent M) : c.step (e.map f) = c.step e := by
  cases e with
  | requestPolled answer => exact requestPolled_map f h answer
  | responsePolled answer => exact responsePolled_map f h answer
  | responseWritten op => exact responseWritten_map f h op
  | resolved outcome => simp only [CallEvent.map, step, settle_map f h]
  | requestsDropped | responsesDropped | abandoned => rfl

omit h in
theorem run_map (h : c.log.logPayloads = false) (events : List (CallEvent M)) :
    c.run (events.map (CallEvent.map f)) = c.run events := by
  induction events generalizing c with
  | nil => rfl
  | cons e events ih =>
    have hstep := (c.logPayloads_step e).trans h
    simp only [List.map_cons, run, step_map f h, ih hstep]

end

end Call

/-! ## Starts -/

theorem StartedCall.ofSpan_map {config : Config} (h : config.logPayloads = false) (kind : SpanKind)
    (type : MethodType) (method : String) (span : Nat) (context : SpanContext)
    (setup : Option Error) (message : Option M) :
    ofSpan config kind type method span context setup (message.map f) =
      ofSpan config kind type method span context setup message := by
  have hlog : (CallLog.ofConfig config context).logPayloads = false := h
  have hrequest : ((message.map f).map (CallLog.ofConfig config context).request).getD [] =
      (message.map (CallLog.ofConfig config context).request).getD [] := by
    cases message with
    | none => rfl
    | some m => exact CallLog.request_of_silent hlog (f m) m
  unfold ofSpan
  dsimp only
  rw [hrequest]

theorem Recorder.startCall_map (r : Recorder) {config : Config} (h : config.logPayloads = false)
    (active : Option SpanContext) (ctx : CallContext) (type : MethodType) (metadata : Metadata)
    (message : Option M) :
    r.startCall config active ctx type metadata (message.map f) =
      r.startCall config active ctx type metadata message := by
  rw [startCall_eq, startCall_eq]
  dsimp only
  rw [StartedCall.ofSpan_map f h]

-- A call is as silent as its configuration.
theorem Recorder.logPayloads_startCall (r : Recorder) (config : Config)
    (active : Option SpanContext) (ctx : CallContext) (type : MethodType) (metadata : Metadata)
    (message : Option M) :
    (r.startCall config active ctx type metadata message).2.2.call.log.logPayloads =
      config.logPayloads := by
  rw [startCall_eq]
  rfl

namespace CallStart

variable {o : CallStart M} (h : o.config.logPayloads = false)
include h

theorem outcome_map : (o.map f).outcome = o.outcome :=
  o.recorder.startCall_map f h o.active o.ctx o.type o.metadata o.message

/-- What is done by a call from its start, whatever its messages hold. -/
theorem run_map (events : List (CallEvent M)) :
    (o.map f).started.call.run (events.map (CallEvent.map f)) = o.started.call.run events := by
  have hstarted : (o.map f).started = o.started := congrArg (·.2.2) (outcome_map f h)
  have hsilent : o.started.call.log.logPayloads = false :=
    (Recorder.logPayloads_startCall _ _ _ _ _ _ _).trans h
  rw [hstarted, Call.run_map f hsilent]

theorem after_map (events : List (CallEvent M)) :
    (o.map f).after (events.map (CallEvent.map f)) = o.after events := by
  unfold after
  rw [run_map f h]
  unfold started
  rw [outcome_map f h]

end CallStart

end CallTrace
