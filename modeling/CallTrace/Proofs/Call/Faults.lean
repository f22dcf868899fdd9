import CallTrace.Proofs.Call.Parties

/-!
# The faults of a call

How a call ends is read off the steps of its parties: the continuation decides, unless it hands a
response stream to the caller; then the first end or fault of that stream decides; and a party that
lets go before that leaves a cancellation.  The main statement says that the span shows a fault of
the setup first, the fault of the call last, and no other faults.
-/

namespace CallTrace

-- The entry of a fault of the tracing layer.
def Error.entry (e : Error) : Fields :=
  ⟨[(TagKey.event, .text errorEvent), (TagKey.errorKind, .text e.kind.name),
    (TagKey.errorObject, .text e.text)]⟩

/-- The entry of the fault that a call ends with. -/
def Status.entry (s : Status) : Fields :=
  ⟨[(TagKey.event, .text errorEvent), (TagKey.errorKind, .text s.code.name),
    (TagKey.errorObject, .text s.text), (TagKey.message, .text s.message)]⟩

def Fields.isError (f : Fields) : Bool := f.eventName? == some errorEvent

-- The fault in the end of a span.
def Ending.fault? : Ending → Option Status
  | completed => none
  | failed s => some s

namespace Call

variable {M : Type}

/-- How a response stream that the caller reads ends: by its first end or fault, or let go. -/
def readingVerdict : List (CallEvent M) → Option Ending
  | [] => none
  | .responsePolled .ended :: _ => some .completed
  | .responsePolled (.item (.error s)) :: _ => some (.failed s)
  | .responsesDropped :: _ => some (.failed CallLog.abandonedStatus)
  | _ :: es => readingVerdict es

/-- How a call ends: by its continuation, by the response stream it returned, or let go. -/
def verdict : List (CallEvent M) → Option Ending
  | [] => none
  | .resolved (.reply _) :: _ => some .completed
  | .resolved .done :: _ => some .completed
  | .resolved (.fault s) :: _ => some (.failed s)
  | .resolved .stream :: es => readingVerdict es
  | .abandoned :: _ => some (.failed CallLog.abandonedStatus)
  | _ :: es => verdict es

/-- Polls of the request stream, and with them its faults, have no say in how a call ends. -/
theorem verdict_filter (events : List (CallEvent M)) :
    verdict (events.filter fun | .requestPolled _ => false | _ => true) = verdict events := by
  have hreading (es : List (CallEvent M)) :
      readingVerdict (es.filter fun | .requestPolled _ => false | _ => true) =
        readingVerdict es := by
    induction es with
    | nil => rfl
    | cons e es ih =>
      cases e with
      | responsePolled answer => rcases answer with _ | (s | m) | _ <;> simp [readingVerdict, ih]
      | _ => simp [readingVerdict, ih]
  induction events with
  | nil => rfl
  | cons e es ih =>
    cases e with
    | resolved outcome => cases outcome <;> simp [verdict, hreading]
    | _ => simp [verdict, ih]

/-! ## The end of a run -/

-- Where no reader is left, no answer ends the call.
theorem ended_of_unread {c : Call} (hresp : ∀ w, c.responses ≠ some (.reader w))
    (answer : Polled (Delivery M)) : c.ended (.responsePolled answer) = none := by
  cases hr : c.responses with
  | none => simp [ended, hr]
  | some watch =>
    cases watch with
    | reader w => exact (hresp w hr).elim
    | writer w => simp [ended, hr]

variable [Payload M]

theorem left_eq (c : Call) : c.left = none ∨ c.left = some (.failed CallLog.abandonedStatus) := by
  unfold left
  split
  · exact .inl rfl
  · exact .inr rfl

-- Once neither the continuation nor a reader is left, a call can only be let go.
theorem ending_of_left {c : Call} (hrun : c.running = false)
    (hresp : ∀ w, c.responses ≠ some (.reader w)) {events : List (CallEvent M)} {v : Ending}
    (h : c.ending events = some v) : v = .failed CallLog.abandonedStatus := by
  induction events generalizing c with
  | nil => cases h
  | cons e es ih =>
    have hended : c.ended e = none ∨ c.ended e = some (.failed CallLog.abandonedStatus) := by
      cases e with
      | requestPolled answer => exact .inl rfl
      | responsePolled answer => exact .inl (ended_of_unread hresp answer)
      | responseWritten op => exact .inl rfl
      | resolved outcome => exact .inl (by simp [ended, hrun])
      | requestsDropped => exact left_eq _
      | responsesDropped => exact left_eq _
      | abandoned => exact left_eq _
    unfold ending at h
    split at h
    · cases h
    · rcases hended with he | he
      · rw [he, Option.none_or] at h
        refine ih (running_step hrun e) (fun w hw => ?_) h
        obtain ⟨w', hw'⟩ := reader_step hrun hw
        exact hresp w' hw'
      · rw [he] at h
        cases h
        rfl

-- The reader of the responses is alone with the end of the call, and keeps what it has heard.
theorem reading_stays {c : Call} (hrun : c.running = false) {w : ReaderWatch}
    (hw : c.responses = some (.reader w)) (e : CallEvent M)
    (hpolled : ∀ answer, e ≠ .responsePolled answer) (hdropped : e ≠ .responsesDropped) :
    (c.step e).1.responses = some (.reader w) ∧ c.ended e = none := by
  cases e with
  | requestPolled answer => exact ⟨by simp only [step, requestPolled_fst, hw], rfl⟩
  | responsePolled answer => exact (hpolled answer rfl).elim
  | responseWritten op => exact ⟨by simp only [step, responseWritten_fst, hw], rfl⟩
  | requestsDropped =>
    simp only [step]
    rw [release_fst]
    exact ⟨hw, by simp [ended, left, held, hw]⟩
  | responsesDropped => exact (hdropped rfl).elim
  | abandoned =>
    simp only [step]
    rw [release_fst]
    exact ⟨hw, by simp [ended, left, held, hw]⟩
  | resolved outcome =>
    simp only [step, ended, hrun, Bool.false_eq_true, if_false, and_true]
    exact hw

-- The end of a call whose response stream is being read.
theorem ending_of_reading {c : Call} (hrun : c.running = false) {w : ReaderWatch}
    (hw : c.responses = some (.reader w)) {events : List (CallEvent M)} {v : Ending}
    (h : c.ending events = some v) : readingVerdict events = some v := by
  induction events generalizing c w with
  | nil => cases h
  | cons e es ih =>
    unfold ending at h
    split at h
    · cases h
    have hrun' := running_step hrun e
    have hstays := reading_stays hrun hw e
    cases e with
    | responsePolled answer =>
      have hnext : (c.step (.responsePolled answer)).1.responses =
          some (.reader (w.react answer).1) := by
        simp only [step]
        rw [responsePolled_fst, hw]
      rcases answer with _ | (s | m) | _ <;> simp only [ended, hw, Option.none_or] at h
      · exact ih hrun' hnext h
      · exact h
      · exact ih hrun' hnext h
      · exact h
    | responsesDropped =>
      -- Whoever holds the requests may still keep the span open, but nobody ends it otherwise.
      have hv : v = .failed CallLog.abandonedStatus := by
        rcases left_eq { c with responses := none } with hl | hl <;> simp only [ended, hl] at h
        · refine ending_of_left hrun' (fun w hw' => ?_) h
          simp only [step] at hw'
          rw [release_fst] at hw'
          cases hw'
        · cases h
          rfl
      rw [hv]
      rfl
    | requestPolled | responseWritten | requestsDropped | resolved | abandoned =>
      obtain ⟨hstay, hended⟩ := hstays (by simp) (by simp)
      rw [hended, Option.none_or] at h
      exact ih hrun' hstay h

-- No stream of a call ends it before its continuation.
theorem running_stays {c : Call} (hrun : c.running = true)
    (hresp : ∀ w, c.responses ≠ some (.reader w)) (e : CallEvent M)
    (hresolved : ∀ outcome, e ≠ .resolved outcome) (habandoned : e ≠ .abandoned) :
    (c.step e).1.running = true ∧ c.ended e = none := by
  cases e with
  | requestPolled answer => exact ⟨by simp only [step, requestPolled_fst, hrun], rfl⟩
  | responsePolled answer =>
    simp only [step]
    rw [responsePolled_fst]
    exact ⟨hrun, ended_of_unread hresp answer⟩
  | responseWritten op => exact ⟨by simp only [step, responseWritten_fst, hrun], rfl⟩
  | requestsDropped =>
    simp only [step]
    rw [release_fst]
    exact ⟨hrun, by simp [ended, left, held, hrun]⟩
  | responsesDropped =>
    simp only [step]
    rw [release_fst]
    exact ⟨hrun, by simp [ended, left, held, hrun]⟩
  | abandoned => exact (habandoned rfl).elim
  | resolved outcome => exact (hresolved outcome rfl).elim

-- The end of a call whose continuation runs.
theorem ending_of_running {c : Call} (hs : c.Sound) (hrun : c.running = true)
    {events : List (CallEvent M)} {v : Ending} (h : c.ending events = some v) :
    verdict events = some v := by
  induction events generalizing c with
  | nil => cases h
  | cons e es ih =>
    have hopen := hs.open_of_running hrun
    simp only [ending, hopen, Bool.false_eq_true, if_false] at h
    have hs' := sound_step hs e
    have hunread (w : ReaderWatch) : c.responses ≠ some (.reader w) := by
      intro hw
      have hdone := (hs.reader w hw).1
      rw [hrun] at hdone
      cases hdone
    have hstays := running_stays hrun hunread e
    cases e with
    | abandoned =>
      have hv : v = .failed CallLog.abandonedStatus := by
        rcases left_eq { c with running := false } with hl | hl <;> simp only [ended, hl] at h
        · refine ending_of_left (c := (c.step (.abandoned : CallEvent M)).1) ?_ (fun w hw => ?_) h
          · simp only [step]
            rw [release_fst]
          · simp only [step] at hw
            rw [release_fst] at hw
            exact hunread w hw
        · cases h
          rfl
      rw [hv]
      rfl
    | resolved outcome =>
      cases outcome with
      | reply m => simpa [ended, hrun, verdict] using h
      | done => simpa [ended, hrun, verdict] using h
      | fault s => simpa [ended, hrun, verdict] using h
      | stream =>
        simp only [ended, hrun, if_true, Option.none_or] at h
        refine ending_of_reading ?_ (w := freshReader) ?_ h
        · rw [resolved_fst hrun]
        · rw [resolved_fst hrun]
          rfl
    | requestPolled | responsePolled | responseWritten | requestsDropped | responsesDropped =>
      obtain ⟨hstay, hended⟩ := hstays (by simp) (by simp)
      rw [hended, Option.none_or] at h
      exact ih hs' hstay h

/-! ## The faults in the log -/

theorem isError_stage (s : Stage) : (Fields.event s.text).isError = false := by
  cases s <;> simp [Fields.isError, Stage.text, errorEvent]

theorem isError_request (log : CallLog) (m : M) :
    (log.messageFields requestEvent m).isError = false := by
  simp [Fields.isError, CallLog.eventName?_messageFields, requestEvent, errorEvent]

theorem isError_response (log : CallLog) (m : M) :
    (log.messageFields responseEvent m).isError = false := by
  simp [Fields.isError, CallLog.eventName?_messageFields, responseEvent, errorEvent]

theorem errors_stageEntries (log : CallLog) (s : Stage) :
    (log.stageEntries s).filter Fields.isError = [] := by
  cases h : log.verbose <;> simp [CallLog.stageEntries, h, isError_stage]

-- No step logs a fault before the end of the span.
theorem errors_logged (c : Call) (e : CallEvent M) : (c.logged e).filter Fields.isError = [] := by
  have hstage (b : Bool) (s : Stage) :
      (if b = true then c.log.stageEntries s else []).filter Fields.isError = [] := by
    cases b <;> simp [errors_stageEntries]
  cases e with
  | requestPolled answer =>
    rcases hr : c.requests with _ | (w | w) <;> rcases answer with _ | (s | m) | _ <;>
      simp only [logged, hr, List.filter_nil]
    · simp [isError_request]
    · exact hstage w.onComplete _
    · cases w.terminated <;> simp [isError_request]
    · cases w.terminated
      · exact hstage w.onEnd _
      · rfl
  | responsePolled answer =>
    rcases hr : c.responses with _ | (w | w) <;> rcases answer with _ | (s | m) | _ <;>
      simp only [logged, hr, List.filter_nil]
    · simp [isError_response]
    · exact errors_stageEntries _ _
  | responseWritten op =>
    rcases hr : c.responses with _ | (w | w) <;> rcases op with m | _ <;>
      simp only [logged, hr, List.filter_nil]
    · simp [isError_response]
    · exact hstage w.onComplete _
  | resolved outcome =>
    cases outcome with
    | reply m => cases hrun : c.running <;> simp [logged, hrun, isError_response]
    | stream => rfl
    | done => rfl
    | fault s => rfl
  | requestsDropped => rfl
  | responsesDropped => rfl
  | abandoned => rfl

theorem errors_entries (c : Call) (events : List (CallEvent M)) :
    (c.entries events).filter Fields.isError = [] := by
  induction events generalizing c with
  | nil => rfl
  | cons e es ih =>
    unfold entries
    split
    · rfl
    · rw [List.filter_append, errors_logged, ih]
      rfl

end Call

theorem CallLog.setupFields_eq (e : Error) : CallLog.setupFields e = e.entry := rfl

theorem CallLog.faultFields_eq (s : Status) : CallLog.faultFields s = s.entry := rfl

/-! ## The tag of a failed span -/

theorem getTag?_foldl {key : String} {tags : List (String × TagValue)}
    (h : ∀ t ∈ tags, t.1 ≠ key) (initial : List (String × TagValue)) :
    getTag? (tags.foldl (fun tags t => setTag t.1 t.2 tags) initial) key =
      getTag? initial key := by
  induction tags generalizing initial with
  | nil => rfl
  | cons t tags ih =>
    have ht : t.1 ≠ key := h t List.mem_cons_self
    rw [List.foldl_cons, ih (fun u hu => h u (List.mem_cons_of_mem t hu)), getTag?_setTag,
      if_neg ht]

-- A call is not started as a failed one.
theorem Recorder.tag?_newRecord (r : Recorder) (config : Config) (active : Option SpanContext)
    (ctx : CallContext) (type : MethodType) (metadata : Metadata) :
    (r.newRecord (r.callOptions config active ctx type metadata)).tag? TagKey.error = none := by
  have hcommon (kind : SpanKind) (method : String) :
      ∀ t ∈ callTags config kind type method, t.1 ≠ TagKey.error := by
    simp [callTags, TagKey.component, TagKey.spanKind, TagKey.methodName, TagKey.methodType,
      TagKey.error]
  have hpeer (peer : Peer) : ∀ t ∈ peerTags peer, t.1 ≠ TagKey.error := by
    cases peer <;>
      simp [peerTags, TagKey.peerAddress, TagKey.peerIPv4, TagKey.peerIPv6, TagKey.peerPort,
        TagKey.error]
  unfold newRecord SpanRecord.tag?
  refine getTag?_foldl (fun t ht => ?_) []
  cases ctx with
  | client ctx =>
    rcases List.mem_append.1 ht with ht | ht
    · exact hcommon _ _ t ht
    · obtain ⟨a, -, rfl⟩ := List.mem_map.1 ht
      simp [TagKey.peerAddress, TagKey.error]
  | server ctx =>
    rcases List.mem_append.1 ht with ht | ht
    · exact hcommon _ _ t ht
    · rcases List.mem_cons.1 ht with rfl | ht
      · simp [TagKey.headers, TagKey.error]
      · cases hp : ctx.peer with
        | none => simp [hp] at ht
        | some peer => exact hpeer peer t (by simpa [hp] using ht)

/-! ## The faults of a span -/

/-- The span of a call shows the fault of its setup and the fault that it ended with. -/
structure SpanRecord.ShowsFaults (record : SpanRecord) (setup : Option Error)
    (fault : Option Status) : Prop where
  errors : record.logs.filter Fields.isError =
    setup.toList.map Error.entry ++ fault.toList.map Status.entry
  first : ∀ e, setup = some e → record.logs.head? = some e.entry
  last : ∀ s, fault = some s → record.logs.getLast? = some s.entry
  tag : record.tag? TagKey.error = fault.map fun _ => .bool true

theorem errors_openingEntries {M : Type} [Payload M] (log : CallLog) (setup : Option Error)
    (message : Option M) :
    (StartedCall.openingEntries log setup message).filter Fields.isError =
      setup.toList.map Error.entry := by
  have hsetup : (setup.toList.map CallLog.setupFields).filter Fields.isError =
      setup.toList.map Error.entry := by
    cases setup with
    | none => rfl
    | some e =>
      have he : (CallLog.setupFields e).isError = true := by
        simp [Fields.isError, CallLog.eventName?_setupFields]
      rw [CallLog.setupFields_eq] at he
      simp [CallLog.setupFields_eq, he]
  have hmessage : (message.toList.map (log.messageFields requestEvent)).filter Fields.isError =
      [] := by
    cases message <;> simp [Call.isError_request]
  unfold StartedCall.openingEntries
  rw [List.filter_append, List.filter_append, hsetup, hmessage, Call.errors_stageEntries]
  simp

theorem Ending.errors_entries (verbose : Bool) (v : Ending) :
    (v.entries verbose).filter Fields.isError = v.fault?.toList.map Status.entry := by
  cases v with
  | completed => cases verbose <;> simp [entries, fault?, Call.isError_stage]
  | failed s =>
    have hs : (CallLog.faultFields s).isError = true := by
      simp [Fields.isError, CallLog.eventName?_faultFields]
    rw [CallLog.faultFields_eq] at hs
    simp [entries, fault?, CallLog.faultFields_eq, hs]

/--
However the parties of a call behave, its span is finished once none of them is left, and ends with
the verdict of their steps, in which polls of the request stream have no say.  The finished span
shows the fault of the setup as its first entry, the fault of the verdict as its last one, and no
other fault.
-/
theorem faults_of_call {M : Type} [Payload M] (o : CallStart M) (events : List (CallEvent M)) :
    ∃ record, (o.after events).records[o.started.span]? = some record ∧
      ((∀ p, (o.started.call.run events).1.has p = false) → record.finished = true) ∧
      (record.finished = true → ∃ v, Call.verdict events = some v ∧
        Call.verdict (events.filter fun | .requestPolled _ => false | _ => true) = some v ∧
        record.ShowsFaults o.setup v.fault?) := by
  refine ⟨_, o.record_after events, fun hnone => ?_, fun hfinished => ?_⟩
  · have hsound := Call.sound_run o.sound_started events
    unfold SpanRecord.finished
    rw [o.finishCount_run, hsound.finished_of_released (Call.held_of_has hnone)]
    rfl
  rw [o.replay_run] at hfinished ⊢
  cases hv : o.started.call.ending events with
  | none => simp [SpanRecord.finished, hv] at hfinished
  | some v =>
    have hverdict := Call.ending_of_running o.sound_started o.running_started hv
    refine ⟨v, hverdict, (Call.verdict_filter events).trans hverdict, ?_⟩
    constructor
    · simp only [Option.map_some, Option.getD_some, List.filter_append, errors_openingEntries,
        Call.errors_entries, Ending.errors_entries, List.append_nil]
    · intro e he
      simp [he, StartedCall.openingEntries, CallLog.setupFields_eq]
    · intro s hs
      cases v with
      | completed => cases hs
      | failed s' =>
        cases hs
        simp [Ending.entries, CallLog.faultFields_eq]
    · have hnew := o.recorder.tag?_newRecord o.config o.active o.ctx o.type o.metadata
      cases v with
      | completed => exact hnew
      | failed s => exact (getTag?_setTag _ _ _ _).trans (if_pos rfl)

-- A handler whose setup fails, that reads a fault of the requests and then fails with another one.
theorem faults_of_failed_handler :
    let o : CallStart Message :=
      { recorder := { ids := .odd 0 0, extractFailure := some .internal }, config := {}
        active := none, ctx := .server { method := "/chat" }, type := .bidiStreaming
        metadata := .empty, message := none }
    let events : List (CallEvent Message) :=
      [.requestPolled (.item (.error (.cancelled "requests"))), .requestsDropped, .responsesDropped,
        .resolved (.fault (.cancelled "handler"))]
    let setup : Error :=
      { kind := .internal, message := "mock extract failure for " ++ Format.httpHeaders.name }
    ∃ record, (o.after events).records[o.started.span]? = some record ∧
      record.finished = true ∧ record.ShowsFaults (some setup) (some (.cancelled "handler")) := by
  intro o events setup
  have hnone : ∀ p, (o.started.call.run events).1.has p = false := by
    rw [o.call_started]
    generalize CallLog.ofConfig o.config o.record.context = log
    intro p
    cases p <;> rfl
  obtain ⟨record, hrecord, hreleased, hfaults⟩ := faults_of_call o events
  obtain ⟨v, hv, -, hshown⟩ := hfaults (hreleased hnone)
  obtain rfl : Ending.failed (.cancelled "handler") = v := Option.some.inj hv
  exact ⟨record, hrecord, hreleased hnone, hshown⟩

end CallTrace
