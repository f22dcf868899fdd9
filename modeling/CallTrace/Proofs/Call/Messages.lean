import CallTrace.Proofs.Call.Opening

/-!
# The messages of a call

Which messages go through a call is read off the steps of its parties alone: an inbound stream is
heard up to its first end or fault, an outbound stream is heard throughout.  The main statement says
that the message entries of the span are these messages, in their order, up to the end of the span.
-/

namespace CallTrace

/-- A message that goes through a call, and the way that it goes. -/
inductive Passage (M : Type)
  | request (m : M)
  | response (m : M)
deriving Repr

/-- The entry of a message: its event, and its text when payloads are logged. -/
def Passage.fields {M : Type} [Payload M] (payloads : Bool) : Passage M → Fields
  | request m =>
    ⟨(TagKey.event, .text requestEvent) ::
      if payloads then [(TagKey.data, .text (Payload.text m))] else []⟩
  | response m =>
    ⟨(TagKey.event, .text responseEvent) ::
      if payloads then [(TagKey.data, .text (Payload.text m))] else []⟩

def Fields.isMessage (f : Fields) : Bool :=
  f.eventName? == some requestEvent || f.eventName? == some responseEvent

namespace Call

variable {M : Type}

/-- Whether a stream that gave these answers has given neither an end nor a fault. -/
def goesOn (answers : List (Polled (Delivery M))) : Bool :=
  answers.all fun
    | .pending | .item (.ok _) => true
    | .ended | .item (.error _) => false

def requestAnswers (events : List (CallEvent M)) : List (Polled (Delivery M)) :=
  events.filterMap fun
    | .requestPolled answer => some answer
    | _ => none

def responseAnswers (events : List (CallEvent M)) : List (Polled (Delivery M)) :=
  events.filterMap fun
    | .responsePolled answer => some answer
    | _ => none

/-- The message that a step sends through the call, after the steps of the past. -/
def passage? (kind : SpanKind) (past : List (CallEvent M)) : CallEvent M → Option (Passage M)
  | .requestPolled (.item (.ok m)) =>
    match kind with
    | .client => some (.request m)
    | .server => if goesOn (requestAnswers past) then some (.request m) else none
  | .responsePolled (.item (.ok m)) =>
    if goesOn (responseAnswers past) then some (.response m) else none
  | .responseWritten (.write m) => some (.response m)
  | .resolved (.reply m) => some (.response m)
  | _ => none

/-- The messages that the steps after the past send through the call. -/
def passages (kind : SpanKind) (past : List (CallEvent M)) : List (CallEvent M) → List (Passage M)
  | [] => []
  | e :: es => (passage? kind past e).toList ++ passages kind (past ++ [e]) es

theorem requestAnswers_append (past : List (CallEvent M)) (e : CallEvent M) :
    requestAnswers (past ++ [e]) = requestAnswers past ++ requestAnswers [e] :=
  List.filterMap_append

theorem responseAnswers_append (past : List (CallEvent M)) (e : CallEvent M) :
    responseAnswers (past ++ [e]) = responseAnswers past ++ responseAnswers [e] :=
  List.filterMap_append

theorem goesOn_append (before after : List (Polled (Delivery M))) :
    goesOn (before ++ after) = (goesOn before && goesOn after) := List.all_append

-- A reader is done once its stream does not go on.
theorem terminated_react (w : ReaderWatch) (answer : Polled (Delivery M)) :
    (w.react answer).1.terminated = (w.terminated || !goesOn [answer]) := by
  cases ht : w.terminated with
  | true => simp [ReaderWatch.react, ht]
  | false =>
    rcases answer with _ | (s | m) | _ <;> simp [ReaderWatch.react, ht, goesOn, ReaderWatch.terminate]

-- The readers of a call have followed its past.
structure Follows (c : Call) (past : List (CallEvent M)) : Prop where
  request : ∀ w, c.requests = some (.reader w) → w.terminated = !goesOn (requestAnswers past)
  response : ∀ w, c.responses = some (.reader w) → w.terminated = !goesOn (responseAnswers past)
  unread : c.running = true → responseAnswers past = []

theorem follows_ofLog (kind : SpanKind) (method : MethodType) (log : CallLog) :
    (ofLog kind method log).Follows ([] : List (CallEvent M)) where
  request w h := by
    cases kind <;> cases hm : method.streamsRequests <;>
      simp [ofLog, hm, outboundRequests, inboundRequests] at h
    subst h
    rfl
  response w h := by
    cases kind <;> cases hm : method.streamsResponses <;>
      simp [ofLog, hm, outboundResponses] at h
  unread _ := rfl

-- A step that polls nothing leaves the readers with the same answers.
theorem Follows.unpolled {c c' : Call} {past : List (CallEvent M)} (hf : c.Follows past)
    {e : CallEvent M}
    (hq : requestAnswers [e] = []) (hp : responseAnswers [e] = [])
    (hreq : ∀ w, c'.requests = some (.reader w) → c.requests = some (.reader w))
    (hresp : ∀ w, c'.responses = some (.reader w) → c.responses = some (.reader w))
    (hrun : c'.running = true → c.running = true) : c'.Follows (past ++ [e]) where
  request w hw := by
    rw [requestAnswers_append, hq, List.append_nil]
    exact hf.request w (hreq w hw)
  response w hw := by
    rw [responseAnswers_append, hp, List.append_nil]
    exact hf.response w (hresp w hw)
  unread hr := by
    rw [responseAnswers_append, hp, hf.unread (hrun hr)]
    rfl

variable [Payload M]

/-- The steps up to the one by which the span ends, with this one. -/
def untilFinished (c : Call) : List (CallEvent M) → List (CallEvent M)
  | [] => []
  | e :: es => if c.log.finished then [] else e :: (c.step e).1.untilFinished es

theorem messageFields_request (log : CallLog) (m : M) :
    log.messageFields requestEvent m = (Passage.request m).fields log.logPayloads := by
  cases h : log.logPayloads <;>
    simp [CallLog.messageFields, h, Passage.fields, Fields.event, Fields.add, Fields.empty]

theorem messageFields_response (log : CallLog) (m : M) :
    log.messageFields responseEvent m = (Passage.response m).fields log.logPayloads := by
  cases h : log.logPayloads <;>
    simp [CallLog.messageFields, h, Passage.fields, Fields.event, Fields.add, Fields.empty]

theorem isMessage_fields (payloads : Bool) (p : Passage M) : (p.fields payloads).isMessage = true := by
  cases p <;> cases payloads <;>
    simp [Passage.fields, Fields.isMessage, Fields.eventName?, Fields.get?, TagValue.text?]

theorem isMessage_stage (s : Stage) : (Fields.event s.text).isMessage = false := by
  cases s <;> simp [Fields.isMessage, Stage.text, requestEvent, responseEvent]

theorem isMessage_fault {f : Fields} (h : f.eventName? = some errorEvent) :
    f.isMessage = false := by
  simp [Fields.isMessage, h, errorEvent, requestEvent, responseEvent]

theorem filter_stageEntries (log : CallLog) (s : Stage) :
    (log.stageEntries s).filter Fields.isMessage = [] := by
  cases h : log.verbose <;> simp [CallLog.stageEntries, h, isMessage_stage]

/-! ## What the watches have seen -/

section

variable {c : Call} {past : List (CallEvent M)}

theorem Follows.requestPolled (hf : c.Follows past) (answer : Polled (Delivery M)) :
    (c.step (.requestPolled answer)).1.Follows (past ++ [.requestPolled answer]) := by
  simp only [step, requestPolled_fst]
  constructor
  · intro w hw
    obtain ⟨watch, hwatch, hnext⟩ := Option.map_eq_some_iff.1 hw
    cases watch with
    | sender v => cases hnext
    | reader v =>
      cases hnext
      rw [terminated_react, hf.request v hwatch, requestAnswers_append, goesOn_append,
        Bool.not_and]
      rfl
  · intro w hw
    rw [responseAnswers_append]
    simpa [responseAnswers] using hf.response w hw
  · intro hr
    rw [responseAnswers_append, hf.unread hr]
    rfl

theorem Follows.responsePolled (hf : c.Follows past) (hs : c.Sound)
    {answer : Polled (Delivery M)} (he : c.permits (.responsePolled answer) = true) :
    (c.step (.responsePolled answer)).1.Follows (past ++ [.responsePolled answer]) := by
  simp only [step]
  rw [responsePolled_fst]
  cases hr : c.responses with
  | none => simp [permits, hr] at he
  | some watch =>
    cases watch with
    | writer v => simp [permits, hr] at he
    | reader v =>
      constructor
      · intro w hw
        rw [requestAnswers_append]
        simpa [requestAnswers] using hf.request w hw
      · intro w hw
        cases hw
        rw [terminated_react, hf.response v hr, responseAnswers_append, goesOn_append,
          Bool.not_and]
        rfl
      · intro hrun
        have hdone := (hs.reader v hr).1
        rw [hdone] at hrun
        cases hrun

theorem Follows.resolved (hf : c.Follows past) (hrun : c.running = true) (outcome : Outcome M) :
    (c.step (.resolved outcome)).1.Follows (past ++ [.resolved outcome]) := by
  rw [resolved_fst hrun]
  cases outcome with
  | stream =>
    constructor
    · intro w hw
      rw [requestAnswers_append]
      simpa [requestAnswers] using hf.request w hw
    · intro w hw
      -- The stream is new, and nothing was read before it was there.
      cases hw
      rw [responseAnswers_append, hf.unread hrun]
      rfl
    · intro h
      cases h
  | reply m => exact hf.unpolled rfl rfl (fun w h => h) (fun w h => h) (fun h => by cases h)
  | done => exact hf.unpolled rfl rfl (fun w h => h) (fun w h => h) (fun h => by cases h)
  | fault s => exact hf.unpolled rfl rfl (fun w h => h) (fun w h => h) (fun h => by cases h)

theorem follows_step (hs : c.Sound) (hf : c.Follows past) {e : CallEvent M}
    (he : c.permits e = true) : (c.step e).1.Follows (past ++ [e]) := by
  cases e with
  | requestPolled answer => exact hf.requestPolled answer
  | responsePolled answer => exact hf.responsePolled hs he
  | resolved outcome => exact hf.resolved he outcome
  | responseWritten op =>
    simp only [step, responseWritten_fst]
    refine hf.unpolled rfl rfl (fun w h => h) (fun w h => ?_) (fun h => h)
    cases hr : c.responses with
    | none => simp [hr] at h
    | some watch => cases watch <;> simp_all
  | requestsDropped =>
    simp only [step]
    rw [release_fst]
    exact hf.unpolled rfl rfl (fun w h => by cases h) (fun w h => h) (fun h => h)
  | responsesDropped =>
    simp only [step]
    rw [release_fst]
    exact hf.unpolled rfl rfl (fun w h => h) (fun w h => by cases h) (fun h => h)
  | abandoned =>
    simp only [step]
    rw [release_fst]
    exact hf.unpolled rfl rfl (fun w h => h) (fun w h => h) (fun h => by cases h)

end

/-! ## The messages in the log -/

section

variable {c : Call} {past : List (CallEvent M)}

theorem filter_stageIf (log : CallLog) (b : Bool) (s : Stage) :
    (if b = true then log.stageEntries s else []).filter Fields.isMessage = [] := by
  cases b <;> simp [filter_stageEntries]

theorem filter_requestPolled (hs : c.Sound) (hf : c.Follows past) (answer : Polled (Delivery M))
    (he : c.permits (.requestPolled answer) = true) :
    (c.logged (.requestPolled answer)).filter Fields.isMessage =
      (passage? c.kind past (.requestPolled answer)).toList.map
        (Passage.fields c.log.logPayloads) := by
  cases hr : c.requests with
  | none => simp [permits, hr] at he
  | some watch =>
    cases watch with
    | sender w =>
      have hk := (hs.sender w hr).1
      rcases answer with _ | (s | m) | _
      · simp [logged, hr, passage?]
      · simp [logged, hr, passage?]
      · simp [logged, hr, passage?, hk, messageFields_request, isMessage_fields]
      · simpa [logged, hr, passage?] using filter_stageIf c.log w.onComplete _
    | reader w =>
      have hk := (hs.inbound w hr).1
      have ht := hf.request w hr
      rcases answer with _ | (s | m) | _
      · simp [logged, hr, passage?]
      · simp [logged, hr, passage?]
      · cases hg : goesOn (requestAnswers past) <;>
          simp [logged, hr, passage?, hk, ht, hg, messageFields_request, isMessage_fields]
      · cases hw : w.terminated
        · simpa [logged, hr, passage?, hw] using filter_stageIf c.log w.onEnd _
        · simp [logged, hr, passage?, hw]

theorem filter_responsePolled (hs : c.Sound) (hf : c.Follows past)
    (hopen : c.log.finished = false) (answer : Polled (Delivery M))
    (he : c.permits (.responsePolled answer) = true) :
    (c.logged (.responsePolled answer)).filter Fields.isMessage =
      (passage? c.kind past (.responsePolled answer)).toList.map
        (Passage.fields c.log.logPayloads) := by
  cases hr : c.responses with
  | none => simp [permits, hr] at he
  | some watch =>
    cases watch with
    | writer w => simp [permits, hr] at he
    | reader w =>
      -- The reader of an open span has given neither an end nor a fault.
      have hg : goesOn (responseAnswers past) = true := by
        have ht := hf.response w hr
        obtain ⟨-, ⟨rfl, -⟩ | ⟨-, hfin⟩⟩ := hs.reader w hr
        · simpa [freshReader] using ht
        · rw [hopen] at hfin
          cases hfin
      rcases answer with _ | (s | m) | _
      · simp [logged, hr, passage?]
      · simp [logged, hr, passage?]
      · simp [logged, hr, passage?, hg, messageFields_response, isMessage_fields]
      · simp [logged, hr, passage?, filter_stageEntries]

-- The message entries of one step on an open span.
theorem filter_logged (hs : c.Sound) (hf : c.Follows past) (hopen : c.log.finished = false)
    {e : CallEvent M} (he : c.permits e = true) :
    (c.logged e).filter Fields.isMessage =
      (passage? c.kind past e).toList.map (Passage.fields c.log.logPayloads) := by
  cases e with
  | requestPolled answer => exact filter_requestPolled hs hf answer he
  | responsePolled answer => exact filter_responsePolled hs hf hopen answer he
  | responseWritten op =>
    cases hr : c.responses with
    | none => simp [permits, hr] at he
    | some watch =>
      cases watch with
      | reader w => simp [permits, hr] at he
      | writer w =>
        cases op with
        | write m => simp [logged, hr, passage?, messageFields_response, isMessage_fields]
        | complete => simpa [logged, hr, passage?] using filter_stageIf c.log w.onComplete _
  | resolved outcome =>
    have hrun : c.running = true := he
    cases outcome with
    | reply m => simp [logged, hrun, passage?, messageFields_response, isMessage_fields]
    | stream => rfl
    | done => rfl
    | fault s => rfl
  | requestsDropped => rfl
  | responsesDropped => rfl
  | abandoned => rfl

end

/-- The message entries of a run are the messages that its steps send, up to the end of the span. -/
theorem filter_entries {c : Call} {past : List (CallEvent M)} (hs : c.Sound) (hf : c.Follows past)
    {events : List (CallEvent M)} (legal : c.Legal events) :
    (c.entries events).filter Fields.isMessage =
      (passages c.kind past (c.untilFinished events)).map (Passage.fields c.log.logPayloads) := by
  induction events generalizing c past with
  | nil => rfl
  | cons e es ih =>
    obtain ⟨he, hes⟩ := legal
    cases hopen : c.log.finished with
    | true => simp [entries, untilFinished, hopen, passages]
    | false =>
      have hlog : (c.step e).1.log.logPayloads = c.log.logPayloads := by
        rw [(step_of_open hs hopen e).2]
      have hrest := ih (sound_step hs e) (follows_step hs hf he) hes
      rw [kind_step, hlog] at hrest
      simp only [entries, untilFinished, hopen, Bool.false_eq_true, if_false, passages,
        List.filter_append, List.map_append]
      rw [filter_logged hs hf hopen he, hrest]

-- The last entries of a span are no messages.
theorem filter_ending (verbose : Bool) (e : Ending) :
    (e.entries verbose).filter Fields.isMessage = [] := by
  cases e with
  | completed => cases verbose <;> simp [Ending.entries, isMessage_stage]
  | failed s => simp [Ending.entries, isMessage_fault (CallLog.eventName?_faultFields s)]

end Call

-- The first entries of a span that are messages: a single request.
theorem StartedCall.filter_openingEntries {M : Type} [Payload M] (log : CallLog)
    (setup : Option Error) (message : Option M) :
    (openingEntries log setup message).filter Fields.isMessage =
      message.toList.map fun m => (Passage.request m).fields log.logPayloads := by
  have hsetup : (setup.toList.map CallLog.setupFields).filter Fields.isMessage = [] := by
    cases setup with
    | none => rfl
    | some e => simp [Call.isMessage_fault (CallLog.eventName?_setupFields e)]
  unfold openingEntries
  rw [List.filter_append, List.filter_append, hsetup, Call.filter_stageEntries]
  cases message with
  | none => rfl
  | some m => simp [Call.messageFields_request, Call.isMessage_fields]

/--
The message entries of a span are the single request of its call and then, in their order, the
messages that its parties send through it up to the end of the span.
-/
theorem messages_of_call {M : Type} [Payload M] (o : CallStart M) {events : List (CallEvent M)}
    (legal : o.started.call.Legal events) :
    ∃ record, (o.after events).records[o.started.span]? = some record ∧
      record.logs.filter Fields.isMessage =
        (o.message.toList.map Passage.request ++
          Call.passages o.ctx.kind [] (o.started.call.untilFinished events)).map
            (Passage.fields o.config.logPayloads) := by
  refine ⟨_, o.record_after events, ?_⟩
  rw [o.replay_run]
  have hkind : o.started.call.kind = o.ctx.kind := by rw [o.call_started]; rfl
  have hpayloads : o.started.call.log.logPayloads = o.config.logPayloads := by
    rw [o.call_started]
    rfl
  have hfollows : o.started.call.Follows ([] : List (CallEvent M)) := by
    rw [o.call_started]
    exact Call.follows_ofLog _ _ _
  have hentries := Call.filter_entries o.sound_started hfollows legal
  rw [hkind, hpayloads] at hentries
  have hending : (((o.started.call.ending events).map
      (Ending.entries o.started.call.log.verbose)).getD []).filter Fields.isMessage = [] := by
    cases o.started.call.ending events with
    | none => rfl
    | some v => exact Call.filter_ending _ v
  simp only [List.filter_append, StartedCall.filter_openingEntries, hentries, hending, hpayloads,
    List.append_nil, List.map_append, List.map_map]
  rfl

-- A handler that reads on after a fault of its request stream, then answers and ends.
theorem messages_of_handler :
    let o : CallStart Message :=
      { recorder := { ids := .odd 0 0 }, config := {}, active := none
        ctx := .server { method := "/chat" }, type := .bidiStreaming, metadata := .empty
        message := none }
    let events : List (CallEvent Message) :=
      [.requestPolled (.item (.ok (.text "a"))), .requestPolled (.item (.error (.cancelled "b"))),
        .requestPolled (.item (.ok (.text "c"))), .responseWritten (.write (.text "d")),
        .resolved .done]
    o.started.call.Legal events ∧
      ∃ record, (o.after events).records[o.started.span]? = some record ∧
        record.logs.filter Fields.isMessage =
          [Passage.request (.text "a"), .response (.text "d")].map
            (Passage.fields (M := Message) true) := by
  intro o events
  have legal : o.started.call.Legal events := ⟨rfl, rfl, rfl, rfl, rfl, trivial⟩
  exact ⟨legal, messages_of_call o legal⟩

end CallTrace
