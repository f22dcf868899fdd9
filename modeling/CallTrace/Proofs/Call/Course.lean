import CallTrace.Call.Start
import CallTrace.Proofs.Effects

/-!
# The course of a call

What one step of a call can do, and what that makes of a whole run.  As long as the span is open a
step logs some entries and perhaps ends the span; once the span has ended no step does anything
more.  All later facts about calls go through `step_of_open` and `step_of_finished`.
-/

namespace CallTrace

inductive Ending
  | completed
  | failed (s : Status)
deriving DecidableEq, Repr

/-! ## Names of entries -/

namespace Fields

theorem eventName?_add {f : Fields} {name : String} (h : f.eventName? = some name) (key : String)
    (value : TagValue) : (f.add key value).eventName? = some name := by
  unfold eventName? at h ⊢
  rw [get?_add]
  cases hg : f.get? TagKey.event with
  | none => simp [hg] at h
  | some v => simpa [hg] using h

end Fields

namespace CallLog

theorem eventName?_setupFields (e : Error) : (setupFields e).eventName? = some errorEvent :=
  Fields.eventName?_add (Fields.eventName?_add (Fields.eventName?_event errorEvent) _ _) _ _

theorem eventName?_faultFields (s : Status) : (faultFields s).eventName? = some errorEvent :=
  Fields.eventName?_add
    (Fields.eventName?_add (Fields.eventName?_add (Fields.eventName?_event errorEvent) _ _) _ _) _ _

theorem eventName?_messageFields {M : Type} [Payload M] (log : CallLog) (event : String) (m : M) :
    (log.messageFields event m).eventName? = some event := by
  unfold messageFields
  split
  · exact Fields.eventName?_add (Fields.eventName?_event event) _ _
  · exact Fields.eventName?_event event

end CallLog

/-! ## Ends of a log -/

namespace Ending

-- The last entries of a span that ends so.
def entries (verbose : Bool) : Ending → List Fields
  | completed => if verbose then [Fields.event Stage.callCompleted.text] else []
  | failed s => [CallLog.faultFields s]

def tags (tags : List (String × TagValue)) : Ending → List (String × TagValue)
  | completed => tags
  | failed _ => setTag TagKey.error (.bool true) tags

end Ending

namespace CallLog

/-- What a log does when it is told to end so. -/
def closing (log : CallLog) : Ending → List Effect
  | .completed => log.finish.2
  | .failed s => (log.fault s).2

-- The entries of a stage in an open log.
def stageEntries (log : CallLog) (s : Stage) : List Fields :=
  if log.verbose then [Fields.event s.text] else []

theorem finish_of_open {log : CallLog} (h : log.finished = false) :
    log.finish = ({ log with finished := true }, log.closing .completed) := by
  simp [closing, finish, h]

theorem fault_of_open {log : CallLog} (h : log.finished = false) (s : Status) :
    log.fault s = ({ log with finished := true }, log.closing (.failed s)) := by
  simp [closing, fault, h]

theorem stage_of_open {log : CallLog} (h : log.finished = false) (s : Stage) :
    log.stage s = (log.stageEntries s).map fun f => .span (.log f) := by
  cases hv : log.verbose <;> simp [stage, lifecycle, stageEntries, h, hv]

theorem stage_of_finished {log : CallLog} (h : log.finished = true) (s : Stage) :
    log.stage s = [] := by
  simp [stage, lifecycle, h]

theorem message_of_open {M : Type} [Payload M] {log : CallLog} (h : log.finished = false)
    (event : String) (m : M) : log.message event m = [.span (.log (log.messageFields event m))] := by
  simp [message, h]

theorem message_of_finished {M : Type} [Payload M] {log : CallLog} (h : log.finished = true)
    (event : String) (m : M) : log.message event m = [] := by
  simp [message, h]

-- The record of an open span after its end.
theorem replay_closing {log : CallLog} (h : log.finished = false) (e : Ending) (r : SpanRecord)
    (hr : r.finishCount = 0) :
    r.replay (log.closing e) =
      { r with
        tags := e.tags r.tags
        logs := r.logs ++ e.entries log.verbose
        finishCount := 1 } := by
  have hopen : r.finished = false := by simp [SpanRecord.finished, hr]
  cases e with
  | completed =>
    cases hv : log.verbose <;>
      simp [closing, finish, h, stage, lifecycle, hv, SpanRecord.apply, hopen, hr, Ending.tags,
        Ending.entries]
  | failed s =>
    have htag : r.apply (.tag TagKey.error (.bool true)) =
        { r with tags := setTag TagKey.error (.bool true) r.tags } := by
      simp [SpanRecord.apply, hopen]
    have hlog (t : List (String × TagValue)) : ({ r with tags := t } : SpanRecord).apply
        (.log (faultFields s)) = { r with tags := t, logs := r.logs ++ [faultFields s] } := by
      simp [SpanRecord.apply, SpanRecord.finished, hr]
    simp only [closing, fault, h, Bool.false_eq_true, if_false, SpanRecord.replay_span,
      SpanRecord.replay_report, SpanRecord.replay_nil, htag, hlog, Ending.tags, Ending.entries]
    simp [SpanRecord.apply, hr]

-- The end of an open log comes in time and reports no second end.
theorem inTime_closing {log : CallLog} (h : log.finished = false) (e : Ending) (r : SpanRecord)
    (hr : r.finishCount = 0) : r.InTime (log.closing e) ∧ Quiet (log.closing e) := by
  have hquiet : Quiet (log.closing e) := by
    intro line hline
    cases e with
    | completed =>
      rw [closing, finish, if_neg (by simp [h]), stage_of_open h] at hline
      simp only [List.mem_append, List.mem_map, List.mem_cons, reduceCtorEq, and_false,
        exists_false, false_or, List.not_mem_nil, or_false, Effect.report.injEq] at hline
      subst hline
      simp [Report.isSuppressed]
    | failed s =>
      rw [closing, fault, if_neg (by simp [h])] at hline
      simp only [List.mem_cons, reduceCtorEq, false_or, List.not_mem_nil, or_false,
        Effect.report.injEq] at hline
      subst hline
      simp [Report.isSuppressed]
  refine ⟨?_, hquiet⟩
  cases e with
  | completed =>
    rw [closing, finish, if_neg (by simp [h]), stage_of_open h, SpanRecord.inTime_append,
      SpanRecord.replay_entries r _ hr]
    exact ⟨(inTime_entries hr _).1, hr, trivial⟩
  | failed s =>
    rw [closing, fault, if_neg (by simp [h])]
    refine ⟨hr, ?_, ?_, trivial⟩ <;> simp [SpanRecord.apply, SpanRecord.finished, hr]

end CallLog

namespace Call

variable {M : Type} [Payload M]

/-! ## Sound calls -/

/-- The response watch of a client that has given neither an end nor a fault yet. -/
def freshReader : ReaderWatch := { onMessage := true, onEnd := true, onFault := true }

/-- How the watches of a call are set, and when they are there. -/
structure Wired (c : Call) : Prop where
  open_of_running : c.running = true → c.log.finished = false
  sender : ∀ w, c.requests = some (.sender w) → c.kind = .client ∧ w.onWrite = true
  inbound : ∀ w, c.requests = some (.reader w) →
    c.kind = .server ∧ w.onMessage = true ∧ w.onFault = false
  writer : ∀ w, c.responses = some (.writer w) → c.kind = .server ∧ w.onWrite = true
  -- The reader of the responses is done exactly when the span has ended.
  reader : ∀ w, c.responses = some (.reader w) → c.running = false ∧
    (w = freshReader ∧ c.log.finished = false ∨ w = freshReader.terminate ∧ c.log.finished = true)

/-- What holds of a call between any two of its steps. -/
structure Sound (c : Call) : Prop extends Wired c where
  finished_of_released : c.held = false → c.log.finished = true

theorem sound_ofLog (kind : SpanKind) (method : MethodType) {log : CallLog}
    (h : log.finished = false) : (ofLog kind method log).Sound where
  open_of_running _ := h
  finished_of_released hr := by simp [held, ofLog] at hr
  sender w hw := by
    cases kind <;> cases hm : method.streamsRequests <;>
      simp [ofLog, hm, outboundRequests, inboundRequests] at hw
    exact ⟨rfl, by rw [← hw]⟩
  inbound w hw := by
    cases kind <;> cases hm : method.streamsRequests <;>
      simp [ofLog, hm, outboundRequests, inboundRequests] at hw
    subst hw
    exact ⟨rfl, rfl, rfl⟩
  writer w hw := by
    cases kind <;> cases hm : method.streamsResponses <;>
      simp [ofLog, hm, outboundResponses] at hw
    exact ⟨rfl, by rw [← hw]⟩
  reader w hw := by
    cases kind <;> cases hm : method.streamsResponses <;>
      simp [ofLog, hm, outboundResponses] at hw

/-! ## What a step does -/

/-- What a step logs as long as the span is open. -/
def logged (c : Call) : CallEvent M → List Fields
  | .requestPolled answer =>
    match c.requests, answer with
    | some (.sender _), .item (.ok m) => [c.log.messageFields requestEvent m]
    | some (.sender w), .ended =>
      if w.onComplete then c.log.stageEntries .requestStreamCompleted else []
    | some (.reader w), .item (.ok m) =>
      if w.terminated then [] else [c.log.messageFields requestEvent m]
    | some (.reader w), .ended =>
      if w.terminated then []
      else if w.onEnd then c.log.stageEntries .requestStreamCompleted else []
    | _, _ => []
  | .responsePolled answer =>
    match c.responses, answer with
    | some (.reader _), .item (.ok m) => [c.log.messageFields responseEvent m]
    | some (.reader _), .ended => c.log.stageEntries .responseStreamCompleted
    | _, _ => []
  | .responseWritten op =>
    match c.responses, op with
    | some (.writer _), .write m => [c.log.messageFields responseEvent m]
    | some (.writer w), .complete =>
      if w.onComplete then c.log.stageEntries .responseStreamCompleted else []
    | _, _ => []
  | .resolved (.reply m) => if c.running then [c.log.messageFields responseEvent m] else []
  | _ => []

/-- What the call comes to when one of its parties goes. -/
def left (c : Call) : Option Ending :=
  if c.held then none else some (.failed CallLog.abandonedStatus)

/-- How a step ends the span, if it does, as long as the span is open. -/
def ended (c : Call) : CallEvent M → Option Ending
  | .responsePolled answer =>
    match c.responses, answer with
    | some (.reader _), .ended => some .completed
    | some (.reader _), .item (.error s) => some (.failed s)
    | _, _ => none
  | .resolved outcome =>
    if c.running then
      match outcome with
      | .reply _ | .done => some .completed
      | .fault s => some (.failed s)
      | .stream => none
    else none
  | .requestsDropped => ({ c with requests := none } : Call).left
  | .responsesDropped => ({ c with responses := none } : Call).left
  | .abandoned => ({ c with running := false } : Call).left
  | _ => none

/-- The effects of a step on an open span: its entries, then its end. -/
def effectsOf (c : Call) (e : CallEvent M) : List Effect :=
  (c.logged e).map (fun f => .span (.log f)) ++ ((c.ended e).map c.log.closing).getD []

theorem release_of_open {c : Call} (h : c.log.finished = false) :
    c.release = ({ c with log := { c.log with finished := c.left.isSome } },
      (c.left.map c.log.closing).getD []) := by
  unfold release left
  cases hh : c.held with
  | true =>
    have : ({ c.log with finished := false } : CallLog) = c.log := by rw [← h]
    simp [this]
  | false => simp [CallLog.drop, h, CallLog.fault_of_open h]

theorem release_of_finished {c : Call} (h : c.log.finished = true) : c.release = (c, []) := by
  unfold release
  split
  · rfl
  · simp [CallLog.drop, h]

theorem finish_of_open {c : Call} (h : c.log.finished = false) :
    c.finish = ({ c with log := { c.log with finished := true } }, c.log.closing .completed) := by
  simp [finish, CallLog.finish_of_open h]

theorem fault_of_open {c : Call} (h : c.log.finished = false) (s : Status) :
    c.fault s = ({ c with log := { c.log with finished := true } }, c.log.closing (.failed s)) := by
  simp [fault, CallLog.fault_of_open h]

omit [Payload M] in
private theorem log_of_open {c : Call} (h : c.log.finished = false) :
    ({ c.log with finished := false } : CallLog) = c.log := by
  rw [← h]

theorem requestPolled_of_open {c : Call} (hs : c.Sound) (h : c.log.finished = false)
    (answer : Polled (Delivery M)) :
    (c.requestPolled answer).2 = c.effectsOf (.requestPolled answer) ∧
      (c.requestPolled answer).1.log = c.log := by
  unfold requestPolled effectsOf
  cases hr : c.requests with
  | none => simp [logged, ended, hr]
  | some watch =>
    cases watch with
    | sender w =>
      have hw := (hs.sender w hr).2
      rcases answer with _ | (s | m) | _
      · simp [logged, ended, hr]
      · simp [logged, ended, hr]
      · simp [logged, ended, hr, hw, CallLog.request, CallLog.message_of_open h]
      · cases hc : w.onComplete <;>
          simp [logged, ended, hr, hc, CallLog.stage_of_open h]
    | reader w =>
      obtain ⟨-, hm, hf⟩ := hs.inbound w hr
      cases ht : w.terminated with
      | true => rcases answer with _ | (s | m) | _ <;> simp [ReaderWatch.react, logged, ended, hr, ht]
      | false =>
        rcases answer with _ | (s | m) | _
        · simp [ReaderWatch.react, logged, ended, hr, ht]
        · simp [ReaderWatch.react, logged, ended, hr, ht, hf]
        · simp [ReaderWatch.react, logged, ended, hr, ht, hm, CallLog.request,
            CallLog.message_of_open h]
        · cases hc : w.onEnd <;>
            simp [ReaderWatch.react, logged, ended, hr, ht, hc, CallLog.stage_of_open h]

theorem responsePolled_of_open {c : Call} (hs : c.Sound) (h : c.log.finished = false)
    (answer : Polled (Delivery M)) :
    (c.responsePolled answer).2 = c.effectsOf (.responsePolled answer) ∧
      (c.responsePolled answer).1.log =
        { c.log with finished := (c.ended (.responsePolled answer)).isSome } := by
  have hlog := log_of_open h
  unfold responsePolled effectsOf
  cases hr : c.responses with
  | none => simp [logged, ended, hr, hlog]
  | some watch =>
    cases watch with
    | writer w => simp [logged, ended, hr, hlog]
    | reader w =>
      -- The span is open, so the reader has seen neither an end nor a fault.
      obtain ⟨-, ⟨rfl, -⟩ | ⟨-, hf⟩⟩ := hs.reader w hr
      · rcases answer with _ | (s | m) | _
        · simp [ReaderWatch.react, freshReader, logged, ended, hr, hlog]
        · simp [ReaderWatch.react, freshReader, logged, ended, hr, fault_of_open, h]
        · simp [ReaderWatch.react, freshReader, logged, ended, hr, hlog, CallLog.response,
            CallLog.message_of_open h]
        · simp [ReaderWatch.react, freshReader, logged, ended, hr, finish_of_open, h,
            CallLog.stage_of_open h]
      · rw [h] at hf
        cases hf

theorem responseWritten_of_open {c : Call} (hs : c.Sound) (h : c.log.finished = false)
    (op : SinkOp M) :
    (c.responseWritten op).2 = c.effectsOf (.responseWritten op) ∧
      (c.responseWritten op).1.log = c.log := by
  unfold responseWritten effectsOf
  cases hr : c.responses with
  | none => simp [logged, ended, hr]
  | some watch =>
    cases watch with
    | reader w => simp [logged, ended, hr]
    | writer w =>
      have hw := (hs.writer w hr).2
      cases op with
      | write m =>
        simp [logged, ended, hr, hw, CallLog.response, CallLog.message_of_open h]
      | complete =>
        cases hc : w.onComplete <;>
          simp [logged, ended, hr, hc, CallLog.stage_of_open h]

-- Whatever is left of a party, the log is as before or has ended.
theorem release_step {c d : Call} (h : c.log.finished = false) (hc : d.log = c.log) :
    d.release.2 = (d.left.map c.log.closing).getD [] ∧
      d.release.1.log = { c.log with finished := d.left.isSome } := by
  rw [release_of_open (by rw [hc, h]), hc]
  exact ⟨rfl, rfl⟩

theorem resolved_of_open {c : Call} (h : c.log.finished = false) (outcome : Outcome M) :
    (c.step (.resolved outcome)).2 = c.effectsOf (.resolved outcome) ∧
      (c.step (.resolved outcome)).1.log =
        { c.log with finished := (c.ended (.resolved outcome)).isSome } := by
  unfold step effectsOf
  cases hrun : c.running with
  | false => cases outcome <;> simp [logged, ended, hrun, log_of_open h]
  | true =>
    cases outcome with
    | reply m =>
      simp [settle, finish_of_open h, logged, ended, hrun, release_of_finished, CallLog.response,
        CallLog.message_of_open h]
    | done => simp [settle, finish_of_open h, logged, ended, hrun, release_of_finished]
    | fault s => simp [settle, fault_of_open h, logged, ended, hrun, release_of_finished]
    | stream => simp [settle, logged, ended, hrun, release, held, inboundResponses, log_of_open h]

theorem step_of_open {c : Call} (hs : c.Sound) (h : c.log.finished = false) (e : CallEvent M) :
    (c.step e).2 = c.effectsOf e ∧
      (c.step e).1.log = { c.log with finished := (c.ended e).isSome } := by
  have hlog := log_of_open h
  cases e with
  | requestPolled answer =>
    obtain ⟨he, hl⟩ := requestPolled_of_open hs h answer
    exact ⟨he, hl.trans hlog.symm⟩
  | responsePolled answer => exact responsePolled_of_open hs h answer
  | responseWritten op =>
    obtain ⟨he, hl⟩ := responseWritten_of_open hs h op
    exact ⟨he, hl.trans hlog.symm⟩
  | requestsDropped => exact release_step (d := { c with requests := none }) h rfl
  | responsesDropped => exact release_step (d := { c with responses := none }) h rfl
  | resolved outcome => exact resolved_of_open h outcome
  | abandoned => exact release_step (d := { c with running := false }) h rfl

theorem requestPolled_of_finished {c : Call} (h : c.log.finished = true)
    (answer : Polled (Delivery M)) :
    (c.step (.requestPolled answer)).2 = [] ∧ (c.step (.requestPolled answer)).1.log = c.log := by
  simp only [step, requestPolled]
  cases hr : c.requests with
  | none => exact ⟨rfl, rfl⟩
  | some watch =>
    cases watch with
    | sender w =>
      rcases answer with _ | (s | m) | _
      · simp
      · simp
      · cases hw : w.onWrite <;> simp [hw, CallLog.request, CallLog.message_of_finished h]
      · cases hc : w.onComplete <;> simp [hc, CallLog.stage_of_finished h]
    | reader w =>
      cases ht : w.terminated <;> simp only [ReaderWatch.react, ht]
      · rcases answer with _ | (s | m) | _
        · simp
        · cases w.onFault <;> simp
        · cases w.onMessage <;> simp [CallLog.request, CallLog.message_of_finished h]
        · cases w.onEnd <;> simp [CallLog.stage_of_finished h]
      · exact ⟨rfl, rfl⟩

-- The reader of a span that has ended is done.
theorem responsePolled_of_finished {c : Call} (hs : c.Sound) (h : c.log.finished = true)
    (answer : Polled (Delivery M)) :
    (c.step (.responsePolled answer)).2 = [] ∧
      (c.step (.responsePolled answer)).1.log = c.log := by
  simp only [step, responsePolled]
  cases hr : c.responses with
  | none => exact ⟨rfl, rfl⟩
  | some watch =>
    cases watch with
    | writer w => exact ⟨rfl, rfl⟩
    | reader w =>
      obtain ⟨-, ⟨-, hf⟩ | ⟨rfl, -⟩⟩ := hs.reader w hr
      · rw [h] at hf
        cases hf
      · exact ⟨rfl, rfl⟩

theorem responseWritten_of_finished {c : Call} (hs : c.Sound) (h : c.log.finished = true)
    (op : SinkOp M) :
    (c.step (.responseWritten op)).2 = [] ∧ (c.step (.responseWritten op)).1.log = c.log := by
  simp only [step, responseWritten]
  cases hr : c.responses with
  | none => exact ⟨rfl, rfl⟩
  | some watch =>
    cases watch with
    | reader w => exact ⟨rfl, rfl⟩
    | writer w =>
      cases op with
      | write m =>
        simp [(hs.writer w hr).2, CallLog.response,
          CallLog.message_of_finished h]
      | complete =>
        cases hc : w.onComplete <;> simp [hc, CallLog.stage_of_finished h]

-- Nothing is done to a span that has ended.
theorem step_of_finished {c : Call} (hs : c.Sound) (h : c.log.finished = true)
    (e : CallEvent M) : (c.step e).2 = [] ∧ (c.step e).1.log = c.log := by
  have hrun : c.running = false := by
    cases hr : c.running with
    | false => rfl
    | true => rw [hs.open_of_running hr] at h; cases h
  cases e with
  | requestPolled answer => exact requestPolled_of_finished h answer
  | responsePolled answer => exact responsePolled_of_finished hs h answer
  | responseWritten op => exact responseWritten_of_finished hs h op
  | requestsDropped => simp [step, release_of_finished (c := { c with requests := none }) h]
  | responsesDropped => simp [step, release_of_finished (c := { c with responses := none }) h]
  | resolved outcome => simp [step, hrun]
  | abandoned => simp [step, release_of_finished (c := { c with running := false }) h]

-- A step does nothing to a span that has ended, and does not end one again.
theorem inTime_step {c : Call} (hs : c.Sound) (e : CallEvent M) {r : SpanRecord}
    (hr : c.log.finished = false → r.finishCount = 0) :
    r.InTime (c.step e).2 ∧ Quiet (c.step e).2 := by
  cases h : c.log.finished with
  | true =>
    rw [(step_of_finished hs h e).1]
    exact ⟨trivial, fun line hline => by cases hline⟩
  | false =>
    have hcount := hr h
    rw [(step_of_open hs h e).1, effectsOf]
    obtain ⟨hentries, hquiet⟩ := inTime_entries hcount (c.logged e)
    cases c.ended e with
    | none =>
      simp only [Option.map_none, Option.getD_none, List.append_nil]
      exact ⟨hentries, hquiet⟩
    | some v =>
      simp only [Option.map_some, Option.getD_some]
      obtain ⟨hclosing, hlast⟩ := CallLog.inTime_closing h v
        { r with logs := r.logs ++ c.logged e } hcount
      rw [SpanRecord.inTime_append, SpanRecord.replay_entries r _ hcount]
      exact ⟨⟨hentries, hclosing⟩, quiet_append hquiet hlast⟩

/-! ## What a step leaves alone -/

-- The watch of the requests after a poll.
def RequestWatch.next (answer : Polled (Delivery M)) : RequestWatch → RequestWatch
  | .sender w =>
    .sender (w.react (match answer with
      | .item (.ok m) => .item m
      | .ended => .ended
      | .item (.error _) | .pending => .pending)).1
  | .reader w => .reader (w.react answer).1

theorem requestPolled_fst (c : Call) (answer : Polled (Delivery M)) :
    (c.requestPolled answer).1 =
      { c with requests := c.requests.map (RequestWatch.next answer) } := by
  unfold requestPolled
  cases hr : c.requests with
  | none => simp only [Option.map_none]; rw [← hr]
  | some watch =>
    cases watch with
    | sender w => simp only [Option.map_some, RequestWatch.next]; split <;> rfl
    | reader w => simp only [Option.map_some, RequestWatch.next]; split <;> rfl

theorem responseWritten_fst (c : Call) (op : SinkOp M) :
    (c.responseWritten op).1 =
      { c with
        responses := match c.responses with
          | some (.writer w) => some (.writer (w.hear op.event).1)
          | other => other } := by
  unfold responseWritten
  cases hr : c.responses with
  | none => simp [← hr]
  | some watch =>
    cases watch with
    | writer w => dsimp only; split <;> rfl
    | reader w => simp [← hr]

-- A poll of the responses changes their watch and may end the log.
theorem responsePolled_fst (c : Call) (answer : Polled (Delivery M)) :
    (c.responsePolled answer).1 =
      { c with
        log := (c.responsePolled answer).1.log
        responses := match c.responses with
          | some (.reader w) => some (.reader (w.react answer).1)
          | other => other } := by
  unfold responsePolled
  cases hr : c.responses with
  | none => simp [← hr]
  | some watch =>
    cases watch with
    | writer w => simp [← hr]
    | reader w => dsimp only; split <;> rfl

-- The party that goes is all that a call loses.
theorem release_fst (c : Call) : c.release.1 = { c with log := c.release.1.log } := by
  unfold release
  split <;> rfl

theorem resolved_fst {c : Call} (h : c.running = true) (outcome : Outcome M) :
    (c.step (.resolved outcome)).1 =
      { c with
        log := (c.step (.resolved outcome)).1.log
        running := false
        responses := match outcome with
          | .stream => some inboundResponses
          | _ => c.responses } := by
  cases outcome <;> simp only [step, h, if_true, settle, finish, fault] <;> rw [release_fst]

-- No step changes what kind of call it is.
theorem shape_step (c : Call) (e : CallEvent M) :
    (c.step e).1.kind = c.kind ∧ (c.step e).1.method = c.method := by
  cases e with
  | requestPolled answer => simp [step, requestPolled_fst]
  | responsePolled answer => simp only [step]; rw [responsePolled_fst]; exact ⟨rfl, rfl⟩
  | responseWritten op => simp [step, responseWritten_fst]
  | requestsDropped => simp only [step]; rw [release_fst]; exact ⟨rfl, rfl⟩
  | responsesDropped => simp only [step]; rw [release_fst]; exact ⟨rfl, rfl⟩
  | abandoned => simp only [step]; rw [release_fst]; exact ⟨rfl, rfl⟩
  | resolved outcome =>
    cases h : c.running with
    | true => rw [resolved_fst h]; exact ⟨rfl, rfl⟩
    | false => simp [step, h]

@[simp] theorem kind_step (c : Call) (e : CallEvent M) : (c.step e).1.kind = c.kind :=
  (shape_step c e).1

-- A call whose continuation is gone stays so, and is given no reader any more.
theorem running_step {c : Call} (h : c.running = false) (e : CallEvent M) :
    (c.step e).1.running = false := by
  cases e with
  | requestPolled answer => simpa [step, requestPolled_fst] using h
  | responsePolled answer => simp only [step]; rw [responsePolled_fst]; exact h
  | responseWritten op => simpa [step, responseWritten_fst] using h
  | requestsDropped => simp only [step]; rw [release_fst]; exact h
  | responsesDropped => simp only [step]; rw [release_fst]; exact h
  | abandoned => simp only [step]; rw [release_fst]
  | resolved outcome => simp [step, h]

theorem reader_step {c : Call} (h : c.running = false) {e : CallEvent M} {w : ReaderWatch}
    (hw : (c.step e).1.responses = some (.reader w)) :
    ∃ w', c.responses = some (.reader w') := by
  cases e with
  | requestPolled answer => exact ⟨w, by simpa [step, requestPolled_fst] using hw⟩
  | responsePolled answer =>
    simp only [step] at hw
    rw [responsePolled_fst] at hw
    cases hr : c.responses with
    | none => simp [hr] at hw
    | some watch => cases watch <;> simp_all
  | responseWritten op =>
    simp only [step, responseWritten_fst] at hw
    cases hr : c.responses with
    | none => simp [hr] at hw
    | some watch => cases watch <;> simp_all
  | requestsDropped =>
    simp only [step] at hw
    rw [release_fst] at hw
    exact ⟨w, hw⟩
  | responsesDropped =>
    simp only [step] at hw
    rw [release_fst] at hw
    cases hw
  | abandoned =>
    simp only [step] at hw
    rw [release_fst] at hw
    exact ⟨w, hw⟩
  | resolved outcome => exact ⟨w, by simpa [step, h] using hw⟩

/-! ## Sound calls stay sound -/

omit [Payload M] in
theorem onWrite_hear (w : WriterWatch) (e : WriteEvent M) : (w.hear e).1.onWrite = w.onWrite := by
  cases e <;> rfl

omit [Payload M] in
theorem onWrite_react (w : WriterWatch) (answer : Polled M) :
    (w.react answer).1.onWrite = w.onWrite := by
  cases answer <;> rfl

omit [Payload M] in
theorem react_reader (w : ReaderWatch) (answer : Polled (Delivery M)) :
    (w.react answer).1 = w ∨ (w.react answer).1 = w.terminate := by
  cases ht : w.terminated with
  | true => exact .inl (by simp [ReaderWatch.react, ht])
  | false =>
    rcases answer with _ | (s | m) | _
    · exact .inl (by simp [ReaderWatch.react, ht])
    · exact .inr (by simp [ReaderWatch.react, ht])
    · exact .inl (by simp [ReaderWatch.react, ht])
    · exact .inr (by simp [ReaderWatch.react, ht])

-- The watch of the requests may change as long as it stays one of its kind.
theorem Sound.withRequests {c : Call} (hs : c.Sound) {watch : RequestWatch}
    (hsender : ∀ w, watch = .sender w → c.kind = .client ∧ w.onWrite = true)
    (hreader : ∀ w, watch = .reader w →
      c.kind = .server ∧ w.onMessage = true ∧ w.onFault = false) :
    ({ c with requests := some watch } : Call).Sound where
  open_of_running := hs.open_of_running
  finished_of_released h := by simp [held] at h
  sender w hw := hsender w (Option.some.inj hw)
  inbound w hw := hreader w (Option.some.inj hw)
  writer := hs.writer
  reader := hs.reader

theorem sound_requestPolled {c : Call} (hs : c.Sound) (answer : Polled (Delivery M)) :
    (c.requestPolled answer).1.Sound := by
  unfold requestPolled
  cases hr : c.requests with
  | none => exact hs
  | some watch =>
    cases watch with
    | sender w =>
      obtain ⟨hk, hw⟩ := hs.sender w hr
      have key (a : Polled M) : ({ c with requests := some (.sender (w.react a).1) } : Call).Sound :=
        hs.withRequests (fun w' h => by cases h; exact ⟨hk, (onWrite_react w a).trans hw⟩)
          (fun w' h => by cases h)
      rcases answer with _ | (s | m) | _
      · exact key .pending
      · exact key .pending
      · have := key (.item m)
        cases hw' : w.onWrite <;> simpa [hw'] using this
      · have := key .ended
        cases hc : w.onComplete <;> simpa [hc] using this
    | reader w =>
      obtain ⟨hk, hm, hf⟩ := hs.inbound w hr
      have key : ({ c with requests := some (.reader (w.react answer).1) } : Call).Sound := by
        refine hs.withRequests (fun w' h => by cases h) fun w' h => ?_
        cases h
        rcases react_reader w answer with he | he <;> rw [he]
        · exact ⟨hk, hm, hf⟩
        · exact ⟨hk, hm, rfl⟩
      dsimp only
      split <;> exact key

theorem sound_responsePolled {c : Call} (hs : c.Sound) (answer : Polled (Delivery M)) :
    (c.responsePolled answer).1.Sound := by
  unfold responsePolled
  cases hr : c.responses with
  | none => exact hs
  | some watch =>
    cases watch with
    | writer w => exact hs
    | reader w =>
      obtain ⟨hrun, hw⟩ := hs.reader w hr
      -- After an end or a fault the reader is done and so is the span.
      have key (w' : ReaderWatch) (log : CallLog)
          (h : w' = freshReader ∧ log.finished = false ∨
            w' = freshReader.terminate ∧ log.finished = true) :
          ({ c with responses := some (.reader w'), log } : Call).Sound :=
        { open_of_running := fun h' => by rw [hrun] at h'; cases h'
          finished_of_released := fun h' => by simp [held] at h'
          sender := hs.sender
          inbound := hs.inbound
          writer := fun _ h' => by cases h'
          reader := fun _ h' => by cases h'; exact ⟨hrun, h⟩ }
      obtain ⟨rfl, hf⟩ | ⟨rfl, hf⟩ := hw
      · rcases answer with _ | (s | m) | _
        · exact key freshReader c.log (.inl ⟨rfl, hf⟩)
        · exact key freshReader.terminate (c.log.fault s).1 (.inr ⟨rfl, CallLog.finished_fault _ s⟩)
        · exact key freshReader c.log (.inl ⟨rfl, hf⟩)
        · exact key freshReader.terminate c.log.finish.1 (.inr ⟨rfl, CallLog.finished_finish _⟩)
      · exact key freshReader.terminate c.log (.inr ⟨rfl, hf⟩)

theorem sound_responseWritten {c : Call} (hs : c.Sound) (op : SinkOp M) :
    (c.responseWritten op).1.Sound := by
  unfold responseWritten
  cases hr : c.responses with
  | none => exact hs
  | some watch =>
    cases watch with
    | reader w => exact hs
    | writer w =>
      have key : ({ c with responses := some (.writer (w.hear op.event).1) } : Call).Sound :=
        { open_of_running := hs.open_of_running
          finished_of_released := fun h => by simp [held] at h
          sender := hs.sender
          inbound := hs.inbound
          writer := fun _ h => by
            cases h
            obtain ⟨hk, hw⟩ := hs.writer w hr
            exact ⟨hk, (onWrite_hear w op.event).trans hw⟩
          reader := fun _ h => by cases h }
      dsimp only
      split <;> exact key

-- A party that goes leaves a sound call.
theorem Wired.sound_release {c : Call} (hw : c.Wired) : c.release.1.Sound := by
  unfold release
  cases hh : c.held with
  | true => exact { hw with finished_of_released := fun h => by simp [hh] at h }
  | false =>
    have hrun : c.running = false := by simp_all [held]
    have hresp : c.responses = none := by simp_all [held]
    exact
      { open_of_running := fun h => by rw [hrun] at h; cases h
        finished_of_released := fun _ => CallLog.finished_drop c.log
        sender := hw.sender
        inbound := hw.inbound
        writer := hw.writer
        reader := fun w h => by rw [hresp] at h; cases h }

theorem sound_resolved {c : Call} (hs : c.Sound) (outcome : Outcome M) :
    (c.step (.resolved outcome)).1.Sound := by
  unfold step
  cases hrun : c.running with
  | false => exact hs
  | true =>
    have hopen := hs.open_of_running hrun
    -- No reader was there before, and the writer may stay with whoever keeps it.
    have hnone (w : ReaderWatch) (h : c.responses = some (.reader w)) : False := by
      have := (hs.reader w h).1
      rw [hrun] at this
      cases this
    have key (log : CallLog) : ({ c with log, running := false } : Call).release.1.Sound :=
      Wired.sound_release
        { open_of_running := fun h => by cases h
          sender := hs.sender
          inbound := hs.inbound
          writer := hs.writer
          reader := fun w h => (hnone w h).elim }
    cases outcome with
    | reply m => exact key c.log.finish.1
    | done => exact key c.log.finish.1
    | fault s => exact key (c.log.fault s).1
    | stream =>
      exact Wired.sound_release (c := { c with responses := some inboundResponses, running := false })
        { open_of_running := fun h => by cases h
          sender := hs.sender
          inbound := hs.inbound
          writer := fun w h => by cases h
          reader := fun w h => by cases h; exact ⟨rfl, .inl ⟨rfl, hopen⟩⟩ }

theorem sound_step {c : Call} (hs : c.Sound) (e : CallEvent M) : (c.step e).1.Sound := by
  cases e with
  | requestPolled answer => exact sound_requestPolled hs answer
  | responsePolled answer => exact sound_responsePolled hs answer
  | responseWritten op => exact sound_responseWritten hs op
  | resolved outcome => exact sound_resolved hs outcome
  | requestsDropped =>
    exact Wired.sound_release (c := { c with requests := none })
      { hs.toWired with
        sender := fun w h => by cases h
        inbound := fun w h => by cases h }
  | responsesDropped =>
    exact Wired.sound_release (c := { c with responses := none })
      { hs.toWired with
        writer := fun w h => by cases h
        reader := fun w h => by cases h }
  | abandoned =>
    exact Wired.sound_release (c := { c with running := false })
      { hs.toWired with
        open_of_running := fun h => by cases h
        reader := fun w h => ⟨rfl, (hs.reader w h).2⟩ }

/-! ## Runs -/

/-- The entries of a run up to the end of the span. -/
def entries (c : Call) : List (CallEvent M) → List Fields
  | [] => []
  | e :: es => if c.log.finished then [] else c.logged e ++ (c.step e).1.entries es

-- How a run ends the span, if it does.
def ending (c : Call) : List (CallEvent M) → Option Ending
  | [] => none
  | e :: es => if c.log.finished then none else (c.ended e).or ((c.step e).1.ending es)

theorem sound_run {c : Call} (hs : c.Sound) (events : List (CallEvent M)) :
    (c.run events).1.Sound := by
  induction events generalizing c with
  | nil => exact hs
  | cons e es ih => exact ih (sound_step hs e)

theorem run_of_finished {c : Call} (hs : c.Sound) (h : c.log.finished = true)
    (events : List (CallEvent M)) : (c.run events).2 = [] ∧ (c.run events).1.log = c.log := by
  induction events generalizing c with
  | nil => exact ⟨rfl, rfl⟩
  | cons e es ih =>
    obtain ⟨heffects, hlog⟩ := step_of_finished hs h e
    obtain ⟨hrest, hlast⟩ := ih (sound_step hs e) (by rw [hlog, h])
    simp only [run]
    exact ⟨by rw [heffects, hrest]; rfl, hlast.trans hlog⟩

/-- A run on an open span logs its entries and then ends the span, or leaves it open. -/
theorem run_of_open {c : Call} (hs : c.Sound) (h : c.log.finished = false)
    (events : List (CallEvent M)) :
    (c.run events).2 = (c.entries events).map (fun f => .span (.log f)) ++
        ((c.ending events).map c.log.closing).getD [] ∧
      (c.run events).1.log = { c.log with finished := (c.ending events).isSome } := by
  induction events generalizing c with
  | nil => exact ⟨rfl, (log_of_open h).symm⟩
  | cons e es ih =>
    obtain ⟨heffects, hlog⟩ := step_of_open hs h e
    have hs' := sound_step hs e
    simp only [run, entries, ending, h, Bool.false_eq_true, if_false]
    rw [heffects, effectsOf]
    cases he : c.ended e with
    | some v =>
      -- The span ends here, and nothing comes after.
      have hf : (c.step e).1.log.finished = true := by rw [hlog, he]; rfl
      obtain ⟨hrest, hlast⟩ := run_of_finished hs' hf es
      have hnone : (c.step e).1.entries es = [] := by
        cases es with
        | nil => rfl
        | cons => simp [entries, hf]
      rw [hrest, hlast, hnone, hlog, he]
      simp
    | none =>
      have hsame : (c.step e).1.log = c.log := by
        rw [hlog, he]
        exact log_of_open h
      obtain ⟨hrest, hlast⟩ := ih hs' (by rw [hsame, h])
      rw [hrest, hlast, hsame]
      simp

-- The span has ended exactly when the run ends it.
theorem finished_run {c : Call} (hs : c.Sound) (h : c.log.finished = false)
    (events : List (CallEvent M)) :
    (c.run events).1.log.finished = (c.ending events).isSome := by
  rw [(run_of_open hs h events).2]

-- The record of an open span after a run.
theorem replay_run {c : Call} (hs : c.Sound) (h : c.log.finished = false)
    (events : List (CallEvent M)) (r : SpanRecord) (hr : r.finishCount = 0) :
    r.replay (c.run events).2 =
      { r with
        tags := ((c.ending events).map (Ending.tags r.tags)).getD r.tags
        logs := r.logs ++ c.entries events ++
          ((c.ending events).map (Ending.entries c.log.verbose)).getD []
        finishCount := if (c.ending events).isSome then 1 else 0 } := by
  rw [(run_of_open hs h events).1, SpanRecord.replay_append, SpanRecord.replay_entries r _ hr]
  cases c.ending events with
  | none => simp [hr]
  | some v =>
    have := CallLog.replay_closing h v { r with logs := r.logs ++ c.entries events } hr
    simpa using this

/-! ## Legal runs -/

-- Whether the party of a step is there.
def permits (c : Call) : CallEvent M → Bool
  | .requestPolled _ | .requestsDropped => c.requests.isSome
  | .responsePolled _ => match c.responses with | some (.reader _) => true | _ => false
  | .responseWritten _ => match c.responses with | some (.writer _) => true | _ => false
  | .responsesDropped => c.responses.isSome
  | .resolved _ | .abandoned => c.running

/-- Runs in which every step is a step of a party that is there. -/
def Legal (c : Call) : List (CallEvent M) → Prop
  | [] => True
  | e :: es => c.permits e = true ∧ (c.step e).1.Legal es

theorem legal_append (c : Call) (before after : List (CallEvent M)) :
    c.Legal (before ++ after) ↔ c.Legal before ∧ (c.run before).1.Legal after := by
  induction before generalizing c with
  | nil => simp [Legal, run]
  | cons e before ih => simp only [List.cons_append, Legal, ih, run, and_assoc]

end Call

end CallTrace
