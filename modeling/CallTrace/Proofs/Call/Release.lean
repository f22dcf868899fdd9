import CallTrace.Proofs.Call.Parties
import CallTrace.Proofs.Call.Timing

/-!
# Calls whose responses are let go

What becomes of a client call when the caller lets the response stream go before its end.  The watch
on the request stream holds the log of the call as well, so the drop ends the span only if the
transport has let the requests go; otherwise the span stays open until it does.
-/

namespace CallTrace

namespace Call

variable {M : Type} [Payload M]

/-! ## Runs that return -/

-- A continuation that is gone neither returns nor is let go.
theorem silent_of_stopped {c : Call} (hrun : c.running = false) {events : List (CallEvent M)}
    (legal : c.Legal events) : .abandoned ∉ events ∧ returned? events = none := by
  induction events generalizing c with
  | nil => exact ⟨List.not_mem_nil, rfl⟩
  | cons e es ih =>
    obtain ⟨he, hes⟩ := legal
    obtain ⟨hkept, hret⟩ := ih (running_step hrun e) hes
    cases e with
    | abandoned => simp [permits, hrun] at he
    | resolved outcome => simp [permits, hrun] at he
    | _ => exact ⟨by simpa using hkept, by simpa [returned?] using hret⟩

-- A continuation that returns was not let go before.
theorem kept_of_returned {c : Call} {events : List (CallEvent M)} (legal : c.Legal events)
    {outcome : Outcome M} (h : returned? events = some outcome) : .abandoned ∉ events := by
  induction events generalizing c with
  | nil => exact List.not_mem_nil
  | cons e es ih =>
    obtain ⟨-, hes⟩ := legal
    cases e with
    | abandoned =>
      have hstop : (c.step (.abandoned : CallEvent M)).1.running = false := by
        simp only [step]
        rw [release_fst]
      have hret : returned? es = some outcome := by simpa [returned?] using h
      rw [(silent_of_stopped hstop hes).2] at hret
      cases hret
    | resolved outcome' =>
      have hstop : (c.step (.resolved outcome')).1.running = false := by
        cases hrun : c.running with
        | true => rw [resolved_fst hrun]
        | false => exact running_step hrun _
      simpa using (silent_of_stopped hstop hes).1
    | _ =>
      have hret : returned? es = some outcome := by simpa [returned?] using h
      simpa using ih hes hret

/-! ## The holder of the requests -/

theorem requests_step (c : Call) (e : CallEvent M) :
    (c.step e).1.has .requests = true ↔ c.has .requests = true ∧ e ≠ .requestsDropped := by
  cases e with
  | requestPolled answer => simp [has_requestPolled]
  | responsePolled answer => simp [has_responsePolled]
  | responseWritten op => simp [has_responseWritten]
  | requestsDropped => simp [has_requestsDropped]
  | responsesDropped => simp [has_responsesDropped]
  | abandoned => simp [has_abandoned]
  | resolved outcome =>
    cases hrun : c.running with
    | true => rw [resolved_fst hrun]; simp [has]
    | false => simp [step, hrun]

theorem requests_run (c : Call) (events : List (CallEvent M)) :
    (c.run events).1.has .requests = true ↔
      c.has .requests = true ∧ .requestsDropped ∉ events := by
  induction events generalizing c with
  | nil => simp [run]
  | cons e es ih =>
    rw [show (c.run (e :: es)).1 = ((c.step e).1.run es).1 from rfl, ih, requests_step,
      List.mem_cons, not_or, and_assoc, ne_comm]

/-- Whether nobody but the holder of the requests is left. -/
structure Deserted (c : Call) : Prop where
  stopped : c.running = false
  unheard : c.responses = none

omit [Payload M] in
theorem Deserted.held_eq {c : Call} (h : c.Deserted) : c.held = c.has .requests := by
  simp [held, has, h.stopped, h.unheard]

theorem Deserted.step {c : Call} (h : c.Deserted) (e : CallEvent M) : (c.step e).1.Deserted where
  stopped := running_step h.stopped e
  unheard := by
    cases e with
    | requestPolled answer => simpa [Call.step, requestPolled_fst] using h.unheard
    | responsePolled answer => simp only [Call.step]; rw [responsePolled_fst, h.unheard]
    | responseWritten op => simp [Call.step, responseWritten_fst, h.unheard]
    | requestsDropped => simp only [Call.step]; rw [release_fst]; exact h.unheard
    | responsesDropped => simp only [Call.step]; rw [release_fst]
    | abandoned => simp only [Call.step]; rw [release_fst]; exact h.unheard
    | resolved outcome => simpa [Call.step, h.stopped] using h.unheard

theorem Deserted.run {c : Call} (h : c.Deserted) (events : List (CallEvent M)) :
    (c.run events).1.Deserted := by
  induction events generalizing c with
  | nil => exact h
  | cons e es ih => exact ih (h.step e)

omit [Payload M] in
-- In a deserted call nothing but the drop of the requests ends the span.
theorem Deserted.ended_eq {c : Call} (h : c.Deserted) (held : c.has .requests = true)
    (e : CallEvent M) : (c.ended e).isSome = true ↔ e = .requestsDropped := by
  have hreq : c.requests.isSome = true := held
  cases e with
  | requestPolled answer => simp [ended]
  | responsePolled answer => simp [ended, h.unheard]
  | responseWritten op => simp [ended]
  | requestsDropped => simp [ended, left, Call.held, h.stopped, h.unheard]
  | responsesDropped => simp [ended, left, Call.held, hreq]
  | abandoned => simp [ended, left, Call.held, hreq]
  | resolved outcome => simp [ended, h.stopped]

theorem Deserted.ending_iff {c : Call} (h : c.Deserted) (hs : c.Sound)
    (hopen : c.log.finished = false) (events : List (CallEvent M)) :
    (c.ending events).isSome = true ↔ .requestsDropped ∈ events := by
  induction events generalizing c with
  | nil => simp [ending]
  | cons e es ih =>
    have hheld : c.has .requests = true := by
      rw [← h.held_eq]
      cases hgone : c.held with
      | true => rfl
      | false =>
        rw [hs.finished_of_released hgone] at hopen
        cases hopen
    have hended := h.ended_eq hheld e
    have hlog := (step_of_open hs hopen e).2
    simp only [ending, hopen, Bool.false_eq_true, if_false, List.mem_cons]
    cases he : c.ended e with
    | some v =>
      have : e = .requestsDropped := hended.1 (by simp [he])
      simp [this]
    | none =>
      have hne : ¬ .requestsDropped = e := by
        intro heq
        have hsome := hended.2 heq.symm
        rw [he] at hsome
        cases hsome
      rw [Option.none_or, ih (h.step e) (sound_step hs e) (by rw [hlog, he]; rfl)]
      simp [hne]

/-! ## The drop of the responses -/

theorem kind_run (c : Call) (events : List (CallEvent M)) : (c.run events).1.kind = c.kind := by
  induction events generalizing c with
  | nil => rfl
  | cons e es ih => exact (ih _).trans (kind_step c e)

-- On a client the responses are held by a reader, who comes after the continuation.
theorem Sound.deserted_of_dropped {c : Call} (hs : c.Sound) (client : c.kind = .client)
    (h : c.permits (.responsesDropped : CallEvent M) = true) :
    c.running = false ∧ (c.step (.responsesDropped : CallEvent M)).1.Deserted := by
  have hstop : c.running = false := by
    rcases hr : c.responses with _ | (w | w)
    · simp [permits, hr] at h
    · exact (hs.reader w hr).1
    · have hserver := (hs.writer w hr).1
      rw [client] at hserver
      cases hserver
  refine ⟨hstop, running_step hstop _, ?_⟩
  simp only [Call.step]
  rw [release_fst]

-- The responses of a client are let go once at most.
theorem dropped_once {c : Call} (hs : c.Sound) (client : c.kind = .client)
    {before after : List (CallEvent M)}
    (legal : c.Legal (before ++ .responsesDropped :: after)) : .responsesDropped ∉ before := by
  intro h
  obtain ⟨first, rest, rfl⟩ := List.append_of_mem h
  rw [List.append_assoc, legal_append] at legal
  obtain ⟨-, hdrop, hrest⟩ := legal
  obtain ⟨-, hdeserted⟩ :=
    (sound_run hs first).deserted_of_dropped (by rw [kind_run, client]) hdrop
  obtain ⟨-, hagain, -⟩ := (legal_append _ _ _).1 hrest
  simp [permits, (hdeserted.run rest).unheard] at hagain

omit [Payload M] in
theorem ended_of_dropped {c : Call} (hstop : c.running = false) :
    c.ended (.responsesDropped : CallEvent M) =
      if c.has .requests then none else some (.failed CallLog.abandonedStatus) := by
  cases h : c.requests.isSome <;> simp [ended, left, held, has, hstop, h]

/-- A call whose responses are let go while its span is open ends with a cancellation, at the drop
or when the requests go. -/
theorem ending_of_dropped {c : Call} (hs : c.Sound) (hopen : c.log.finished = false)
    (client : c.kind = .client) {before after : List (CallEvent M)}
    (legal : c.Legal (before ++ .responsesDropped :: after)) (h : c.ending before = none) :
    ((c.ending (before ++ .responsesDropped :: after)).isSome = true ↔
        (c.has .requests = true → .requestsDropped ∈ before ++ after)) ∧
      ∀ v, c.ending (before ++ .responsesDropped :: after) = some v →
        v = .failed CallLog.abandonedStatus := by
  obtain ⟨-, hdrop, -⟩ := (legal_append _ _ _).1 legal
  have hd := sound_run hs before
  have hdopen : (c.run before).1.log.finished = false := by
    rw [finished_run hs hopen, h]
    rfl
  obtain ⟨hstop, hdeserted⟩ := hd.deserted_of_dropped (by rw [kind_run, client]) hdrop
  have hreq := c.requests_run before
  have hlog := (step_of_open hd hdopen (.responsesDropped : CallEvent M)).2
  rw [ending_append hs hopen h]
  simp only [ending, hdopen, Bool.false_eq_true, if_false]
  have hleft := ended_of_dropped (M := M) hstop
  cases hheld : (c.run before).1.has .requests with
  | false =>
    -- Nobody is left at the drop.
    have hgone : c.has .requests = true → .requestsDropped ∈ before := by
      intro hc
      by_cases hm : CallEvent.requestsDropped ∈ before
      · exact hm
      · rw [hreq.2 ⟨hc, hm⟩] at hheld
        cases hheld
    rw [hleft, if_neg (by simp [hheld])]
    refine ⟨⟨fun _ hc => List.mem_append_left _ (hgone hc), fun _ => rfl⟩, ?_⟩
    intro v hv
    cases hv
    rfl
  | true =>
    -- The span stays open for whoever holds the requests.
    obtain ⟨hc, hbefore⟩ := hreq.1 hheld
    rw [hleft, if_pos hheld] at hlog
    rw [hleft, if_pos hheld, Option.none_or]
    constructor
    · rw [hdeserted.ending_iff (sound_step hd _) (by rw [hlog]; rfl) after]
      simp [hc, hbefore]
    · intro v hv
      exact ending_of_left hdeserted.stopped (by simp [hdeserted.unheard]) hv

end Call

-- A call has requests to hold as its type says.
theorem CallStart.requests_started {M : Type} [Payload M] (o : CallStart M) :
    o.started.call.has .requests = o.type.streamsRequests := by
  rw [o.call_started]
  cases h : o.type.streamsRequests <;> simp [Call.has, Call.ofLog, h]

/--
The caller of a client call lets the response stream go, and has read neither an end nor a fault.
Such a call is cancelled and comes to no other end: at once or later, as soon as its request stream,
if it has one, is let go as well.
-/
theorem dropped_responses_cancel_call {M : Type} [Payload M] (o : CallStart M)
    (client : o.ctx.kind = .client) {before after : List (CallEvent M)}
    (legal : o.started.call.Legal (before ++ .responsesDropped :: after))
    (returned : Call.returned? before = some .stream)
    (unread : Call.streamEnd (Call.responseAnswers before) = none) :
    ∃ record, (o.after (before ++ .responsesDropped :: after)).records[o.started.span]? =
        some record ∧
      (record.finished = true ↔
        (o.type.streamsRequests = true → .requestsDropped ∈ before ++ after)) ∧
      (record.finished = true → record.EndedWith (.failed CallLog.abandonedStatus)) := by
  have hs := o.sound_started
  have hkind : o.started.call.kind = .client := by
    rw [o.call_started]
    exact client
  have legal' := ((Call.legal_append _ _ _).1 legal).1
  have hopen : o.started.call.ending before = none := by
    rw [Call.ending_of_stream hs o.running_started legal' (Call.kept_of_returned legal' returned)
      returned (.inr (Call.dropped_once hs hkind legal)), unread]
  obtain ⟨hiff, hvalue⟩ := Call.ending_of_dropped hs o.open_started hkind legal hopen
  rw [o.requests_started] at hiff
  refine ⟨_, o.record_after _, ?_⟩
  cases hending : o.started.call.ending (before ++ .responsesDropped :: after) with
  | none =>
    have hf := o.unfinished_of_ending hending
    rw [hending] at hiff
    exact ⟨by rw [hf, ← hiff]; rfl, fun h => by rw [hf] at h; cases h⟩
  | some v =>
    obtain rfl := hvalue v hending
    have hend := o.endedWith_of_ending hending
    rw [hending] at hiff
    have hf : (o.record.replay (o.started.effects ++ (o.started.call.run
        (before ++ .responsesDropped :: after)).2)).finished = true := by
      simp [SpanRecord.finished, hend.once]
    exact ⟨by rw [hf, ← hiff]; rfl, fun _ => hend⟩

/-- A duplex call of a client on a fresh recorder. -/
def CallStart.duplex : CallStart Message :=
  { recorder := { ids := .odd 0 0 }, config := {}, active := none
    ctx := .client { method := "/chat" }, type := .bidiStreaming, metadata := .empty
    message := none }

-- The transport of a duplex call polls the requests once more and then lets them go.
theorem duplex_cancelled_with_requests :
    let o := CallStart.duplex
    let after : List (CallEvent Message) := [.requestPolled .ended, .requestsDropped]
    ∃ record, (o.after (.resolved .stream :: .responsesDropped :: after)).records[o.started.span]? =
        some record ∧
      record.EndedWith (.failed CallLog.abandonedStatus) := by
  intro o after
  have legal : o.started.call.Legal ([.resolved .stream] ++ .responsesDropped :: after) := by
    rw [o.call_started]
    generalize CallLog.ofConfig o.config o.record.context = log
    exact ⟨rfl, rfl, rfl, rfl, trivial⟩
  obtain ⟨record, hrecord, hfinished, hend⟩ :=
    dropped_responses_cancel_call o rfl legal rfl rfl
  exact ⟨record, hrecord, hend (hfinished.2 fun _ => by simp [after])⟩

-- The caller of a duplex call has let the responses go; the transport goes on with the requests.
theorem duplex_open_after_drop :
    let o := CallStart.duplex
    let before : List (CallEvent Message) := [.resolved .stream]
    let after : List (CallEvent Message) := [.requestPolled .ended]
    o.started.call.Legal (before ++ .responsesDropped :: after) ∧
      Call.returned? before = some .stream ∧
      Call.streamEnd (Call.responseAnswers before) = none ∧
      ∃ record, (o.after (before ++ .responsesDropped :: after)).records[o.started.span]? =
          some record ∧
        record.finished = false := by
  intro o before after
  obtain ⟨log, hopen, hcall⟩ : ∃ log : CallLog, log.finished = false ∧
      o.started.call = Call.ofLog .client .bidiStreaming log := ⟨_, rfl, o.call_started⟩
  have legal : o.started.call.Legal (before ++ .responsesDropped :: after) := by
    rw [hcall]
    exact ⟨rfl, rfl, rfl, trivial⟩
  have hending : o.started.call.ending (before ++ .responsesDropped :: after) = none := by
    rw [hcall]
    obtain ⟨context, logPayloads, verbose, finished⟩ := log
    cases hopen
    rfl
  exact ⟨legal, rfl, rfl, _, o.record_after _, o.unfinished_of_ending hending⟩

end CallTrace
