import CallTrace.Proofs.Call.Faults
import CallTrace.Proofs.Call.Messages

/-!
# When the span of a call ends

As long as the continuation of a call runs, nothing that happens on its streams ends the span.  The
end comes with the return of the continuation or, when it returns a stream that the caller reads,
with the first end or fault of that stream.
-/

namespace CallTrace

/-- Whether the continuation of a call of this kind and type can end so. -/
def Outcome.fits {M : Type} (kind : SpanKind) (type : MethodType) : Outcome M → Bool
  | .reply _ => !type.streamsResponses
  | .stream => type.streamsResponses && kind == .client
  | .done => type.streamsResponses && kind == .server
  | .fault _ => true

-- The end that a call comes to with its continuation; a response stream goes on.
def Outcome.ending? {M : Type} : Outcome M → Option Ending
  | .reply _ | .done => some .completed
  | .fault s => some (.failed s)
  | .stream => none

-- Only a response stream that a client reads outlives the continuation of its call.
theorem isSome_ending? {M : Type} {kind : SpanKind} {type : MethodType} {outcome : Outcome M}
    (h : outcome.fits kind type = true) (hshape : kind = .server ∨ type.streamsResponses = false) :
    outcome.ending?.isSome = true := by
  cases outcome with
  | stream =>
    rcases hshape with rfl | htype
    · simp [Outcome.fits] at h
    · simp [Outcome.fits, htype] at h
  | _ => rfl

namespace Call

variable {M : Type}

-- What the continuation returned, once it has.
def returned? (events : List (CallEvent M)) : Option (Outcome M) :=
  events.findSome? fun
    | .resolved outcome => some outcome
    | _ => none

theorem mem_of_returned? {events : List (CallEvent M)} {outcome : Outcome M}
    (h : returned? events = some outcome) : .resolved outcome ∈ events := by
  obtain ⟨e, he, hret⟩ := List.exists_of_findSome?_eq_some h
  cases e with
  | resolved outcome' => cases hret; exact he
  | _ => cases hret

/-- The first end or fault that a stream has given. -/
def streamEnd : List (Polled (Delivery M)) → Option Ending
  | [] => none
  | .ended :: _ => some .completed
  | .item (.error s) :: _ => some (.failed s)
  | .pending :: answers => streamEnd answers
  | .item (.ok _) :: answers => streamEnd answers

-- Whoever is no reader polls no responses.
theorem permits_of_unread {c : Call} (hresp : ∀ w, c.responses ≠ some (.reader w))
    (answer : Polled (Delivery M)) : c.permits (.responsePolled answer) = false := by
  rcases hr : c.responses with _ | (w | w)
  · simp [permits, hr]
  · exact (hresp w hr).elim
  · simp [permits, hr]

variable [Payload M]

/-! ## While the continuation runs -/

/-- A call whose continuation has not returned is still running, unless it was let go, and nobody
has read its responses. -/
theorem running_run {c : Call} (hs : c.Sound) (hrun : c.running = true)
    {events : List (CallEvent M)} (legal : c.Legal events) (kept : .abandoned ∉ events)
    (hret : returned? events = none) :
    (c.run events).1.running = true ∧ responseAnswers events = [] := by
  induction events generalizing c with
  | nil => exact ⟨hrun, rfl⟩
  | cons e es ih =>
    obtain ⟨he, hes⟩ := legal
    have hunread (w : ReaderWatch) : c.responses ≠ some (.reader w) := by
      intro hw
      have hdone := (hs.reader w hw).1
      rw [hrun] at hdone
      cases hdone
    have hresolved (outcome : Outcome M) : e ≠ .resolved outcome := by
      rintro rfl
      simp [returned?] at hret
    have habandoned : e ≠ .abandoned := fun he => kept (he ▸ List.mem_cons_self)
    have hnext := (running_stays hrun hunread e hresolved habandoned).1
    have hret' : returned? es = none := by
      cases e with
      | resolved outcome => exact (hresolved outcome rfl).elim
      | _ => simpa [returned?] using hret
    obtain ⟨hlast, hanswers⟩ :=
      ih (sound_step hs e) hnext hes (fun h => kept (List.mem_cons_of_mem e h)) hret'
    refine ⟨hlast, ?_⟩
    cases e with
    | responsePolled answer =>
      rw [permits_of_unread hunread] at he
      cases he
    | _ => simpa [responseAnswers] using hanswers

-- A run that leaves the span open puts its end off to what comes after.
theorem ending_append {c : Call} (hs : c.Sound) (hopen : c.log.finished = false)
    {before : List (CallEvent M)} (h : c.ending before = none) (after : List (CallEvent M)) :
    c.ending (before ++ after) = (c.run before).1.ending after := by
  induction before generalizing c with
  | nil => rfl
  | cons e es ih =>
    simp only [ending, hopen, Bool.false_eq_true, if_false, Option.or_eq_none_iff] at h
    obtain ⟨hended, hrest⟩ := h
    have hstep : (c.step e).1.log.finished = false := by
      rw [(step_of_open hs hopen e).2, hended]
      rfl
    simp only [List.cons_append, ending, hopen, Bool.false_eq_true, if_false, hended,
      Option.none_or, run]
    exact ih (sound_step hs e) hstep hrest

/-! ## While the caller reads -/

-- Without a reader no legal step polls the responses.
theorem responseAnswers_of_unread {c : Call} (hrun : c.running = false)
    (hresp : ∀ w, c.responses ≠ some (.reader w)) {events : List (CallEvent M)}
    (legal : c.Legal events) : responseAnswers events = [] := by
  induction events generalizing c with
  | nil => rfl
  | cons e es ih =>
    obtain ⟨he, hes⟩ := legal
    have hrest : responseAnswers es = [] := by
      refine ih (running_step hrun e) (fun w hw => ?_) hes
      obtain ⟨w', hw'⟩ := reader_step hrun hw
      exact hresp w' hw'
    cases e with
    | responsePolled answer =>
      rw [permits_of_unread hresp] at he
      cases he
    | _ => simpa [responseAnswers] using hrest

/-- The first end or fault of the stream that the caller reads ends the span, unless the caller
lets the stream go. -/
theorem ending_while_read {c : Call} (hs : c.Sound) (hopen : c.log.finished = false)
    {w : ReaderWatch} (hw : c.responses = some (.reader w)) {events : List (CallEvent M)}
    (legal : c.Legal events) (h : streamEnd (responseAnswers events) ≠ none ∨
      .responsesDropped ∉ events) :
    c.ending events = streamEnd (responseAnswers events) := by
  induction events generalizing c w with
  | nil => rfl
  | cons e es ih =>
    obtain ⟨he, hes⟩ := legal
    have hrun := (hs.reader w hw).1
    have hs' := sound_step hs e
    have hstays := reading_stays hrun hw e
    have hlog := (step_of_open hs hopen e).2
    simp only [ending, hopen, Bool.false_eq_true, if_false]
    cases e with
    | responsePolled answer =>
      have hnext : (c.step (.responsePolled answer)).1.responses =
          some (.reader (w.react answer).1) := by
        simp only [step]
        rw [responsePolled_fst, hw]
      have hgo (hended : c.ended (.responsePolled answer) = none)
          (hrest : streamEnd (responseAnswers (.responsePolled answer :: es)) =
            streamEnd (responseAnswers es)) :
          (c.step (.responsePolled answer)).1.ending es =
            streamEnd (responseAnswers (.responsePolled answer :: es)) := by
        rw [hrest] at h ⊢
        refine ih hs' (by rw [hlog, hended]; rfl) hnext hes (h.imp_right fun hd hm => ?_)
        exact hd (List.mem_cons_of_mem _ hm)
      rcases answer with _ | (s | m) | _
      · rw [hgo (by simp [ended, hw]) rfl]
        simp [ended, hw]
      · simp [ended, hw, responseAnswers, streamEnd]
      · rw [hgo (by simp [ended, hw]) rfl]
        simp [ended, hw]
      · simp [ended, hw, responseAnswers, streamEnd]
    | responsesDropped =>
      -- No poll follows, so there would have to be an end among no answers.
      have hnone : responseAnswers es = [] := by
        refine responseAnswers_of_unread (running_step hrun _) (fun w' hw' => ?_) hes
        simp only [step] at hw'
        rw [release_fst] at hw'
        cases hw'
      have hend : streamEnd (responseAnswers (.responsesDropped :: es)) = none :=
        (congrArg streamEnd hnone).trans rfl
      rcases h with h | h
      · exact (h hend).elim
      · exact (h List.mem_cons_self).elim
    | requestPolled | responseWritten | requestsDropped | resolved | abandoned =>
      obtain ⟨hstay, hended⟩ := hstays (by simp) (by simp)
      rw [hended] at hlog ⊢
      exact ih hs' (congrArg CallLog.finished hlog) hstay hes
        (h.imp_right fun hd hm => hd (List.mem_cons_of_mem _ hm))

/-! ## The end that the shape of the call dictates -/

theorem ending_of_unreturned {c : Call} (hs : c.Sound) (hrun : c.running = true)
    {events : List (CallEvent M)} (legal : c.Legal events) (kept : .abandoned ∉ events)
    (hret : returned? events = none) : c.ending events = none := by
  have hlast := (running_run hs hrun legal kept hret).1
  have hopen := (sound_run hs events).open_of_running hlast
  rw [finished_run hs (hs.open_of_running hrun)] at hopen
  simpa using hopen

-- The run of a call whose continuation has returned, from there on.
theorem ending_of_returned {c : Call} (hs : c.Sound) (hrun : c.running = true)
    {events : List (CallEvent M)} (legal : c.Legal events) (kept : .abandoned ∉ events)
    {outcome : Outcome M} (hret : returned? events = some outcome) :
    ∃ (d : Call) (after : List (CallEvent M)), d.Sound ∧ d.running = true ∧
      d.Legal (.resolved outcome :: after) ∧ after ⊆ events ∧
      responseAnswers events = responseAnswers after ∧
      c.ending events = d.ending (.resolved outcome :: after) := by
  obtain ⟨before, e, after, rfl, he, hbefore⟩ := List.findSome?_eq_some_iff.1 hret
  have he' : e = .resolved outcome := by
    cases e <;> simp at he
    rw [he]
  subst he'
  have hret' : returned? before = none := List.findSome?_eq_none_iff.2 hbefore
  have kept' : CallEvent.abandoned ∉ before := fun h => kept (List.mem_append_left _ h)
  rw [legal_append] at legal
  obtain ⟨hlast, hanswers⟩ := running_run hs hrun legal.1 kept' hret'
  have hopen := hs.open_of_running hrun
  have hnone := ending_of_unreturned hs hrun legal.1 kept' hret'
  refine ⟨(c.run before).1, after, sound_run hs before, hlast, legal.2, ?_, ?_, ?_⟩
  · exact fun x hx => List.mem_append_right _ (List.mem_cons_of_mem _ hx)
  · show List.filterMap _ (before ++ _) = _
    rw [List.filterMap_append]
    exact congrArg (· ++ responseAnswers after) hanswers
  · exact ending_append hs hopen hnone _

omit [Payload M] in
theorem ended_resolved {c : Call} (hrun : c.running = true) (outcome : Outcome M) :
    c.ended (.resolved outcome) = outcome.ending? := by
  cases outcome <;> simp [ended, hrun, Outcome.ending?]

theorem ending_of_outcome {c : Call} (hs : c.Sound) (hrun : c.running = true)
    {events : List (CallEvent M)} (legal : c.Legal events) (kept : .abandoned ∉ events)
    {outcome : Outcome M} (hret : returned? events = some outcome) {v : Ending}
    (hv : outcome.ending? = some v) : c.ending events = some v := by
  obtain ⟨d, after, hd, hdrun, -, -, -, hending⟩ := ending_of_returned hs hrun legal kept hret
  have hopen := hd.open_of_running hdrun
  simp [hending, ending, hopen, ended_resolved hdrun, hv]

theorem ending_of_stream {c : Call} (hs : c.Sound) (hrun : c.running = true)
    {events : List (CallEvent M)} (legal : c.Legal events) (kept : .abandoned ∉ events)
    (hret : returned? events = some .stream)
    (h : streamEnd (responseAnswers events) ≠ none ∨ .responsesDropped ∉ events) :
    c.ending events = streamEnd (responseAnswers events) := by
  obtain ⟨d, after, hd, hdrun, ⟨-, hafter⟩, hsub, hanswers, hending⟩ :=
    ending_of_returned hs hrun legal kept hret
  have hopen := hd.open_of_running hdrun
  have hended : d.ended (.resolved .stream : CallEvent M) = none := ended_resolved hdrun _
  have hstep : (d.step (.resolved .stream : CallEvent M)).1.log.finished = false := by
    rw [(step_of_open hd hopen _).2, hended]
    rfl
  have hreader : (d.step (.resolved .stream : CallEvent M)).1.responses =
      some (.reader freshReader) := by
    rw [resolved_fst hdrun]
    rfl
  rw [hanswers] at h ⊢
  simp only [hending, ending, hopen, Bool.false_eq_true, if_false, hended, Option.none_or]
  exact ending_while_read (sound_step hd _) hstep hreader hafter
    (h.imp_right fun hkept hdropped => hkept (hsub hdropped))

end Call

/-! ## The record of the span -/

/-- The span was finished once, and shows that its call ended so. -/
structure SpanRecord.EndedWith (record : SpanRecord) (v : Ending) : Prop where
  once : record.finishCount = 1
  last : ∀ s, v = .failed s → record.logs.getLast? = some s.entry
  tag : record.tag? TagKey.error = v.fault?.map fun _ => .bool true

namespace CallStart

variable {M : Type} [Payload M] (o : CallStart M) {events : List (CallEvent M)}

theorem unfinished_of_ending (h : o.started.call.ending events = none) :
    (o.record.replay (o.started.effects ++ (o.started.call.run events).2)).finished = false := by
  rw [o.replay_run, h]
  rfl

theorem endedWith_of_ending {v : Ending} (h : o.started.call.ending events = some v) :
    (o.record.replay (o.started.effects ++ (o.started.call.run events).2)).EndedWith v := by
  rw [o.replay_run, h]
  constructor
  · rfl
  · rintro s rfl
    simp [Ending.entries, CallLog.faultFields_eq]
  · have hnew := o.recorder.tag?_newRecord o.config o.active o.ctx o.type o.metadata
    cases v with
    | completed => exact hnew
    | failed s => exact (getTag?_setTag _ _ _ _).trans (if_pos rfl)

end CallStart

/--
At every point of a run of a call that is not let go before its continuation returns: the span is
open until then, whatever happens on the streams.  The return ends it, on a server and where one
response is returned in all cases.  A response stream that a client's continuation returns keeps it
open as long as the caller has the stream and has read neither an end nor a fault, and the first of
these ends it.
-/
theorem span_ends_with_its_call {M : Type} [Payload M] (o : CallStart M)
    {events : List (CallEvent M)} (legal : o.started.call.Legal events)
    (typed : ∀ outcome, .resolved outcome ∈ events → outcome.fits o.ctx.kind o.type = true)
    (kept : .abandoned ∉ events) :
    ∃ record, (o.after events).records[o.started.span]? = some record ∧
      (Call.returned? events = none → record.finished = false) ∧
      (∀ outcome v, Call.returned? events = some outcome → outcome.ending? = some v →
        record.EndedWith v) ∧
      (o.ctx.kind = .server ∨ o.type.streamsResponses = false →
        (record.finished = true ↔ ∃ outcome, Call.returned? events = some outcome)) ∧
      (Call.returned? events = some .stream →
        (Call.streamEnd (Call.responseAnswers events) = none → .responsesDropped ∉ events →
          record.finished = false) ∧
        ∀ v, Call.streamEnd (Call.responseAnswers events) = some v → record.EndedWith v) := by
  have hs := o.sound_started
  have hrun := o.running_started
  have hopen (hret : Call.returned? events = none) := o.unfinished_of_ending
    (Call.ending_of_unreturned hs hrun legal kept hret)
  have hreturned (outcome : Outcome M) (v : Ending) (hret : Call.returned? events = some outcome)
      (hv : outcome.ending? = some v) := o.endedWith_of_ending
    (Call.ending_of_outcome hs hrun legal kept hret hv)
  refine ⟨_, o.record_after events, hopen, hreturned, fun hshape => ?_, fun hret => ⟨?_, ?_⟩⟩
  · cases hret : Call.returned? events with
    | none => simp [hopen hret]
    | some outcome =>
      have hended : outcome.ending?.isSome = true :=
        isSome_ending? (typed outcome (Call.mem_of_returned? hret)) hshape
      obtain ⟨v, hv⟩ := Option.isSome_iff_exists.1 hended
      have honce := (hreturned outcome v hret hv).once
      simp [SpanRecord.finished, honce]
  · intro hgoes hread
    refine o.unfinished_of_ending ?_
    rw [Call.ending_of_stream hs hrun legal kept hret (.inr hread), hgoes]
  · intro v hv
    refine o.endedWith_of_ending ?_
    rw [Call.ending_of_stream hs hrun legal kept hret (.inl (by simp [hv])), hv]

-- A duplex call whose requests end and whose caller reads one response and then a fault.
theorem span_of_duplex_ends_with_fault :
    let o : CallStart Message :=
      { recorder := { ids := .odd 0 0 }, config := {}, active := none
        ctx := .client { method := "/chat" }, type := .bidiStreaming, metadata := .empty
        message := none }
    let read : List (CallEvent Message) :=
      [.requestPolled .ended, .resolved .stream, .requestsDropped,
        .responsePolled (.item (.ok (.text "a")))]
    let fault : CallEvent Message := .responsePolled (.item (.error (.cancelled "b")))
    (∃ record, (o.after read).records[o.started.span]? = some record ∧
        record.finished = false) ∧
      ∃ record, (o.after (read ++ [fault])).records[o.started.span]? = some record ∧
        record.EndedWith (.failed (.cancelled "b")) := by
  intro o read fault
  have legal' : o.started.call.Legal (read ++ [fault]) := by
    rw [o.call_started]
    generalize CallLog.ofConfig o.config o.record.context = log
    exact ⟨rfl, rfl, rfl, rfl, rfl, trivial⟩
  have legal : o.started.call.Legal read := ((o.started.call.legal_append read [fault]).1 legal').1
  have typed : ∀ outcome, .resolved outcome ∈ read ++ [fault] →
      outcome.fits o.ctx.kind o.type = true := by
    intro outcome h
    simp [read, fault] at h
    rw [h]
    rfl
  obtain ⟨record, hrecord, -, -, -, hread⟩ := span_ends_with_its_call o legal
    (fun outcome h => typed outcome (List.mem_append_left _ h)) (by simp [read])
  obtain ⟨record', hrecord', -, -, -, hread'⟩ := span_ends_with_its_call o legal' typed
    (by simp [read, fault])
  exact ⟨⟨record, hrecord, (hread rfl).1 rfl (by simp [read])⟩,
    ⟨record', hrecord', (hread' rfl).2 _ rfl⟩⟩

end CallTrace
