import CallTrace.Proofs.Call.Opening

/-!
# The parties of a call

Which parties a call has, and how its steps change that: a poll or a write leaves all of them, and
a party that goes or is settled leaves the others.  A sound call without parties has ended its span.
-/

namespace CallTrace

inductive Party
  | continuation
  | requests
  | reader
  | writer
deriving DecidableEq, Repr

namespace Call

variable {M : Type}

def has (c : Call) : Party → Bool
  | .continuation => c.running
  | .requests => c.requests.isSome
  | .reader => match c.responses with | some (.reader _) => true | _ => false
  | .writer => match c.responses with | some (.writer _) => true | _ => false

-- A call without parties is held by nobody.
theorem held_of_has {c : Call} (h : ∀ p, c.has p = false) : c.held = false := by
  have hrun : c.running = false := h .continuation
  have hreq : c.requests.isSome = false := h .requests
  have hresp : c.responses.isSome = false := by
    have hr := h .reader
    have hw := h .writer
    rcases hresp : c.responses with _ | (w | w)
    · rfl
    · simp [has, hresp] at hr
    · simp [has, hresp] at hw
  simp [held, hrun, hreq, hresp]

theorem permits_requestPolled (c : Call) (answer : Polled (Delivery M)) :
    c.permits (.requestPolled answer) = c.has .requests := rfl

theorem permits_responsePolled (c : Call) (answer : Polled (Delivery M)) :
    c.permits (.responsePolled answer) = c.has .reader := rfl

theorem permits_responseWritten (c : Call) (op : SinkOp M) :
    c.permits (.responseWritten op) = c.has .writer := rfl

theorem permits_responsesDropped {c : Call} (h : c.has .reader = true ∨ c.has .writer = true) :
    c.permits (.responsesDropped : CallEvent M) = true := by
  rcases hr : c.responses with _ | (w | w)
  · simp [has, hr] at h
  · simp [permits, hr]
  · simp [permits, hr]

theorem not_writer_of_reader {c : Call} (h : c.has .reader = true) : c.has .writer = false := by
  rcases hr : c.responses with _ | (w | w)
  · simp [has, hr] at h
  · simp [has, hr]
  · simp [has, hr] at h

variable [Payload M]

theorem has_requestPolled (c : Call) (answer : Polled (Delivery M)) (p : Party) :
    (c.step (.requestPolled answer)).1.has p = c.has p := by
  simp only [step, requestPolled_fst]
  cases p <;> simp [has]

theorem has_responsePolled (c : Call) (answer : Polled (Delivery M)) (p : Party) :
    (c.step (.responsePolled answer)).1.has p = c.has p := by
  simp only [step]
  rw [responsePolled_fst]
  rcases h : c.responses with _ | (w | w) <;> cases p <;> simp [has, h]

theorem has_responseWritten (c : Call) (op : SinkOp M) (p : Party) :
    (c.step (.responseWritten op)).1.has p = c.has p := by
  simp only [step, responseWritten_fst]
  rcases h : c.responses with _ | (w | w) <;> cases p <;> simp [has, h]

theorem has_requestsDropped (c : Call) (p : Party) :
    (c.step (.requestsDropped : CallEvent M)).1.has p =
      if p = .requests then false else c.has p := by
  simp only [step]
  rw [release_fst]
  cases p <;> simp [has]

theorem has_responsesDropped (c : Call) (p : Party) :
    (c.step (.responsesDropped : CallEvent M)).1.has p =
      if p = .reader ∨ p = .writer then false else c.has p := by
  simp only [step]
  rw [release_fst]
  cases p <;> simp [has]

theorem has_abandoned (c : Call) (p : Party) :
    (c.step (.abandoned : CallEvent M)).1.has p =
      if p = .continuation then false else c.has p := by
  simp only [step]
  rw [release_fst]
  cases p <;> simp [has]

-- The end of a continuation that hands no stream to the caller.
theorem has_resolved {c : Call} (h : c.running = true) {outcome : Outcome M}
    (ho : outcome ≠ .stream) (p : Party) :
    (c.step (.resolved outcome)).1.has p =
      if p = .continuation then false else c.has p := by
  rw [resolved_fst h]
  cases outcome with
  | stream => exact (ho rfl).elim
  | reply m => cases p <;> simp [has]
  | done => cases p <;> simp [has]
  | fault s => cases p <;> simp [has]

-- A client's continuation that hands a stream to the caller makes the caller a reader.
theorem has_resolved_stream {c : Call} (hs : c.Sound) (hk : c.kind = .client)
    (h : c.running = true) (p : Party) :
    (c.step (.resolved .stream : CallEvent M)).1.has p =
      if p = .reader then true else if p = .continuation then false else c.has p := by
  rw [resolved_fst h]
  -- A client has no writer.
  have hwriter : c.has .writer = false := by
    rcases hr : c.responses with _ | (w | w)
    · simp [has, hr]
    · simp [has, hr]
    · have := (hs.writer w hr).1
      rw [hk] at this
      cases this
  cases p with
  | continuation => simp [has]
  | requests => simp [has]
  | reader => simp [has, inboundResponses]
  | writer =>
    rw [hwriter]
    simp [has, inboundResponses]

-- Nobody reads the responses as long as the continuation runs.
theorem not_reader_of_running {c : Call} (hs : c.Sound) (h : c.running = true) :
    c.has .reader = false := by
  rcases hr : c.responses with _ | (w | w)
  · simp [has, hr]
  · have := (hs.reader w hr).1
    rw [h] at this
    cases this
  · simp [has, hr]

end Call

end CallTrace
