import CallTrace.Stream.Sink

/-!
# Watching outbound streams

A writer watch hears what goes out and tells every message, also one that follows an end, and the
first completion.  Messages go out in two ways: the transport pulls them from a stream of requests,
or a handler writes them to a sink.  In the second case the watch hears of an operation before the
sink starts it.
-/

namespace CallTrace

variable {σ κ τ M : Type}

/-- What is told about messages that go out: each of them, and that they are complete. -/
inductive WriteEvent (M : Type)
  | write (m : M)
  | complete
deriving Repr

/-- Which events are wanted; the wish for the completion is used up by the first one. -/
structure WriterWatch where
  onWrite : Bool
  onComplete : Bool
deriving DecidableEq, Repr

-- The watch after an event, and what it tells of it.
def WriterWatch.hear (w : WriterWatch) : WriteEvent M → WriterWatch × Option (WriteEvent M)
  | .write m => (w, if w.onWrite then some (.write m) else none)
  | .complete => ({ w with onComplete := false }, if w.onComplete then some .complete else none)

namespace WriterWatch

@[simp] theorem hear_write (w : WriterWatch) (m : M) :
    w.hear (.write m) = (w, if w.onWrite then some (.write m) else none) := rfl

@[simp] theorem hear_complete (w : WriterWatch) :
    w.hear (.complete : WriteEvent M) =
      ({ w with onComplete := false }, if w.onComplete then some .complete else none) := rfl

end WriterWatch

/-! ## Request streams -/

/-- What an answer of a request stream sends out. -/
def Polled.sent? : Polled M → Option (WriteEvent M)
  | .pending => none
  | .item m => some (.write m)
  | .ended => some .complete

-- The watch after one poll of a request stream, and the event to tell.
def WriterWatch.react (w : WriterWatch) (answer : Polled M) : WriterWatch × Option (WriteEvent M) :=
  match answer.sent? with
  | none => (w, none)
  | some event => w.hear event

namespace WriterWatch

@[simp] theorem react_pending (w : WriterWatch) :
    w.react (.pending : Polled M) = (w, none) := rfl

@[simp] theorem react_item (w : WriterWatch) (m : M) :
    w.react (.item m) = w.hear (.write m) := rfl

@[simp] theorem react_ended (w : WriterWatch) :
    w.react (.ended : Polled M) = w.hear .complete := rfl

end WriterWatch

/-- A stream of requests together with its watch. -/
structure Sender (σ : Type) where
  inner : σ
  watch : WriterWatch
deriving Repr

namespace Sender

-- Polls the stream once, passes its answer on, and tells the watch.
def poll [Stream σ M] (s : Sender σ) : Sender σ × Polled M × Option (WriteEvent M) :=
  let (inner, answer) := Stream.poll s.inner
  let (watch, event) := s.watch.react answer
  ({ inner, watch }, answer, event)

def outline (innerText : String) : String :=
  Outline.openRecord "TracingRequestStream" [("inner", innerText)]

end Sender

/-! ## Sinks -/

/-- What an operation of a sink sends out. -/
def SinkOp.event : SinkOp M → WriteEvent M
  | .write m => .write m
  | .complete => .complete

@[simp] theorem SinkOp.event_write (m : M) : (SinkOp.write m).event = .write m := rfl

@[simp] theorem SinkOp.event_complete :
    (SinkOp.complete : SinkOp M).event = .complete := rfl

/-- A sink together with its watch. -/
structure Writer (κ : Type) where
  inner : κ
  watch : WriterWatch
deriving Repr

namespace Writer

def start [Sink κ τ M] (w : Writer κ) (op : SinkOp M) : Writer κ × Option (WriteEvent M) × τ :=
  let (watch, event) := w.watch.hear op.event
  let (inner, ticket) := Sink.start w.inner op
  ({ inner, watch }, event, ticket)

-- Attempts the operation in the sink and passes its answer on.
def attempt [Sink κ τ M] (w : Writer κ) (ticket : τ) : Writer κ × Attempt τ :=
  let (inner, result) := Sink.attempt w.inner ticket
  ({ w with inner }, result)

def outline (innerText : String) : String :=
  Outline.openRecord "TracingWriter" [("inner", innerText)]

end Writer

end CallTrace
