import CallTrace.Stream.Basic
import CallTrace.Text.Outline

/-!
# Watching an inbound stream

A reader watch sees what a stream of deliveries gives and tells each message, and the first end or
fault.  After that the stream may go on, but the watch is silent.
-/

namespace CallTrace

/-- What a reader watch tells. -/
inductive ReaderEvent (M : Type)
  | message (m : M)
  | ended
  | fault (s : Status)
deriving Repr

/-- Which events are wanted, and whether the stream has ended or failed. -/
structure ReaderWatch where
  onMessage : Bool
  onEnd : Bool
  onFault : Bool
  terminated : Bool := false
deriving DecidableEq, Repr

namespace ReaderWatch

variable {M : Type}

-- An end or a fault uses up both of the last events.
def terminate (w : ReaderWatch) : ReaderWatch :=
  { w with onEnd := false, onFault := false, terminated := true }

-- The watch after one poll of the stream, and the event to tell.
def react (w : ReaderWatch) (answer : Polled (Delivery M)) : ReaderWatch × Option (ReaderEvent M) :=
  if w.terminated then (w, none)
  else
    match answer with
    | .pending => (w, none)
    | .item (.ok m) => (w, if w.onMessage then some (.message m) else none)
    | .item (.error s) => (w.terminate, if w.onFault then some (.fault s) else none)
    | .ended => (w.terminate, if w.onEnd then some .ended else none)

end ReaderWatch

/-- A stream of deliveries together with its watch. -/
structure Reader (σ : Type) where
  inner : σ
  watch : ReaderWatch
deriving Repr

namespace Reader

variable {σ M : Type}

-- Polls the stream once, passes its answer on, and tells the watch.
def poll [Stream σ (Delivery M)] (r : Reader σ) :
    Reader σ × Polled (Delivery M) × Option (ReaderEvent M) :=
  let (inner, answer) := Stream.poll r.inner
  let (watch, event) := r.watch.react answer
  ({ inner, watch }, answer, event)

def outline (r : Reader σ) (innerText : String) : String :=
  Outline.openRecord "TracingReader"
    [("inner", innerText), ("terminated", Outline.bool r.watch.terminated)]

end Reader

end CallTrace
