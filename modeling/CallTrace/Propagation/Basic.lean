import CallTrace.Propagation.B3
import CallTrace.Propagation.TraceContext

/-!
# Propagation

A propagator moves span contexts through carriers.  Injection writes the headers of its format one
after the other and stops at the first that the carrier refuses.
-/

namespace CallTrace

inductive Propagator
  | w3c
  | b3 (encoding : B3.Encoding)
deriving DecidableEq, Repr

namespace Propagator

def read (p : Propagator) (get? : String → Option String) :
    Except ContextError (Option SpanContext) :=
  match p with
  | w3c => TraceContext.read get?
  | b3 _ => B3.read get?

-- The headers that carry a context, in the order in which they are written.
def headers (p : Propagator) (ctx : SpanContext) : List (String × String) :=
  match p with
  | w3c => TraceContext.headers ctx
  | b3 encoding => B3.headers encoding ctx

def extract {κ : Type} [Readable κ] (p : Propagator) (carrier : κ) :
    Except Error (Option SpanContext) :=
  (p.read (get? carrier)).mapError Error.ofContext

def inject {κ : Type} [Writable κ] (p : Propagator) (ctx : SpanContext) (carrier : κ) :
    κ × Except Error Unit :=
  writeAll carrier (p.headers ctx)

def fields : Propagator → List String
  | w3c => [TraceContext.traceparent, TraceContext.tracestate]
  | b3 .single => [B3.single]
  | b3 .multi => [B3.traceId, B3.spanId, B3.parentSpanId, B3.sampled, B3.flags]

def outline : Propagator → String
  | w3c => "W3CTraceContext"
  | b3 .single => Outline.record "B3Propagator" [("encoding", "Single")]
  | b3 .multi => Outline.record "B3Propagator" [("encoding", "Multi")]

end Propagator

end CallTrace
