import CallTrace.Carrier

/-!
# Trace context headers

A span context travels in the header `traceparent`; its vendor state, if it has one, in
`tracestate`.  An empty state that is read counts as none.
-/

namespace CallTrace.TraceContext

def traceparent := "traceparent"
def tracestate := "tracestate"

def read (get? : String → Option String) : Except ContextError (Option SpanContext) :=
  match get? traceparent with
  | none => .ok none
  | some value => do
    let ctx ← SpanContext.ofTraceparent value
    match (get? tracestate).filter (· ≠ "") with
    | some state => return some (ctx.withState state)
    | none => return some ctx

-- The headers that carry a context, in the order in which they are written.
def headers (ctx : SpanContext) : List (String × String) :=
  (traceparent, ctx.traceparent) ::
    match ctx.state with
    | none => []
    | some state => [(tracestate, state)]

end CallTrace.TraceContext
