import CallTrace.Flags
import CallTrace.Id
import CallTrace.Text.Outline
import CallTrace.Text.Quoted

/-!
# Span contexts

What identifies a span to other processes: its trace, itself, the span it descends from, the flags
and an opaque vendor state.  A child stays in its parent's trace and keeps flags and state.
-/

namespace CallTrace

/-- The identity of a span as it travels between processes. -/
structure SpanContext where
  traceId : TraceId
  spanId : SpanId
  parent : Option SpanId := none
  flags : TraceFlags := .sampledOnly
  state : Option String := none
deriving DecidableEq, Repr

namespace SpanContext

/-- The context of the k-th span when it has no parent: a trace of its own, sampled. -/
def root (ids : IdSupply) (k : Nat) : SpanContext :=
  ⟨ids.trace k, ids.span k, none, .sampledOnly, none⟩

def child (parent : SpanContext) (ids : IdSupply) (k : Nat) : SpanContext :=
  { parent with spanId := ids.span k, parent := some parent.spanId }

-- The context of the k-th span, below its parent if it has one.
def start (parent : Option SpanContext) (ids : IdSupply) (k : Nat) : SpanContext :=
  match parent with
  | some parent => parent.child ids k
  | none => root ids k

def sampled (ctx : SpanContext) : Bool := ctx.flags.sampled

def withSampled (ctx : SpanContext) (sampled : Bool) : SpanContext :=
  { ctx with flags := ctx.flags.withSampled sampled }

def withState (ctx : SpanContext) (state : String) : SpanContext := { ctx with state := some state }

def withParent (ctx : SpanContext) (parent : SpanId) : SpanContext :=
  { ctx with parent := some parent }

def outline (ctx : SpanContext) : String :=
  let spanText (id : SpanId) := Outline.wrap "SpanId" id.text
  Outline.record "SpanContext"
    [("trace_id", Outline.wrap "TraceId" ctx.traceId.text),
     ("span_id", spanText ctx.spanId),
     ("parent_span_id", Outline.option (ctx.parent.map spanText)),
     ("flags", Outline.wrap "TraceFlags" (toString ctx.flags.byte.toNat)),
     ("tracestate", Outline.option (ctx.state.map Quoted.encode))]

@[simp] theorem sampled_withSampled (ctx : SpanContext) (b : Bool) :
    (ctx.withSampled b).sampled = b := TraceFlags.sampled_withSampled ctx.flags b

end SpanContext

end CallTrace
