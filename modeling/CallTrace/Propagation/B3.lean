import CallTrace.Carrier

/-!
# B3 headers

A span context travels in one header, `b3`, or in several.  Reading prefers the single header and
understands both forms; writing uses one of them.  A trace id of half the length counts as if zeros
preceded it.
-/

namespace CallTrace.B3

def single := "b3"
def traceId := "x-b3-traceid"
def spanId := "x-b3-spanid"
def parentSpanId := "x-b3-parentspanid"
def sampled := "x-b3-sampled"
def flags := "x-b3-flags"

/-- Which of the two forms is written. -/
inductive Encoding
  | single
  | multi
deriving DecidableEq, Repr

def isSampledState (state : List Char) : Bool :=
  state == ['1'] || state == ['d'] || state.map Char.toLower == ['t', 'r', 'u', 'e']

-- A trace id of sixteen digits is the lower half of one with thirty-two.
def widen (traceId : List Char) : List Char :=
  if traceId.length = 16 then List.replicate 16 '0' ++ traceId else traceId

/-- The context that the identifiers name; trace, span and parent are read in this order. -/
def identity (traceId spanId : List Char) (parent : Option (List Char)) (sampled : Bool) :
    Except ContextError SpanContext := do
  let traceId ← require .invalidTraceId (Id.ofDigits? (widen traceId))
  let spanId ← require .invalidSpanId (Id.ofDigits? spanId)
  let parent ← match parent with
    | none => .ok none
    | some digits => (require .invalidSpanId (Id.ofDigits? digits)).map some
  return ({ traceId, spanId, parent } : SpanContext).withSampled sampled

/-- Reads the fields of the single header: trace, span, state and parent, or a state alone. -/
def ofFields : List (List Char) → Except ContextError (Option SpanContext)
  | [state] =>
    if state = ['0'] ∨ state = ['1'] ∨ state = ['d'] then .ok none else .error .malformed
  | [traceId, spanId] => (identity traceId spanId none true).map some
  | [traceId, spanId, state] => (identity traceId spanId none (isSampledState state)).map some
  | [traceId, spanId, state, parent] =>
    (identity traceId spanId (some parent) (isSampledState state)).map some
  | _ => .error .malformed

/-- Reads the value of the single header; blanks around it do not count. -/
def ofSingle (value : String) : Except ContextError (Option SpanContext) :=
  ofFields (Fields.split '-' (trim value.toList))

def read (get? : String → Option String) : Except ContextError (Option SpanContext) :=
  match get? single with
  | some value => ofSingle value
  | none =>
    match get? traceId with
    | none => .ok none
    | some trace =>
      match get? spanId with
      | none => .error .malformed
      | some span =>
        let debug := get? flags == some "1"
        let isSampled := debug || (get? sampled).all fun s => isSampledState s.toList
        let parent := (get? parentSpanId).map String.toList
        (identity trace.toList span.toList parent isSampled).map some

-- The headers that carry a context, in the order in which they are written.
def headers (encoding : Encoding) (ctx : SpanContext) : List (String × String) :=
  let state := if ctx.sampled then "1" else "0"
  match encoding with
  | .single =>
    let value := ctx.traceId.text ++ "-" ++ ctx.spanId.text ++ "-" ++ state
    match ctx.parent with
    | none => [(single, value)]
    | some parent => [(single, value ++ "-" ++ parent.text)]
  | .multi =>
    [(traceId, ctx.traceId.text), (spanId, ctx.spanId.text), (sampled, state)] ++
      match ctx.parent with
      | none => []
      | some parent => [(parentSpanId, parent.text)]

end CallTrace.B3
