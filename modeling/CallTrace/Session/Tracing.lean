import CallTrace.Call.Start

/-!
# Tracing of calls in progress

The tracing side of the calls on one recorder.  A stream that a call watches is a stream around
another; polling it polls the inner one once, passes the answer on and tells the call.
-/

namespace CallTrace

/-- Which stream of a call is meant. -/
inductive Role
  | requests
  | responses
deriving DecidableEq, Repr

inductive Source
  -- A stream with fixed answers.
  | script (s : Script (Delivery Message))
  -- A stream that a call watches.
  | watched (call : Nat) (role : Role) (inner : Source)
deriving Repr

def Source.size : Source → Nat
  | script s => s.length
  | watched _ _ inner => inner.size

/-- A traced call and the number of its span. -/
structure TracedCall where
  span : Nat
  call : Call
deriving DecidableEq, Repr

/-- The recorder and the calls that are traced on it. -/
structure Tracing where
  recorder : Recorder
  config : Config := {}
  -- Whether the active span can be seen.
  ambient : Bool := true
  -- Whether calls are traced at all.
  traced : Bool := true
  -- Under its number each call, if it is traced.
  tracedCalls : List (Option TracedCall) := []
  reports : List Report := []

namespace Tracing

def perform (t : Tracing) (span : Nat) (effects : List Effect) : Tracing :=
  { t with
    recorder := t.recorder.perform span effects
    reports := t.reports ++ effects.filterMap Effect.report? }

def tracedCall? (t : Tracing) (call : Nat) : Option TracedCall := t.tracedCalls[call]?.join

def tell (t : Tracing) (call : Nat) (event : CallEvent Message) : Tracing :=
  match t.tracedCall? call with
  | none => t
  | some traced =>
    let (next, effects) := traced.call.step event
    { t with tracedCalls := t.tracedCalls.set call (some { traced with call := next }) }.perform
      traced.span effects

/--
Starts the next call; gives the metadata that its continuation is handed and the context of its
span.
-/
def start (t : Tracing) (ctx : CallContext) (type : MethodType) (metadata : Metadata)
    (message : Option Message) : Tracing × Metadata × Option SpanContext :=
  if t.traced then
    let active := if t.ambient then t.recorder.active else none
    let (recorder, metadata, started) :=
      t.recorder.startCall t.config active ctx type metadata message
    let call : TracedCall := { span := started.span, call := started.call }
    let t := { t with recorder, tracedCalls := t.tracedCalls ++ [some call] }
    (t.perform started.span started.effects, metadata, some started.call.log.context)
  else ({ t with tracedCalls := t.tracedCalls ++ [none] }, metadata, none)

/-- A stream of a call as its party gets it: watched, if calls are traced. -/
def watch (t : Tracing) (call : Nat) (role : Role) (source : Source) : Source :=
  if t.traced then .watched call role source else source

def poll (t : Tracing) : Source → Tracing × Source × Polled (Delivery Message)
  | .script s =>
    let (s, answer) := s.poll
    (t, .script s, answer)
  | .watched call role inner =>
    let (t, inner, answer) := t.poll inner
    let t := match role with
      | .requests => t.tell call (.requestPolled answer)
      | .responses => t.tell call (.responsePolled answer)
    (t, .watched call role inner, answer)

-- Lets the outermost watch of a stream go, and gives the stream inside.
def unwatch (t : Tracing) : Source → Tracing × Source
  | .script s => (t, .script s)
  | .watched call .requests inner => (t.tell call .requestsDropped, inner)
  | .watched call .responses inner => (t.tell call .responsesDropped, inner)

-- Lets a stream go; the inner stream goes before its watch.
def dropSource (t : Tracing) : Source → Tracing
  | .script _ => t
  | .watched call role inner =>
    let t := t.dropSource inner
    match role with
    | .requests => t.tell call .requestsDropped
    | .responses => t.tell call .responsesDropped

-- Polls a stream up to so many times, as long as it gives messages.
def pollWhile (t : Tracing) (source : Source) :
    Nat → Tracing × Source × List (Polled (Delivery Message))
  | 0 => (t, source, [])
  | n + 1 =>
    match t.poll source with
    | (t, source, .item (.ok m)) =>
      let (t, source, answers) := t.pollWhile source n
      (t, source, .item (.ok m) :: answers)
    | (t, source, answer) => (t, source, [answer])

end Tracing

end CallTrace
