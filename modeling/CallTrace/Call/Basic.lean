import CallTrace.CallLog
import CallTrace.Stream.Reader
import CallTrace.Stream.Writer

/-!
# Calls

A traced call as a machine.  Its parties are the call itself, as long as its continuation runs, and
what the continuation or the caller holds of its streams.  Each step of a party is an event; the
call answers with effects on its span.  Once no party is left, the log of the call is given up.
-/

namespace CallTrace

/-- How the continuation of a call ends. -/
inductive Outcome (M : Type)
  -- A single response message.
  | reply (m : M)
  -- A response stream that the caller reads.
  | stream
  -- A response stream that has been written to its end.
  | done
  | fault (s : Status)
deriving Repr

inductive CallEvent (M : Type)
  -- The request stream was polled and gave this answer.
  | requestPolled (answer : Polled (Delivery M))
  | requestsDropped
  -- The response stream was polled and gave this answer.
  | responsePolled (answer : Polled (Delivery M))
  -- The handler began to write, or to complete, the response stream.
  | responseWritten (op : SinkOp M)
  -- The response stream or its writer was let go.
  | responsesDropped
  -- The continuation ended.
  | resolved (outcome : Outcome M)
  -- The call was let go before its continuation ended.
  | abandoned
deriving Repr

inductive RequestWatch
  | sender (w : WriterWatch)
  | reader (w : ReaderWatch)
deriving DecidableEq, Repr

inductive ResponseWatch
  | reader (w : ReaderWatch)
  | writer (w : WriterWatch)
deriving DecidableEq, Repr

/-- A traced call: its log and the parties that are there. -/
structure Call where
  kind : SpanKind
  method : MethodType
  log : CallLog
  -- Whether the continuation runs.
  running : Bool := true
  requests : Option RequestWatch
  responses : Option ResponseWatch
deriving DecidableEq, Repr

namespace Call

variable {M : Type}

def outboundRequests : RequestWatch := .sender ⟨true, true⟩

/-- The watch on an inbound request stream; a fault in it is no fault of the call. -/
def inboundRequests : RequestWatch := .reader { onMessage := true, onEnd := true, onFault := false }

def inboundResponses : ResponseWatch :=
  .reader { onMessage := true, onEnd := true, onFault := true }

def outboundResponses : ResponseWatch := .writer ⟨true, true⟩

def ofLog (kind : SpanKind) (method : MethodType) (log : CallLog) : Call :=
  { kind, method, log
    requests :=
      if method.streamsRequests then
        some (match kind with | .client => outboundRequests | .server => inboundRequests)
      else none
    responses :=
      match kind with
      | .client => none
      | .server => if method.streamsResponses then some outboundResponses else none }

def held (c : Call) : Bool := c.running || c.requests.isSome || c.responses.isSome

def release (c : Call) : Call × List Effect :=
  if c.held then (c, [])
  else
    let (log, effects) := c.log.drop
    ({ c with log }, effects)

def finish (c : Call) : Call × List Effect :=
  let (log, effects) := c.log.finish
  ({ c with log }, effects)

def fault (c : Call) (s : Status) : Call × List Effect :=
  let (log, effects) := c.log.fault s
  ({ c with log }, effects)

variable [Payload M]

-- A poll of the request stream as its watch tells it.
def requestPolled (c : Call) (answer : Polled (Delivery M)) : Call × List Effect :=
  match c.requests with
  | none => (c, [])
  | some (.reader w) =>
    let (w, event) := w.react answer
    let c := { c with requests := some (.reader w) }
    match event with
    | some (.message m) => (c, c.log.request m)
    | some .ended => (c, c.log.stage .requestStreamCompleted)
    | some (.fault _) | none => (c, [])
  | some (.sender w) =>
    let answer : Polled M := match answer with
      | .item (.ok m) => .item m
      | .ended => .ended
      | .item (.error _) | .pending => .pending
    let (w, event) := w.react answer
    let c := { c with requests := some (.sender w) }
    match event with
    | some (.write m) => (c, c.log.request m)
    | some .complete => (c, c.log.stage .requestStreamCompleted)
    | none => (c, [])

/-- A poll of the response stream as its watch tells it: its first end or fault ends the span. -/
def responsePolled (c : Call) (answer : Polled (Delivery M)) : Call × List Effect :=
  match c.responses with
  | some (.reader w) =>
    let (w, event) := w.react answer
    let c := { c with responses := some (.reader w) }
    match event with
    | some (.message m) => (c, c.log.response m)
    | some .ended =>
      let (c', effects) := c.finish
      (c', c.log.stage .responseStreamCompleted ++ effects)
    | some (.fault s) => c.fault s
    | none => (c, [])
  | _ => (c, [])

-- A write to the response stream as its watch tells it.
def responseWritten (c : Call) (op : SinkOp M) : Call × List Effect :=
  match c.responses with
  | some (.writer w) =>
    let (w, event) := w.hear op.event
    let c := { c with responses := some (.writer w) }
    match event with
    | some (.write m) => (c, c.log.response m)
    | some .complete => (c, c.log.stage .responseStreamCompleted)
    | none => (c, [])
  | _ => (c, [])

/-- The end of the continuation: it ends the span unless the caller has still to read a stream. -/
def settle (c : Call) : Outcome M → Call × List Effect
  | .reply m =>
    let (c', effects) := c.finish
    (c', c.log.response m ++ effects)
  | .stream => ({ c with responses := some inboundResponses }, [])
  | .done => c.finish
  | .fault s => c.fault s

-- The call after one step of a party, and the effects of the step.
def step (c : Call) : CallEvent M → Call × List Effect
  | .requestPolled answer => c.requestPolled answer
  | .requestsDropped => ({ c with requests := none } : Call).release
  | .responsePolled answer => c.responsePolled answer
  | .responseWritten op => c.responseWritten op
  | .responsesDropped => ({ c with responses := none } : Call).release
  | .resolved outcome =>
    if c.running then
      let (c, effects) := c.settle outcome
      let (c, later) := ({ c with running := false } : Call).release
      (c, effects ++ later)
    else (c, [])
  | .abandoned => ({ c with running := false } : Call).release

-- The call after several steps, and the effects of all of them in order.
def run (c : Call) : List (CallEvent M) → Call × List Effect
  | [] => (c, [])
  | event :: events =>
    let (c, effects) := c.step event
    let (c, later) := c.run events
    (c, effects ++ later)

-- A run of some events after others.
theorem run_append (c : Call) (before after : List (CallEvent M)) :
    c.run (before ++ after) =
      ((((c.run before).1).run after).1, (c.run before).2 ++ (((c.run before).1).run after).2) := by
  induction before generalizing c with
  | nil => rfl
  | cons e before ih => simp only [List.cons_append, run, ih, List.append_assoc]

end Call

end CallTrace
