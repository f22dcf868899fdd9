import CallTrace.Session.Action

/-!
# Sessions

A session is an exchange driven from outside, step by step.  It keeps under names what the steps
leave behind: suspended calls, response streams, logs and spans.  At its end it lets go what is
left.
-/

namespace CallTrace

/-- The log of a call that is used by itself, with the number of its span. -/
structure OpenLog where
  span : Nat
  log : CallLog

/-- An exchange with everything that is held by name. -/
structure Session where
  exchange : Exchange
  -- Calls whose continuation waits.
  waiting : Table (Nat × Suspended) := {}
  -- Response streams that the caller holds, with the number of the call.
  responses : Table (Nat × Source) := {}
  logs : Table OpenLog := {}
  -- The metadata that contexts are injected into and extracted from.
  carrier : Metadata := .empty
  -- The numbers of the spans that have been seen finished.
  seenFinished : List Nat := []

inductive Answer
  | done
  | absent
  | flag (b : Bool)
  | text (s : String)
  | size (n : Nat)
  | context (ctx : Option SpanContext)
  | extracted (result : Except Error (Option SpanContext))
  | injected (result : Except Error Unit) (carrier : Metadata)
  | span (span : Option (Nat × SpanRecord))
  | spans (spans : List (Nat × SpanRecord))
  | started (options : SpanOptions) (context : SpanContext)
  | opened (fallback : Bool) (context : SpanContext) (outline : String)
  | polled (answer : Polled (Delivery Message))
  | drained (answers : List (Polled (Delivery Message)))
  | suspended
  | ended (result : CallResult)
  | attempted (result : Attempt (OutletTicket Message))
  | received (r : Received Message)

/-- What one step shows: its answer and everything that happened. -/
structure Entry where
  answer : Answer
  counts : Counts
  notes : List Note
  finishedNow : List (Nat × SpanRecord)
  reports : List Report

namespace Session

def withRecorder (s : Session) (f : Recorder → Recorder) : Session :=
  { s with exchange := { s.exchange with recorder := f s.exchange.recorder } }

def recorder (s : Session) : Recorder := s.exchange.recorder

def onSpan (s : Session) (name : String) (op : SpanOp) : Session × Answer :=
  match s.exchange.spanNames.find? name with
  | none => (s, .absent)
  | some span => (s.withRecorder fun r => r.apply span op, .done)

def releaseCall (s : Session) (held : Nat × Suspended) : Session :=
  { s with exchange := s.exchange.abandon held.1 held.2 }

def releaseResponse (s : Session) (source : Source) : Session :=
  { s with exchange := s.exchange.dropSource source }

def perform (s : Session) (span : Nat) (effects : List Effect) : Session :=
  { s with exchange := { s.exchange with toTracing := s.exchange.toTracing.perform span effects } }

-- Does something with a log that has a name, and answers whether it is finished.
def onLog (s : Session) (name : String) (f : CallLog → CallLog × List Effect) : Session × Answer :=
  match s.logs.find? name with
  | none => (s, .absent)
  | some l =>
    let (log, effects) := f l.log
    ({ s with logs := s.logs.set name { l with log } }.perform l.span effects, .flag log.finished)

def releaseLog (s : Session) (l : OpenLog) : Session := s.perform l.span l.log.drop.2

/-- Opens a log on a new span without parent; one of that name before it is given up. -/
def openLog (s : Session) (as name : String) (config : Config) (fallback : Option Error) :
    Session × Answer :=
  let options : SpanOptions := { name }
  let (recorder, span) := s.recorder.start options
  match recorder.context? span with
  | none => (s, .absent)
  | some context =>
    let log := CallLog.ofConfig config context
    let old := s.logs.find? as
    let s := { s.withRecorder (fun _ => recorder) with logs := s.logs.set as { span, log } }
    let s := s.perform span (log.opening fallback)
    let s := match old with
      | some l => s.releaseLog l
      | none => s
    (s, .opened fallback.isSome context (CallLog.setupOutline context fallback))

def startSpan (s : Session) (as : String) (name : String) (parent : Parent)
    (tags : List (String × TagValue)) : Session × Answer :=
  let options : SpanOptions := { name, parent := s.exchange.parentContext? none parent, tags }
  let (recorder, span) := s.recorder.start options
  match recorder.context? span with
  | none => (s, .absent)
  | some context =>
    let exchange := { s.exchange with
      recorder, spanNames := s.exchange.spanNames.set as span }
    ({ s with exchange }, .started options context)

/-- Keeps a call that waits under a name; one of that name before it is let go. -/
def suspend (s : Session) (name : String) (held : Nat × Suspended) : Session :=
  let old := s.waiting.find? name
  let s := { s with waiting := s.waiting.set name held }
  match old with
  | none => s
  | some old => s.releaseCall old

/-- Keeps a response stream under a name; one of that name before it is let go. -/
def keepResponse (s : Session) (name : String) (response : Nat × Source) : Session :=
  let old := s.responses.find? name
  let s := { s with responses := s.responses.set name response }
  match old with
  | none => s
  | some old => s.releaseResponse old.2

def conclude (s : Session) (name : String) (call : Nat) : Exchange × Progress → Session × Answer
  | (exchange, .waiting rest) => ({ s with exchange }.suspend name (call, rest), .suspended)
  | (exchange, .ended r) =>
    match exchange.settle call r with
    | (exchange, result, none) => ({ s with exchange }, .ended result)
    | (exchange, result, some source) =>
      ({ s with exchange }.keepResponse name (call, source), .ended result)

/-- Starts a call and runs its continuation, made from what it is handed, for the first time. -/
def begin (s : Session) (name : String) (spec : CallSpec) (body : Seen → Continuation) :
    Session × Answer :=
  let (x, call, seen) := s.exchange.startCall none none spec
  s.conclude name call (x.run call (body seen))

def call (s : Session) (name : String) (spec : CallSpec) (actions : List Action) :
    Session × Answer :=
  s.begin name spec (Action.continuation spec.kind spec.type actions)

def resume (s : Session) (name : String) : Session × Answer :=
  match s.waiting.find? name with
  | none => (s, .absent)
  | some (call, rest) =>
    { s with waiting := s.waiting.erase name }.conclude name call (s.exchange.resume call rest)

def dropCall (s : Session) (name : String) : Session × Answer :=
  match s.waiting.find? name with
  | none => (s, .absent)
  | some held => ({ s with waiting := s.waiting.erase name }.releaseCall held, .done)

def dropStream (s : Session) (name : String) : Session × Answer :=
  match s.responses.find? name with
  | none => (s, .absent)
  | some (_, source) =>
    ({ s with responses := s.responses.erase name }.releaseResponse source, .done)

-- Polls a response stream once, or until it gives no message.
def pollResponse (s : Session) (name : String) (all : Bool) : Session × Answer :=
  match s.responses.find? name with
  | none => (s, .absent)
  | some (call, source) =>
    let (t, source, answers) :=
      s.exchange.toTracing.pollWhile source (if all then source.size + 1 else 1)
    let s := { s with
      exchange := { s.exchange with toTracing := t }
      responses := s.responses.set name (call, source) }
    if all then (s, .drained answers)
    else
      match answers with
      | answer :: _ => (s, .polled answer)
      | [] => (s, .absent)

-- Takes a response stream out of its watch and polls it once more.
def unwrapStream (s : Session) (name : String) : Session × Answer :=
  match s.responses.find? name with
  | none => (s, .absent)
  | some (_, source) =>
    let (t, inner) := s.exchange.toTracing.unwatch source
    let (t, inner, answer) := t.poll inner
    let exchange := { s.exchange with toTracing := t.dropSource inner }
    ({ s with exchange, responses := s.responses.erase name }, .polled answer)

-- Whether the watch of a response stream has seen its end.
def terminated (s : Session) (name : String) : Answer :=
  match s.responses.find? name with
  | none => .absent
  | some (call, _) =>
    match s.exchange.tracedCall? call with
    | some { call := { responses := some (.reader w), .. }, .. } => .flag w.terminated
    | _ => .absent

def onOutlet (s : Session) (name : String)
    (f : Outlet Message → Outlet Message × Answer) : Session × Answer :=
  match s.exchange.outletNames.find? name with
  | none => (s, .absent)
  | some call =>
    match s.exchange.calls[call]?.bind CallState.outlet with
    | none => (s, .absent)
    | some outlet =>
      let (outlet, answer) := f outlet
      ({ s with exchange := s.exchange.update call fun c => { c with outlet := some outlet } },
        answer)

def pollKept (s : Session) (name : String) : Session × Answer :=
  match s.exchange.keptStreams.find? name with
  | none => (s, .absent)
  | some source =>
    let (x, source, answer) := s.exchange.poll source
    ({ s with exchange := { x with keptStreams := x.keptStreams.set name source } },
      .polled answer)

-- Begins an operation with a kept writer and attempts it once.
def writeKept (s : Session) (name : String) (op : SinkOp Message) : Session × Answer :=
  match s.exchange.keptWriters.find? name with
  | none => (s, .absent)
  | some call =>
    match s.exchange.writeOnce call op with
    | (x, some result) => ({ s with exchange := x }, .attempted result)
    | (x, none) => ({ s with exchange := x }, .absent)

-- Lets the kept stream of a name go, if there is one.
def dropKeptStream (s : Session) (name : String) : Session × Bool :=
  match s.exchange.keptStreams.find? name with
  | none => (s, false)
  | some source =>
    let x := { s.exchange with keptStreams := s.exchange.keptStreams.erase name }
    ({ s with exchange := x.dropSource source }, true)

-- Lets the kept writer of a name go, if there is one.
def dropKeptWriter (s : Session) (name : String) : Session × Bool :=
  match s.exchange.keptWriters.find? name with
  | none => (s, false)
  | some call =>
    let x := { s.exchange with keptWriters := s.exchange.keptWriters.erase name }
    ({ s with exchange := x.releaseWriter call }, true)

-- Lets the kept stream and the kept writer of a name go.
def dropKept (s : Session) (name : String) : Session × Answer :=
  let (s, stream) := s.dropKeptStream name
  let (s, writer) := s.dropKeptWriter name
  (s, if stream || writer then .done else .absent)

/-! ## The end of a session -/

def closeCalls (s : Session) : Session :=
  s.waiting.sorted.foldl (fun s e => s.releaseCall e.2) { s with waiting := {} }

def closeResponses (s : Session) : Session :=
  s.responses.sorted.foldl (fun s e => s.releaseResponse e.2.2) { s with responses := {} }

def closeLogs (s : Session) : Session :=
  s.logs.sorted.foldl (fun s e => s.releaseLog e.2) { s with logs := {} }

def closeStreams (s : Session) : Session :=
  let x := { s.exchange with keptStreams := {} }
  { s with exchange := s.exchange.keptStreams.sorted.foldl (fun x e => x.dropSource e.2) x }

def closeWriters (s : Session) : Session :=
  let x := { s.exchange with keptWriters := {} }
  { s with exchange := s.exchange.keptWriters.sorted.foldl (fun x e => x.releaseWriter e.2) x }

/-- Lets go what is held, each sort in the order of names: calls, responses, logs, kept ends. -/
def close (s : Session) : Session :=
  s.closeCalls.closeResponses.closeLogs.closeStreams.closeWriters

end Session

end CallTrace
