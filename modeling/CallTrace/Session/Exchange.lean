import CallTrace.Session.Tracing
import CallTrace.Table

/-!
# Exchanges

Calls in progress, with the streams and sinks that their continuations hold and those that are kept
beyond a continuation.
-/

namespace CallTrace

/-- Which context a new span is to descend from. -/
inductive Parent
  | none
  | context (ctx : SpanContext)
  -- The context of a span that has been given this name.
  | span (name : String)
  -- The server context that the enclosing continuation sees.
  | enclosing
deriving Repr

inductive Requests
  | single (m : Message)
  | stream (s : Script (Delivery Message))
  -- Metadata, message and request stream of the enclosing call.
  | forwarded
deriving Repr

structure CallSpec where
  name : Option String := none
  kind : SpanKind
  type : MethodType
  method : String
  authority : Option String := none
  parent : Parent := .none
  peer : Option Peer := none
  metadata : Metadata := .empty
  requests : Requests
  outlet : Option (Outlet Message) := none

/-- The sink of a call: a server that streams its responses has one, and no other call does. -/
def CallSpec.sink (spec : CallSpec) : Option (Outlet Message) :=
  match spec.kind with
  | .client => none
  | .server => if spec.type.streamsResponses then some (spec.outlet.getD (.scripted {})) else none

/-- The request of a call: metadata, and a message or a stream. -/
structure CallRequest where
  metadata : Metadata
  message : Option Message := none
  stream : Option Source := none

/-- The request as a type of call has it: a stream, or else one message. -/
def CallRequest.ofType (type : MethodType) (r : CallRequest) : CallRequest :=
  if type.streamsRequests then
    { r with message := none, stream := some (r.stream.getD (.script [])) }
  else { r with message := some (r.message.getD .unit), stream := none }

/-- How a call ended, as its caller sees it. -/
inductive CallResult
  | reply (m : Message) (metadata : Metadata)
  | stream (metadata : Metadata)
  | done
  | fault (s : Status)
deriving Repr

/-- What a continuation is handed when it starts. -/
structure Seen where
  metadata : Metadata
  -- The context of the server span, for a server's handler.
  context : Option SpanContext
  message : Option Message

inductive Note
  | seen (seen : Seen)
  | counts (counts : Counts)
  | hint (size : Option Nat)
  | pulled (answer : Option (Polled (Delivery Message)))
  | wrote (action : String) (answer : Option (Except Status Unit))
  | called (result : CallResult)
  | serving
  | served (result : CallResult)

/-- A call in progress, and what its continuation holds. -/
structure CallState where
  kind : SpanKind
  type : MethodType
  metadata : Metadata
  message : Option Message
  -- The request stream while the continuation holds it.
  requests : Option Source
  -- Whether the continuation holds the writer of the sink.
  writer : Bool
  outlet : Option (Outlet Message)

structure Exchange extends Tracing where
  calls : List CallState := []
  -- Request streams that outlive their continuation.
  keptStreams : Table Source := {}
  -- Writers that outlive their continuation, by the number of the call.
  keptWriters : Table Nat := {}
  -- Spans that have been given a name.
  spanNames : Table Nat := {}
  -- Calls whose sink can be reached by name.
  outletNames : Table Nat := {}
  notes : List Note := []

namespace Exchange

def note (x : Exchange) (n : Note) : Exchange := { x with notes := x.notes ++ [n] }

def update (x : Exchange) (call : Nat) (change : CallState → CallState) : Exchange :=
  { x with calls := x.calls.modify call change }

def tell (x : Exchange) (call : Nat) (event : CallEvent Message) : Exchange :=
  { x with toTracing := x.toTracing.tell call event }

/-! ## Streams -/

def poll (x : Exchange) (source : Source) : Exchange × Source × Polled (Delivery Message) :=
  let (t, source, answer) := x.toTracing.poll source
  ({ x with toTracing := t }, source, answer)

def dropSource (x : Exchange) (source : Source) : Exchange :=
  { x with toTracing := x.toTracing.dropSource source }

-- The request stream of a call, if its continuation holds it.
def requests? (x : Exchange) (call : Nat) : Option Source :=
  x.calls[call]?.bind CallState.requests

def takeRequests (x : Exchange) (call : Nat) : Exchange × Option Source :=
  (x.update call fun s => { s with requests := none }, x.requests? call)

def giveRequests (x : Exchange) (call : Nat) (source : Source) : Exchange :=
  x.update call fun s => { s with requests := some source }

def dropRequests (x : Exchange) (call : Nat) : Exchange :=
  match x.takeRequests call with
  | (x, none) => x
  | (x, some source) => x.dropSource source

-- Polls the request stream of a call, if its continuation holds it.
def pull (x : Exchange) (call : Nat) : Exchange × Option (Polled (Delivery Message)) :=
  match x.takeRequests call with
  | (x, none) => (x, none)
  | (x, some source) =>
    let (x, source, answer) := x.poll source
    (x.giveRequests call source, some answer)

/-- Keeps a stream under a name; one of that name before it is let go. -/
def keepStream (x : Exchange) (name : String) (source : Source) : Exchange :=
  let old := x.keptStreams.find? name
  let x := { x with keptStreams := x.keptStreams.set name source }
  match old with
  | none => x
  | some old => x.dropSource old

-- Keeps the request stream of a call, if its continuation holds it.
def keepRequests (x : Exchange) (call : Nat) (name : String) : Exchange :=
  match x.takeRequests call with
  | (x, none) => x
  | (x, some source) => x.keepStream name source

/-! ## Sinks -/

/-- Begins an operation on the sink of a call; the call is told first. -/
def startWrite (x : Exchange) (call : Nat) (op : SinkOp Message) :
    Exchange × Option (OutletTicket Message) :=
  let x := x.tell call (.responseWritten op)
  match x.calls[call]?.bind CallState.outlet with
  | none => (x, none)
  | some outlet =>
    let (outlet, ticket) := outlet.start op
    (x.update call fun s => { s with outlet := some outlet }, some ticket)

def attemptWrite (x : Exchange) (call : Nat) (ticket : OutletTicket Message) :
    Exchange × Attempt (OutletTicket Message) :=
  match x.calls[call]?.bind CallState.outlet with
  | none => (x, .waiting ticket)
  | some outlet =>
    let (outlet, result) := outlet.attempt ticket
    (x.update call fun s => { s with outlet := some outlet }, result)

-- Begins an operation on the sink of a call and attempts it once.
def writeOnce (x : Exchange) (call : Nat) (op : SinkOp Message) :
    Exchange × Option (Attempt (OutletTicket Message)) :=
  match x.startWrite call op with
  | (x, none) => (x, none)
  | (x, some ticket) =>
    let (x, result) := x.attemptWrite call ticket
    (x, some result)

/-- Lets the writer of a call go: the call is told, and the sink loses its writer. -/
def releaseWriter (x : Exchange) (call : Nat) : Exchange :=
  (x.update call fun s => { s with outlet := s.outlet.map Outlet.disconnect }).tell call
    .responsesDropped

-- Whether the continuation of a call holds the writer of its sink.
def holdsWriter (x : Exchange) (call : Nat) : Bool :=
  (x.calls[call]?.map CallState.writer).getD false

/-- Takes the writer from the continuation of a call; tells whether it was there. -/
def takeWriter (x : Exchange) (call : Nat) : Exchange × Bool :=
  (x.update call fun s => { s with writer := false }, x.holdsWriter call)

def dropWriter (x : Exchange) (call : Nat) : Exchange :=
  match x.takeWriter call with
  | (x, false) => x
  | (x, true) => x.releaseWriter call

/-- Keeps a writer under a name; one of that name before it is let go. -/
def keepWriterOf (x : Exchange) (name : String) (call : Nat) : Exchange :=
  let old := x.keptWriters.find? name
  let x := { x with keptWriters := x.keptWriters.set name call }
  match old with
  | none => x
  | some old => x.releaseWriter old

-- Keeps the writer of a call, if its continuation holds it.
def keepWriter (x : Exchange) (call : Nat) (name : String) : Exchange :=
  match x.takeWriter call with
  | (x, false) => x
  | (x, true) => x.keepWriterOf name call

-- Begins an operation on the sink of a call, if its continuation holds the writer.
def writeHeld (x : Exchange) (call : Nat) (op : SinkOp Message) :
    Exchange × Option (Attempt (OutletTicket Message)) :=
  if x.holdsWriter call then x.writeOnce call op else (x, none)

def dropHeld (x : Exchange) (call : Nat) : Exchange := (x.dropRequests call).dropWriter call

/-! ## Starting calls -/

-- The context that a parent stands for, seen from a continuation with this server context.
def parentContext? (x : Exchange) (enclosing : Option SpanContext) : Parent → Option SpanContext
  | .none => none
  | .context ctx => some ctx
  | .span name => (x.spanNames.find? name).bind x.recorder.context?
  | .enclosing => enclosing

/-- The request that a call is given; one that is forwarded leaves its stream to the new call. -/
def takeRequest (x : Exchange) (caller : Option Nat) (spec : CallSpec) : Exchange × CallRequest :=
  match spec.requests with
  | .single m => (x, { metadata := spec.metadata, message := some m })
  | .stream s => (x, { metadata := spec.metadata, stream := some (.script s) })
  | .forwarded =>
    match caller.bind fun id => x.calls[id]?.map (id, ·) with
    | none => (x, { metadata := spec.metadata })
    | some (id, s) =>
      if spec.type.streamsRequests then
        let (x, stream) := x.takeRequests id
        (x, { metadata := s.metadata, stream })
      else (x, { metadata := s.metadata, message := s.message })

/-- Gives the sink of a call a name; a sink that had the name loses its receiver. -/
def nameOutlet (x : Exchange) (name : String) (call : Nat) : Exchange :=
  let x := match x.outletNames.find? name with
    | none => x
    | some old => x.update old fun s => { s with outlet := s.outlet.map Outlet.close }
  { x with outletNames := x.outletNames.set name call }

/-- What the end of a call that is to be made or handled knows of it. -/
def contextOf (spec : CallSpec) (parent : Option SpanContext) : CallContext :=
  match spec.kind with
  | .client => .client { method := spec.method, authority := spec.authority, parent }
  | .server => .server { method := spec.method, peer := spec.peer }

/-- Starts a call on its request; gives its number and what its continuation is handed. -/
def startOn (x : Exchange) (parent : Option SpanContext) (spec : CallSpec)
    (request : CallRequest) : Exchange × Nat × Seen :=
  let call := x.calls.length
  let (t, metadata, context) :=
    x.toTracing.start (contextOf spec parent) spec.type request.metadata request.message
  let state : CallState :=
    { kind := spec.kind, type := spec.type, metadata, message := request.message
      requests := request.stream.map (t.watch call .requests)
      writer := spec.sink.isSome, outlet := spec.sink }
  let x := { x with toTracing := t, calls := x.calls ++ [state] }
  let x := match spec.name, spec.sink with
    | some name, some _ => x.nameOutlet name call
    | _, _ => x
  -- The span of a client is known to nobody but the tracing layer.
  let context := match spec.kind with
    | .client => none
    | .server => context
  (x, call, { metadata, context, message := request.message })

-- Starts a call; gives its number and what its continuation is handed.
def startCall (x : Exchange) (caller : Option Nat) (enclosing : Option SpanContext)
    (spec : CallSpec) : Exchange × Nat × Seen :=
  let parent := x.parentContext? enclosing spec.parent
  let (x, request) := x.takeRequest caller spec
  x.startOn parent spec (request.ofType spec.type)

end Exchange

end CallTrace
