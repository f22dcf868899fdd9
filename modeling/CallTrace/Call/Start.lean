import CallTrace.Address
import CallTrace.Call.Basic

/-!
# Starting calls

A client call starts its span below the parent that its context names, or else below the active
span, and injects the span into the request's metadata.  A server call starts its span below the
parent that it finds in the metadata.  A fault in injection or extraction is logged and does not
stop the call.
-/

namespace CallTrace

/-- What a client knows of the call it makes. -/
structure ClientContext where
  method : String
  authority : Option String := none
  parent : Option SpanContext := none
deriving DecidableEq, Repr

/-- What a server knows of the call it handles. -/
structure ServerContext where
  method : String
  peer : Option Peer := none
deriving DecidableEq, Repr

inductive CallContext
  | client (ctx : ClientContext)
  | server (ctx : ServerContext)
deriving DecidableEq, Repr

/-- A call that has started: the number of its span, the call, and what starting it did. -/
structure StartedCall where
  span : Nat
  call : Call
  effects : List Effect

def callTags (config : Config) (kind : SpanKind) (type : MethodType) (method : String) :
    List (String × TagValue) :=
  [(TagKey.component, .text config.component), (TagKey.spanKind, .text kind.text),
    (TagKey.methodName, .text method), (TagKey.methodType, .text type.text)]

def peerTags (peer : Peer) : List (String × TagValue) :=
  let ipKey := match peer with
    | .v4 .. => TagKey.peerIPv4
    | .v6 .. => TagKey.peerIPv6
  [(TagKey.peerAddress, .text peer.text), (ipKey, .text peer.ipText),
    (TagKey.peerPort, .int (Int64.ofNat peer.port.toNat))]

namespace StartedCall

/--
A call on a span that was just started: the start is reported, then the setup, the first stage and a
single request are logged.
-/
def ofSpan {M : Type} [Payload M] (config : Config) (kind : SpanKind) (type : MethodType)
    (method : String) (span : Nat) (context : SpanContext) (setup : Option Error)
    (message : Option M) : StartedCall :=
  let log := CallLog.ofConfig config context
  let report : Report :=
    { severity := .debug
      message := kind.text ++ " span started"
      fields := [("method", method), ("span", context.traceparent)] }
  { span
    call := Call.ofLog kind type log
    effects :=
      .report report :: (log.opening setup ++ log.stage .callStarted ++
        (message.map log.request).getD []) }

end StartedCall

namespace Recorder

variable {M : Type} [Payload M]

/--
Starts a client call with its metadata and, if it is not a stream, its request; gives the metadata
that the transport is handed.
-/
def startClient (r : Recorder) (config : Config) (active : Option SpanContext) (ctx : ClientContext)
    (type : MethodType) (metadata : Metadata) (message : Option M) :
    Recorder × Metadata × StartedCall :=
  let options : SpanOptions :=
    { name := config.operationName .client ctx.method
      parent := ctx.parent.or active
      tags := callTags config .client type ctx.method ++
        ctx.authority.toList.map fun a => (TagKey.peerAddress, .text a) }
  let context := SpanContext.start options.parent r.ids r.records.length
  let (r, span) := r.start options
  let (metadata, injected) := r.inject context .httpHeaders metadata
  let setup := match injected with
    | .ok () => none
    | .error e => some e
  (r, metadata, StartedCall.ofSpan config .client type ctx.method span context setup message)

/-- Starts a server call on the metadata and, if it is not a stream, the request that came in. -/
def startServer (r : Recorder) (config : Config) (ctx : ServerContext) (type : MethodType)
    (metadata : Metadata) (message : Option M) : Recorder × StartedCall :=
  let (parent, setup) := match r.extract .httpHeaders metadata with
    | .ok parent => (parent, none)
    | .error e => (none, some e)
  let options : SpanOptions :=
    { name := config.operationName .server ctx.method
      parent
      tags := callTags config .server type ctx.method ++
        (TagKey.headers, .text metadata.headersText) :: (ctx.peer.map peerTags).getD [] }
  let context := SpanContext.start parent r.ids r.records.length
  let (r, span) := r.start options
  (r, StartedCall.ofSpan config .server type ctx.method span context setup message)

/-- Starts a call on either end; gives the metadata that its continuation is handed. -/
def startCall (r : Recorder) (config : Config) (active : Option SpanContext) (ctx : CallContext)
    (type : MethodType) (metadata : Metadata) (message : Option M) :
    Recorder × Metadata × StartedCall :=
  match ctx with
  | .client ctx => r.startClient config active ctx type metadata message
  | .server ctx =>
    let (r, started) := r.startServer config ctx type metadata message
    (r, metadata, started)

end Recorder

end CallTrace
