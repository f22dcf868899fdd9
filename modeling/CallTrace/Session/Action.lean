import CallTrace.Session.Continuation

/-!
# Actions

Continuations that follow a list of actions.  Every answer is noted; an action that minds faults
ends the continuation with the first one.
-/

namespace CallTrace

/-- What an action does about a fault: it goes on, or it ends the continuation. -/
inductive FaultPolicy
  | ignore
  | stop
deriving DecidableEq, Repr

/-- The result that an action asks for; what the call cannot return is passed over. -/
structure ReturnSpec where
  fault : Option Status := none
  message : Option Message := none
  answers : Option (Script (Delivery Message)) := none
  metadata : Metadata := .empty
deriving Repr

inductive Action
  | pause
  | counts
  | hint
  | pull (policy : FaultPolicy)
  | pullAll (policy : FaultPolicy)
  -- Writes every request as a response, up to the first fault on either side. Without the request
  -- stream, or else without the writer, nothing is pulled and what is missing is noted.
  | echo
  | write (m : Message) (policy : FaultPolicy)
  | complete (policy : FaultPolicy)
  | dropStream
  | dropWriter
  | keepStream (name : String)
  | keepWriter (name : String)
  | call (spec : CallSpec) (body : List Action)
  -- Hands the request to a server call of the same type and returns its result.
  | serve (method : String) (peer : Option Peer) (body : List Action)
  | return (spec : ReturnSpec)
  | returnEcho

namespace Action

/-- The kind and type of a call, and what its continuation was handed. -/
structure Scene where
  kind : SpanKind
  type : MethodType
  seen : Seen

namespace Scene

-- The end of a continuation as the type of the call allows it.
def returning (scene : Scene) (spec : ReturnSpec) : Return :=
  match spec.fault with
  | some s => .fault s
  | none =>
    if scene.type.streamsResponses then
      match scene.kind with
      | .client => .stream (spec.answers.getD []) spec.metadata
      | .server => .done
    else .reply (spec.message.getD .unit) spec.metadata

-- The request comes back, as a message or as a stream.
def returningRequest (scene : Scene) : Return :=
  match scene.kind, scene.type with
  | .client, .bidiStreaming => .echo .empty
  | _, _ => scene.returning { message := scene.seen.message }

-- The end of a client continuation that a server call has served.
def returningServed (scene : Scene) (result : CallResult) (written : List Message) : Return :=
  let messages : Script (Delivery Message) := written.map fun m => .item (.ok m)
  match result with
  | .reply m metadata => .reply m metadata
  | .fault s =>
    if scene.type.streamsResponses then .stream (messages ++ [.item (.error s)]) .empty
    else .fault s
  | .stream _ | .done => .stream messages .empty

/-- A call that is made in the scene: an enclosing parent is the server context seen there. -/
def callSpec (scene : Scene) (spec : CallSpec) : CallSpec :=
  match spec.parent with
  | .enclosing => { spec with parent := (scene.seen.context.map Parent.context).getD .none }
  | _ => spec

-- The server call that serves the requests of a client call.
def serverSpec (scene : Scene) (method : String) (peer : Option Peer) : CallSpec :=
  { kind := .server, type := scene.type, method, peer, requests := .forwarded
    outlet := if scene.type.streamsResponses then some (.scripted {}) else none }

end Scene

-- Ends with a fault under the strict policy and goes on otherwise.
def orStop (policy : FaultPolicy) (fault : Option Status) (next : Continuation) : Continuation :=
  match policy, fault with
  | .stop, some s => .resolve (.fault s)
  | _, _ => next

def pulledFault? : Option (Polled (Delivery Message)) → Option Status
  | some (.item (.error s)) => some s
  | _ => none

def writeFault? : Option (Except Status Unit) → Option Status
  | some (.error s) => some s
  | _ => none

def pullOne (policy : FaultPolicy) (next : Continuation) : Continuation :=
  .pull fun answer => .note (.pulled answer) (orStop policy (pulledFault? answer) next)

-- Pulls at most so many answers, up to the end of the stream.
def pullUpTo (policy : FaultPolicy) (next : Continuation) : Nat → Continuation
  | 0 => next
  | n + 1 =>
    .pull fun answer => .note (.pulled answer) <|
      match answer with
      | some (.item _) => orStop policy (pulledFault? answer) (pullUpTo policy next n)
      | _ => next

/-- Pulls at most so many answers and writes the messages among them to a writer that is held. -/
def echoUpTo (next : Continuation) : Nat → Continuation
  | 0 => next
  | n + 1 =>
    .pull fun answer => .note (.pulled answer) <|
      match answer with
      | some (.item (.ok m)) =>
        .write (.write m) fun
          | some (.ok ()) => echoUpTo next n
          | some (.error s) => .resolve (.fault s)
          | none => next
      | some (.item (.error s)) => .resolve (.fault s)
      | _ => next

-- Echoes the requests, if the request stream and the writer are both held.
def echoAll (next : Continuation) : Continuation :=
  .hint fun
    | none => .note (.pulled none) next
    | some size => .holdsWriter fun held =>
      -- A stream of n answers ends with the next one at the latest.
      if held then echoUpTo next (size + 1) else .note (.wrote "echo" none) next

-- An operation on the sink, noted under the name of its action.
def writeOne (name : String) (op : SinkOp Message) (policy : FaultPolicy) (next : Continuation) :
    Continuation :=
  .write op fun a =>
    .note (.wrote (match policy with | .ignore => name | .stop => "try_" ++ name) a)
      (orStop policy (writeFault? a) next)

mutual

def plan (scene : Scene) (next : Continuation) : Action → Continuation
  | pause => .pause next
  | counts => .noteCounts next
  | hint => .hint fun size => .note (.hint size) next
  | pull policy => pullOne policy next
  -- A stream of n answers ends with the next one at the latest.
  | pullAll policy => .hint fun size => pullUpTo policy next (size.getD 0 + 1)
  | echo => echoAll next
  | write m policy => writeOne "write" (.write m) policy next
  | complete policy => writeOne "complete" .complete policy next
  | dropStream => .dropRequests next
  | dropWriter => .dropWriter next
  | keepStream name => .keepRequests name next
  | keepWriter name => .keepWriter name next
  | call spec body =>
    .call (scene.callSpec spec)
      (fun seen => .note (.seen seen) (planAll { kind := spec.kind, type := spec.type, seen } body))
      (fun result _ => .note (.called result) next)
  | serve method peer body =>
    .note .serving <| .call (scene.serverSpec method peer)
      (fun seen => .note (.seen seen) (planAll { kind := .server, type := scene.type, seen } body))
      (fun result written =>
        .note (.served result) (.resolve (scene.returningServed result written)))
  | .return spec => .resolve (scene.returning spec)
  | returnEcho => .resolve scene.returningRequest

/-- The steps of actions in order; without a result the call returns an empty one. -/
def planAll (scene : Scene) : List Action → Continuation
  | [] => .resolve (scene.returning {})
  | action :: rest => plan scene (planAll scene rest) action

end

def continuation (kind : SpanKind) (type : MethodType) (actions : List Action) (seen : Seen) :
    Continuation :=
  .note (.seen seen) (planAll { kind, type, seen } actions)

end Action

end CallTrace
