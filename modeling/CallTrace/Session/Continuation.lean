import CallTrace.Session.Exchange

/-!
# Continuations

What a call runs: the transport of a client call, or the handler of a server call.  A continuation
is a tree of the steps it takes, each step after the answers to those before.  Running it goes on
until it ends or has to wait; what waits can be resumed or let go.
-/

namespace CallTrace

inductive Return
  | reply (m : Message) (metadata : Metadata)
  | stream (answers : Script (Delivery Message)) (metadata : Metadata)
  -- The request stream comes back as the response stream.
  | echo (metadata : Metadata)
  | done
  | fault (s : Status)
deriving Repr

namespace Return

-- What a continuation returned, as its caller sees it.
def result : Return → CallResult
  | reply m metadata => .reply m metadata
  | stream _ metadata => .stream metadata
  | echo metadata => .stream metadata
  | done => .done
  | fault s => .fault s

/-- Whether a call of this kind and type can have the result; a fault it always can. -/
def fits (kind : SpanKind) (type : MethodType) : Return → Bool
  | reply _ _ => !type.streamsResponses
  | stream _ _ | echo _ => type.streamsResponses && kind == .client
  | done => type.streamsResponses && kind == .server
  | fault _ => true

-- A result as a call of this kind and type can have it.
def ofType (kind : SpanKind) (type : MethodType) : Return → Return
  | .fault s => .fault s
  | r =>
    if type.streamsResponses then
      match kind, r with
      | .server, _ => .done
      | .client, .stream answers metadata => .stream answers metadata
      | .client, .echo metadata => .echo metadata
      | .client, _ => .stream [] .empty
    else
      match r with
      | .reply m metadata => .reply m metadata
      | _ => .reply .unit .empty

variable {kind : SpanKind} {type : MethodType}

theorem ofType_of_fits {r : Return} (h : r.fits kind type = true) : r.ofType kind type = r := by
  cases r with
  | reply m metadata =>
    have hsingle : type.streamsResponses = false := by simpa [fits] using h
    simp [ofType, hsingle]
  | stream answers metadata =>
    obtain ⟨hstreams, rfl⟩ : type.streamsResponses = true ∧ kind = .client := by
      simpa [fits] using h
    simp [ofType, hstreams]
  | echo metadata =>
    obtain ⟨hstreams, rfl⟩ : type.streamsResponses = true ∧ kind = .client := by
      simpa [fits] using h
    simp [ofType, hstreams]
  | done =>
    obtain ⟨hstreams, rfl⟩ : type.streamsResponses = true ∧ kind = .server := by
      simpa [fits] using h
    simp [ofType, hstreams]
  | fault s => rfl

-- Whatever is returned, a call gets a result that it can have.
theorem fits_ofType (r : Return) : (r.ofType kind type).fits kind type = true := by
  cases r <;> cases kind <;> cases hstreams : type.streamsResponses <;>
    simp [ofType, fits, hstreams]

end Return

/-- The steps of a continuation; what is not there any more answers none. -/
inductive Continuation
  | resolve (r : Return)
  -- Waits once.
  | pause (next : Continuation)
  | note (n : Note) (next : Continuation)
  | noteCounts (next : Continuation)
  | hint (next : Option Nat → Continuation)
  -- Waits for the next answer of the request stream that is not pending.
  | pull (next : Option (Polled (Delivery Message)) → Continuation)
  -- Asks whether the continuation holds the writer of the sink.
  | holdsWriter (next : Bool → Continuation)
  -- Begins an operation on the sink and waits for its answer.
  | write (op : SinkOp Message) (next : Option (Except Status Unit) → Continuation)
  | dropRequests (next : Continuation)
  | dropWriter (next : Continuation)
  -- Keeps the request stream beyond the call.
  | keepRequests (name : String) (next : Continuation)
  -- Keeps the writer beyond the call.
  | keepWriter (name : String) (next : Continuation)
  -- Makes a call; gives its result and the messages that its sink has got.
  | call (spec : CallSpec) (body : Seen → Continuation)
      (next : CallResult → List Message → Continuation)

/-- A continuation that waits, and the step at which it does. -/
inductive Suspended
  -- Goes on from here.
  | paused (next : Continuation)
  -- Waits for the answer of an operation that has begun.
  | writing (ticket : OutletTicket Message) (next : Option (Except Status Unit) → Continuation)
  -- Waits for a call that has begun.
  | awaiting (call : Nat) (body : Suspended) (next : CallResult → List Message → Continuation)

inductive Progress
  | waiting (rest : Suspended)
  | ended (r : Return)

namespace Exchange

-- What the continuation of a call returned, as the call can have it.
def returned (x : Exchange) (call : Nat) (r : Return) : Return :=
  match x.calls[call]? with
  | none => r
  | some s => r.ofType s.kind s.type

-- Ends a call that hands a response stream to its caller.
def settleStream (x : Exchange) (call : Nat) (answers : Source) : Exchange × Source :=
  let x := (x.dropHeld call).tell call (.resolved .stream)
  (x, x.watch call .responses answers)

/--
Ends a call with what its continuation returned.  What the continuation still holds is let go, then
the call is settled; a response stream goes to the caller.
-/
def settle (x : Exchange) (call : Nat) (r : Return) : Exchange × CallResult × Option Source :=
  match x.returned call r with
  | .reply m metadata => ((x.dropHeld call).tell call (.resolved (.reply m)), .reply m metadata, none)
  | .done => ((x.dropHeld call).tell call (.resolved .done), .done, none)
  | .fault s => ((x.dropHeld call).tell call (.resolved (.fault s)), .fault s, none)
  | .stream answers metadata =>
    let (x, response) := x.settleStream call (.script answers)
    (x, .stream metadata, some response)
  | .echo metadata =>
    let (x, source) := x.takeRequests call
    let (x, response) := x.settleStream call (source.getD (.script []))
    (x, .stream metadata, some response)

def written (x : Exchange) (call : Nat) : List Message :=
  ((x.calls[call]?.bind CallState.outlet).map Outlet.collected).getD []

/-- Ends a nested call; its response stream is let go, and what its sink has got is given. -/
def settleNested (x : Exchange) (call : Nat) (r : Return) :
    Exchange × CallResult × List Message :=
  match x.settle call r with
  | (x, result, none) => (x, result, x.written call)
  | (x, result, some response) => (x.dropSource response, result, x.written call)

-- Lets a call go: first what its continuation holds.
def abandonOne (x : Exchange) (call : Nat) : Exchange := (x.dropHeld call).tell call .abandoned

/-- Lets a call that waits go: the innermost call first, each with what it holds. -/
def abandon (x : Exchange) (call : Nat) : Suspended → Exchange
  | .awaiting nested body _ => (x.abandon nested body).abandonOne call
  | .paused _ => x.abandonOne call
  | .writing _ _ => x.abandonOne call

-- Runs the continuation of a call until it ends or has to wait.
def run (x : Exchange) (call : Nat) : Continuation → Exchange × Progress
  | .resolve r => (x, .ended r)
  | .pause next => (x, .waiting (.paused next))
  | .note n next => (x.note n).run call next
  | .noteCounts next => (x.note (.counts x.recorder.counts)).run call next
  | .hint next => x.run call (next ((x.requests? call).map Source.size))
  | .pull next =>
    match x.pull call with
    | (x, some .pending) => (x, .waiting (.paused (.pull next)))
    | (x, answer) => x.run call (next answer)
  | .holdsWriter next => x.run call (next (x.holdsWriter call))
  | .write op next =>
    match x.writeHeld call op with
    | (x, none) => x.run call (next none)
    | (x, some (.answered a)) => x.run call (next (some a))
    | (x, some (.waiting ticket)) => (x, .waiting (.writing ticket next))
  | .dropRequests next => (x.dropRequests call).run call next
  | .dropWriter next => (x.dropWriter call).run call next
  | .keepRequests name next => (x.keepRequests call name).run call next
  | .keepWriter name next => (x.keepWriter call name).run call next
  | .call spec body next =>
    let (x, nested, seen) := x.startCall (some call) none spec
    match x.run nested (body seen) with
    | (x, .ended r) =>
      let (x, result, written) := x.settleNested nested r
      x.run call (next result written)
    | (x, .waiting rest) => (x, .waiting (.awaiting nested rest next))

def resume (x : Exchange) (call : Nat) : Suspended → Exchange × Progress
  | .paused next => x.run call next
  | .writing ticket next =>
    match x.attemptWrite call ticket with
    | (x, .answered a) => x.run call (next (some a))
    | (x, .waiting ticket) => (x, .waiting (.writing ticket next))
  | .awaiting nested body next =>
    match x.resume nested body with
    | (x, .ended r) =>
      let (x, result, written) := x.settleNested nested r
      x.run call (next result written)
    | (x, .waiting rest) => (x, .waiting (.awaiting nested rest next))

end Exchange

end CallTrace
