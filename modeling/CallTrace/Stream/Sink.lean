import CallTrace.Message
import CallTrace.Stream.Basic

/-!
# Sinks

A sink takes the messages of a response stream.  A write is begun once and then attempted until the
sink has taken or refused the message; one that is given up between two attempts is lost.
-/

namespace CallTrace

/-- What a writer asks of a sink. -/
inductive SinkOp (M : Type)
  | write (m : M)
  | complete
deriving Repr

/-- What an attempt gives: a reason to try again later, or the sink's answer. -/
inductive Attempt (τ : Type)
  | waiting (ticket : τ)
  | answered (answer : Except Status Unit)

/-- Sinks of a type; a ticket stands for an operation under way. -/
class Sink (κ : Type) (τ M : outParam Type) where
  start : κ → SinkOp M → κ × τ
  attempt : κ → τ → κ × Attempt τ

/-! ## Bounded channels -/

/-- A bounded channel between the writer and the receiver of a response stream. -/
structure Channel (M : Type) where
  capacity : Nat
  queue : List M := []
  -- Whether the receiver is gone.
  closed : Bool := false
  -- Whether the writer is there.
  connected : Bool := true
deriving Repr

namespace Channel

variable {M : Type}

def closedStatus : Status := .cancelled "response stream receiver dropped"

/-- A message goes in when there is room; a channel without receiver takes none. -/
def attempt (c : Channel M) (op : SinkOp M) : Channel M × Attempt (SinkOp M) :=
  match op with
  | .complete => (c, .answered (.ok ()))
  | .write m =>
    if c.closed then (c, .answered (.error closedStatus))
    else if c.queue.length < c.capacity then
      ({ c with queue := c.queue ++ [m] }, .answered (.ok ()))
    else (c, .waiting (.write m))

instance : Sink (Channel M) (SinkOp M) M := ⟨fun c op => (c, op), attempt⟩

end Channel

/-! ## Scripted sinks -/

/-- A sink whose answers are laid down for the number of each write. -/
structure ScriptedSink (M : Type) where
  -- The writes that wait once.
  slow : List Nat := []
  failures : List (Nat × Status) := []
  completeFailure : Option Status := none
  -- Whether the sink looks at completion at all.
  seesComplete : Bool := true
  begun : Nat := 0
  received : List M := []
  completed : Nat := 0
deriving Repr

/-- A write under way: its number, and whether it has waited. -/
inductive ScriptedTicket (M : Type)
  | write (number : Nat) (waited : Bool) (m : M)
  | complete
deriving Repr

namespace ScriptedSink

variable {M : Type}

def start (s : ScriptedSink M) : SinkOp M → ScriptedSink M × ScriptedTicket M
  | .write m => ({ s with begun := s.begun + 1 }, .write s.begun false m)
  | .complete => (s, .complete)

def attempt (s : ScriptedSink M) :
    ScriptedTicket M → ScriptedSink M × Attempt (ScriptedTicket M)
  | .write number waited m =>
    if s.slow.contains number && !waited then (s, .waiting (.write number true m))
    else
      match (s.failures.find? (·.1 == number)).map (·.2) with
      | some status => (s, .answered (.error status))
      | none => ({ s with received := s.received ++ [m] }, .answered (.ok ()))
  | .complete =>
    if s.seesComplete then
      ({ s with completed := s.completed + 1 },
        .answered (match s.completeFailure with | some status => .error status | none => .ok ()))
    else (s, .answered (.ok ()))

instance : Sink (ScriptedSink M) (ScriptedTicket M) M := ⟨start, attempt⟩

end ScriptedSink

/-! ## The sinks of a call -/

/-- The sinks that a call can be given. -/
inductive Outlet (M : Type)
  | channel (c : Channel M)
  | scripted (s : ScriptedSink M)
deriving Repr

/-- An operation under way in one of the sinks of a call. -/
inductive OutletTicket (M : Type)
  | channel (op : SinkOp M)
  | scripted (ticket : ScriptedTicket M)
deriving Repr

/-- What the receiving end of a sink sees. -/
inductive Received (M : Type)
  | message (m : M)
  | empty
  | disconnected
  | closed
  | collected (messages : List M) (completed : Nat)
deriving Repr

namespace Outlet

variable {M : Type}

def start : Outlet M → SinkOp M → Outlet M × OutletTicket M
  | channel c, op => (channel c, .channel op)
  | scripted s, op =>
    let (s, ticket) := s.start op
    (scripted s, .scripted ticket)

/-- A ticket of the other sort of sink cannot be used; the attempt then waits for ever. -/
def attempt : Outlet M → OutletTicket M → Outlet M × Attempt (OutletTicket M)
  | channel c, .channel op =>
    match c.attempt op with
    | (c, .waiting op) => (channel c, .waiting (.channel op))
    | (c, .answered a) => (channel c, .answered a)
  | scripted s, .scripted ticket =>
    match s.attempt ticket with
    | (s, .waiting ticket) => (scripted s, .waiting (.scripted ticket))
    | (s, .answered a) => (scripted s, .answered a)
  | outlet, ticket => (outlet, .waiting ticket)

instance : Sink (Outlet M) (OutletTicket M) M := ⟨start, attempt⟩

def disconnect : Outlet M → Outlet M
  | channel c => channel { c with connected := false }
  | scripted s => scripted s

-- The receiver goes; a scripted sink has none.
def close : Outlet M → Outlet M
  | channel c => channel { c with closed := true, queue := [] }
  | scripted s => scripted s

-- Takes one message from a channel, or looks at what a scripted sink has got.
def receive : Outlet M → Outlet M × Received M
  | channel c =>
    if c.closed then (channel c, .closed)
    else
      match c.queue with
      | m :: rest => (channel { c with queue := rest }, .message m)
      | [] => (channel c, if c.connected then .empty else .disconnected)
  | scripted s => (scripted s, .collected s.received s.completed)

def collected : Outlet M → List M
  | channel c => c.queue
  | scripted s => s.received

def name : Outlet M → String
  | channel _ => "Mpsc"
  | scripted _ => "Script"

end Outlet

end CallTrace
