import CallTrace.Session.Move

/-!
# Call futures

To make a call is to get a future.  The call begins when its future is polled for the first time;
until then nothing is traced, and a future that is let go before has done nothing.
-/

namespace CallTrace

/-- A call that has been made and not been polled, and what makes its continuation. -/
structure Future where
  spec : CallSpec
  body : Seen → Continuation

/-- A session together with the futures of the calls that have not been polled. -/
structure Caller where
  session : Session
  unpolled : Table Future := {}

/-- What a caller does; `poll` and `drop` are about the future of a call, polled before or not. -/
inductive CallerMove
  | make (name : String) (spec : CallSpec) (body : Seen → Continuation)
  | poll (name : String)
  | drop (name : String)
  -- Anything else that is done to the session.
  | move (m : Move)

-- The future of a call; the parent that its context names is looked up when the call is made.
def Session.future (s : Session) (spec : CallSpec) (body : Seen → Continuation) : Future :=
  let parent := match s.exchange.parentContext? none spec.parent with
    | none => .none
    | some ctx => .context ctx
  { spec := { spec with parent }, body }

namespace Caller

def fresh (recorder : Recorder) (config : Config) (ambient : Bool) : Caller :=
  { session := .fresh recorder config ambient }

/-- The futures that a move leaves unpolled, and what it does to the session, if anything. -/
def turn (c : Caller) : CallerMove → Table Future × Option Move
  | .make name spec body => (c.unpolled.set name (c.session.future spec body), none)
  | .poll name =>
    match c.unpolled.find? name with
    | some future => (c.unpolled.erase name, some (.begin name future.spec future.body))
    | none => (c.unpolled, some (.step (.poll name)))
  | .drop name =>
    match c.unpolled.find? name with
    | some _ => (c.unpolled.erase name, none)
    | none => (c.unpolled, some (.step (.dropCall name)))
  | .move m => (c.unpolled, some m)

-- The caller after a move, and the entry that shows what happened.
def play (c : Caller) (m : CallerMove) : Caller × Entry :=
  let (unpolled, turn) := c.turn m
  let (session, entry) := match turn with
    | some m => c.session.play m
    | none => c.session.record fun s => (s, .done)
  ({ session, unpolled }, entry)

def playAll (c : Caller) : List CallerMove → Caller × List Entry
  | [] => (c, [])
  | m :: moves =>
    let (c, entry) := c.play m
    let (c, entries) := c.playAll moves
    (c, entry :: entries)

end Caller

end CallTrace
