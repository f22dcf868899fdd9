import CallTrace.Session.Step

/-!
# Moves

The steps of a session start calls on continuations that follow actions.  A move may start a call on
any continuation.
-/

namespace CallTrace

inductive Move
  | step (st : Step)
  | begin (name : String) (spec : CallSpec) (body : Seen → Continuation)

def Move.act (s : Session) : Move → Session × Answer
  | step st => s.answer st
  | begin name spec body => s.begin name spec body

namespace Session

def fresh (recorder : Recorder) (config : Config) (ambient : Bool) : Session :=
  { exchange := { recorder, config, ambient } }

-- A session before its first move in which no call is traced.
def plain (recorder : Recorder) : Session := { exchange := { recorder, traced := false } }

-- The session after a move, and the entry that shows what happened.
def play (s : Session) (m : Move) : Session × Entry := s.record m.act

def playAll (s : Session) : List Move → Session × List Entry
  | [] => (s, [])
  | m :: moves =>
    let (s, entry) := s.play m
    let (s, entries) := s.playAll moves
    (s, entry :: entries)

end Session

end CallTrace
