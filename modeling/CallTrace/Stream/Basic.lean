import CallTrace.Status

/-!
# Streams

A stream is asked for its next item by polling.  It may have none yet, and it may go on after an
end.
-/

namespace CallTrace

/-- What one poll of a stream gives. -/
inductive Polled (α : Type)
  | pending
  | item (a : α)
  | ended
deriving DecidableEq, Repr

/-- An item of a stream that can fail. -/
abbrev Delivery (M : Type) := Except Status M

class Stream (σ : Type) (α : outParam Type) where
  poll : σ → σ × Polled α

/-- A stream that gives a list of answers, one for each poll, and then ends. -/
abbrev Script (α : Type) := List (Polled α)

namespace Script

def poll {α : Type} : Script α → Script α × Polled α
  | [] => ([], .ended)
  | answer :: rest => (rest, answer)

instance {α : Type} : Stream (Script α) α := ⟨poll⟩

def outline {α : Type} (s : Script α) : String := "Script(" ++ toString s.length ++ ")"

end Script

/-- Polls so many times; the stream that is left and the answers in order. -/
def pollMany {σ α : Type} [Stream σ α] : Nat → σ → σ × List (Polled α)
  | 0, s => (s, [])
  | n + 1, s =>
    let (s, answer) := Stream.poll s
    let (s, answers) := pollMany n s
    (s, answer :: answers)

end CallTrace
