import CallTrace.Stream.Writer

/-!
# What is told of messages that go out

Messages go out in two ways: the transport pulls them from a stream of requests, or a handler
writes them to a sink.  Of the events of either way each message is told, and of completions the
first.
-/

namespace CallTrace

variable {M : Type}

theorem filterMap_cons_append {α β : Type} (f : α → Option β) (a : α) (l : List α) :
    (a :: l).filterMap f = (f a).toList ++ l.filterMap f := by
  rw [List.filterMap_cons]
  cases f a <;> rfl

namespace WriteEvent

def isComplete : WriteEvent M → Bool
  | .write _ => false
  | .complete => true

def message? : WriteEvent M → Option M
  | .write m => some m
  | .complete => none

/-- What is told when this happens after those events: of completions the first alone. -/
def told? (onWrite onComplete : Bool) (earlier : List (WriteEvent M)) :
    WriteEvent M → Option (WriteEvent M)
  | .write m => if onWrite then some (.write m) else none
  | .complete => if onComplete && !earlier.any isComplete then some .complete else none

/-- All that is told of some events after those. -/
def toldAll (onWrite onComplete : Bool) (earlier : List (WriteEvent M)) :
    List (WriteEvent M) → List (WriteEvent M)
  | [] => []
  | e :: events =>
    (told? onWrite onComplete earlier e).toList ++
      toldAll onWrite onComplete (earlier ++ [e]) events

theorem messages_toldAll (onWrite onComplete : Bool) (earlier events : List (WriteEvent M)) :
    (toldAll onWrite onComplete earlier events).filterMap message? =
      if onWrite then events.filterMap message? else [] := by
  induction events generalizing earlier with
  | nil => cases onWrite <;> rfl
  | cons e events ih =>
    rw [toldAll, List.filterMap_append, ih]
    cases e with
    | write m => cases onWrite <;> rfl
    | complete =>
      rw [told?, List.filterMap_cons_none rfl]
      cases onComplete && !earlier.any isComplete <;> rfl

theorem completions_toldAll (onWrite onComplete : Bool) (earlier events : List (WriteEvent M)) :
    (toldAll onWrite onComplete earlier events).countP isComplete =
      if onComplete && !earlier.any isComplete && events.any isComplete then 1 else 0 := by
  induction events generalizing earlier with
  | nil => simp [toldAll]
  | cons e events ih =>
    rw [toldAll, List.countP_append, ih, List.any_append, List.any_cons]
    cases e with
    | write m =>
      rw [told?]
      cases onWrite <;> simp [isComplete]
    | complete =>
      -- Behind a completion none is told; this one is, unless another one precedes it.
      rw [told?]
      by_cases hfirst : (onComplete && !earlier.any isComplete) = true
      · simp [hfirst, isComplete]
      · simp [hfirst, isComplete]

end WriteEvent

namespace WriterWatch

-- The watch after some events.
def after (w : WriterWatch) (earlier : List (WriteEvent M)) : WriterWatch :=
  { w with onComplete := w.onComplete && !earlier.any WriteEvent.isComplete }

theorem after_nil (w : WriterWatch) : w.after ([] : List (WriteEvent M)) = w := by
  simp [after]

theorem hear_after (w : WriterWatch) (earlier : List (WriteEvent M)) (e : WriteEvent M) :
    (w.after earlier).hear e =
      (w.after (earlier ++ [e]), e.told? w.onWrite w.onComplete earlier) := by
  cases e with
  | write m =>
    have hafter : w.after (earlier ++ [.write m]) = w.after earlier := by
      simp [after, WriteEvent.isComplete]
    exact Prod.ext hafter.symm rfl
  | complete => simp [hear, after, WriteEvent.told?, WriteEvent.isComplete]

theorem react_after (w : WriterWatch) (earlier : List (WriteEvent M)) (answer : Polled M) :
    (w.after earlier).react answer =
      (w.after (earlier ++ answer.sent?.toList),
        answer.sent?.bind (WriteEvent.told? w.onWrite w.onComplete earlier)) := by
  cases h : answer.sent? with
  | none => simp [react, h]
  | some e => simp [react, h, hear_after]

end WriterWatch

end CallTrace
