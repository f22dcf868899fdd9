import CallTrace.Proofs.Stream.Reader
import CallTrace.Proofs.Stream.WriteEvent

/-!
# What a watched request stream tells

A sender polls its stream once for each poll and passes every answer on.  It tells each message,
also behind an end, and of the ends the first: it has no state in which it is silent.
-/

namespace CallTrace

variable {σ M : Type}

namespace Polled

def isEnd : Polled M → Bool
  | .ended => true
  | .pending | .item _ => false

def item? : Polled M → Option M
  | .item m => some m
  | .pending | .ended => none

theorem messages_sent (answers : List (Polled M)) :
    (answers.filterMap sent?).filterMap WriteEvent.message? = answers.filterMap item? := by
  rw [List.filterMap_filterMap]
  congr 1
  funext answer
  cases answer <;> rfl

theorem isComplete_sent (answers : List (Polled M)) :
    (answers.filterMap sent?).any WriteEvent.isComplete = answers.any isEnd := by
  rw [List.any_filterMap]
  congr 1
  funext answer
  cases answer <;> rfl

theorem told_sent (onWrite onComplete : Bool) (earlier : List (Polled M)) (answer : Polled M) :
    answer.sent?.bind (WriteEvent.told? onWrite onComplete (earlier.filterMap sent?)) =
      match answer with
      | .pending => none
      | .item m => if onWrite then some (.write m) else none
      | .ended => if onComplete && !earlier.any isEnd then some .complete else none := by
  rw [← isComplete_sent]
  cases answer <;> rfl

end Polled

namespace Sender

/-- Polls so many times; the sender that is left, and each answer with what was told of it. -/
def run [Stream σ M] : Nat → Sender σ → Sender σ × List (Polled M × Option (WriteEvent M))
  | 0, s => (s, [])
  | n + 1, s =>
    let (s, answer, event) := s.poll
    let (s, answers) := run n s
    (s, (answer, event) :: answers)

theorem run_succ [Stream σ M] (n : Nat) (s : Sender σ) :
    run (n + 1) s = ((run n s.poll.1).1, (s.poll.2.1, s.poll.2.2) :: (run n s.poll.1).2) := rfl

theorem poll_after [Stream σ M] (inner : σ) (w : WriterWatch) (earlier : List (WriteEvent M)) :
    let answer := (Stream.poll inner).2
    poll ({ inner, watch := w.after earlier } : Sender σ) =
      ({ inner := (Stream.poll inner).1, watch := w.after (earlier ++ answer.sent?.toList) },
        answer, answer.sent?.bind (WriteEvent.told? w.onWrite w.onComplete earlier)) := by
  intro answer
  unfold poll
  simp only [WriterWatch.react_after]
  rfl

/-- What is told of an answer is a matter of that answer and of what went out before it. -/
theorem run_after [Stream σ M] (n : Nat) (inner : σ) (w : WriterWatch)
    (earlier : List (WriteEvent M)) :
    let answers := (pollMany n inner).2
    (run n ({ inner, watch := w.after earlier } : Sender σ)).2 =
      answers.mapIdx fun i answer => (answer, answer.sent?.bind
        (WriteEvent.told? w.onWrite w.onComplete
          (earlier ++ (answers.take i).filterMap Polled.sent?))) := by
  induction n generalizing inner earlier with
  | zero => rfl
  | succ n ih =>
    rw [run_succ, poll_after, ih]
    simp only [pollMany, List.mapIdx_cons, List.take_zero, List.take_succ_cons,
      filterMap_cons_append, List.filterMap_nil, List.append_nil, List.append_assoc]

theorem told_run [Stream σ M] (n : Nat) (inner : σ) (w : WriterWatch)
    (earlier : List (WriteEvent M)) :
    (run n ({ inner, watch := w.after earlier } : Sender σ)).2.filterMap (·.2) =
      WriteEvent.toldAll w.onWrite w.onComplete earlier
        ((pollMany n inner).2.filterMap Polled.sent?) := by
  induction n generalizing inner earlier with
  | zero => rfl
  | succ n ih =>
    rw [run_succ, poll_after, filterMap_cons_append, ih]
    simp only [pollMany, filterMap_cons_append]
    cases (Stream.poll inner).2.sent? with
    | none => simp
    | some e => rfl

theorem run_polls [Stream σ M] (n : Nat) (s : Sender σ) :
    ((run n s).1, (run n s).2.map (·.1)) = pollMany n s := by
  induction n generalizing s with
  | zero => rfl
  | succ n ih => exact congrArg (fun r => (r.1, (Stream.poll s).2 :: r.2)) (ih s.poll.1)

theorem run_answers [Stream σ M] (n : Nat) (s : Sender σ) :
    (run n s).1.inner = (pollMany n s.inner).1 ∧
      (run n s).2.map (·.1) = (pollMany n s.inner).2 := by
  have hpolled := pollMany_sender s n
  rw [← run_polls] at hpolled
  exact hpolled

/--
Of any stream and for any number of polls, a sender polls its stream as often as it is polled,
passes the answers on, and leaves the stream where that many polls of its own would have left it; a
script is then read up to that place.  With a message it tells that message, also behind an end,
with the first end it tells the completion, and with no other answer anything.
-/
theorem run_tells_messages_and_end [Stream σ M] (s : σ) (onWrite onComplete : Bool) (n : Nat) :
    let watch : WriterWatch := { onWrite, onComplete }
    let run := ({ inner := s, watch } : Sender σ).run n
    let answers := (pollMany n s).2
    let told := run.2.filterMap (·.2)
    run.1.inner = (pollMany n s).1 ∧
      run.2 = answers.mapIdx (fun i answer => (answer, match answer with
        | .pending => none
        | .item m => if onWrite then some (.write m) else none
        | .ended =>
          if onComplete && !(answers.take i).any Polled.isEnd then some .complete else none)) ∧
      told.filterMap WriteEvent.message? =
        (if onWrite then answers.filterMap Polled.item? else []) ∧
      told.countP WriteEvent.isComplete =
        (if onComplete && answers.any Polled.isEnd then 1 else 0) ∧
      (({ inner := { stream := s }, watch } : Sender (Counted σ)).run n).1.inner.polls = n ∧
      ∀ script : Script M,
        (({ inner := script, watch } : Sender (Script M)).run n).1.inner = script.drop n ∧
          (({ inner := script, watch } : Sender (Script M)).run n).2.map (·.1) =
            script.answers n := by
  intro watch run answers told
  have hrun := run_after n s watch []
  have htold := told_run n s watch []
  rw [watch.after_nil] at hrun htold
  change told = WriteEvent.toldAll onWrite onComplete [] (answers.filterMap Polled.sent?) at htold
  refine ⟨(run_answers n _).1, ?_, ?_, ?_, ?_, fun script => ?_⟩
  · simp only [List.nil_append, Polled.told_sent] at hrun
    exact hrun
  · rw [htold, WriteEvent.messages_toldAll, Polled.messages_sent]
  · rw [htold, WriteEvent.completions_toldAll, Polled.isComplete_sent]
    simp
  · rw [(run_answers n _).1, polls_pollMany]
    exact Nat.zero_add n
  · rw [(run_answers n _).1, (run_answers n _).2, pollMany_script]
    exact ⟨rfl, rfl⟩

end Sender

end CallTrace
