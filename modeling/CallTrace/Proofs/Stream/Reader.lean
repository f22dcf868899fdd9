import CallTrace.Proofs.Stream

/-!
# What a watched stream tells

A reader polls its stream once for each poll and passes every answer on.  What it tells is a matter
of the answers alone: the messages up to the first end or fault and then that, less the events that
are not wanted, and nothing of what comes after.
-/

namespace CallTrace

variable {σ M : Type}

/-! ## Answers and their story -/

namespace Polled

/-- An end or a fault. -/
def isTerminal : Polled (Delivery M) → Bool
  | .ended | .item (.error _) => true
  | .pending | .item (.ok _) => false

def event? : Polled (Delivery M) → Option (ReaderEvent M)
  | .pending => none
  | .item (.ok m) => some (.message m)
  | .item (.error s) => some (.fault s)
  | .ended => some .ended

end Polled

/-- The messages before the first end or fault, and that. -/
def story (answers : List (Polled (Delivery M))) : List (ReaderEvent M) :=
  (answers.takeWhile (!·.isTerminal)).filterMap Polled.event? ++
    ((answers.find? Polled.isTerminal).bind Polled.event?).toList

theorem story_of_terminal {answer : Polled (Delivery M)} (h : answer.isTerminal = true)
    (answers : List (Polled (Delivery M))) : story (answer :: answers) = answer.event?.toList := by
  unfold story
  rw [List.takeWhile_cons_of_neg (by simp [h]), List.find?_cons_of_pos h]
  rfl

theorem story_of_not_terminal {answer : Polled (Delivery M)} (h : answer.isTerminal = false)
    (answers : List (Polled (Delivery M))) :
    story (answer :: answers) = answer.event?.toList ++ story answers := by
  unfold story
  rw [List.takeWhile_cons_of_pos (by simp [h]), List.find?_cons_of_neg (by simp [h]),
    List.filterMap_cons]
  cases answer.event? <;> rfl

namespace ReaderWatch

def wants (w : ReaderWatch) : ReaderEvent M → Bool
  | .message _ => w.onMessage
  | .ended => w.onEnd
  | .fault _ => w.onFault

-- One answer, as long as the stream has neither ended nor failed.
theorem react_of_open {w : ReaderWatch} (h : w.terminated = false)
    (answer : Polled (Delivery M)) :
    w.react answer =
      (if answer.isTerminal then w.terminate else w, answer.event?.filter w.wants) := by
  unfold react
  rw [h]
  rcases answer with _ | (s | m) | _ <;> rfl

/-- The watch after the answers, and all that it told. -/
def reactAll (w : ReaderWatch) : List (Polled (Delivery M)) → ReaderWatch × List (ReaderEvent M)
  | [] => (w, [])
  | answer :: answers =>
    let (w, event) := w.react answer
    let (w, events) := w.reactAll answers
    (w, event.toList ++ events)

theorem reactAll_cons (w : ReaderWatch) (answer : Polled (Delivery M))
    (answers : List (Polled (Delivery M))) :
    w.reactAll (answer :: answers) =
      (((w.react answer).1.reactAll answers).1,
        (w.react answer).2.toList ++ ((w.react answer).1.reactAll answers).2) := rfl

theorem reactAll_of_terminated {w : ReaderWatch} (h : w.terminated = true)
    (answers : List (Polled (Delivery M))) : w.reactAll answers = (w, []) := by
  induction answers with
  | nil => rfl
  | cons answer answers ih =>
    have hreact : w.react answer = (w, none) := if_pos h
    rw [reactAll_cons, hreact, ih]
    rfl

theorem toList_filter (event : Option (ReaderEvent M)) (w : ReaderWatch) :
    (event.filter w.wants).toList = event.toList.filter w.wants := by
  cases event with
  | none => rfl
  | some event => cases h : w.wants event <;> simp [Option.filter, h]

/-- An open watch tells what is wanted of the story, and is open until an end or a fault. -/
theorem reactAll_of_open {w : ReaderWatch} (h : w.terminated = false)
    (answers : List (Polled (Delivery M))) :
    (w.reactAll answers).2 = (story answers).filter w.wants ∧
      (w.reactAll answers).1.terminated = answers.any Polled.isTerminal := by
  induction answers with
  | nil => exact ⟨rfl, h⟩
  | cons answer answers ih =>
    rw [reactAll_cons, react_of_open h, List.any_cons]
    cases hlast : answer.isTerminal with
    | true =>
      have hdone : w.terminate.terminated = true := rfl
      rw [if_pos rfl, reactAll_of_terminated hdone, story_of_terminal hlast, toList_filter]
      exact ⟨List.append_nil _, rfl⟩
    | false =>
      rw [if_neg (by simp), story_of_not_terminal hlast, toList_filter, List.filter_append, ih.1]
      exact ⟨rfl, ih.2⟩

end ReaderWatch

/-! ## Runs -/

/-- Polls so many times; the reader that is left, the answers, and what was told. -/
def Reader.run [Stream σ (Delivery M)] :
    Nat → Reader σ → Reader σ × List (Polled (Delivery M)) × List (ReaderEvent M)
  | 0, r => (r, [], [])
  | n + 1, r =>
    let (r, answer, event) := r.poll
    let (r, answers, events) := run n r
    (r, answer :: answers, event.toList ++ events)

theorem Reader.run_eq [Stream σ (Delivery M)] (n : Nat) (r : Reader σ) :
    r.run n =
      ({ inner := (pollMany n r.inner).1
         watch := (r.watch.reactAll (pollMany n r.inner).2).1 },
        (pollMany n r.inner).2, (r.watch.reactAll (pollMany n r.inner).2).2) := by
  induction n generalizing r with
  | zero => rfl
  | succ n ih =>
    unfold run
    simp only [ih]
    rfl

/-! ## Counting polls -/

/-- A stream that counts how often it is polled. -/
structure Counted (σ : Type) where
  stream : σ
  polls : Nat := 0

instance [Stream σ M] : Stream (Counted σ) M :=
  ⟨fun s => ({ stream := (Stream.poll s.stream).1, polls := s.polls + 1 },
    (Stream.poll s.stream).2)⟩

theorem polls_pollMany [Stream σ M] (n : Nat) (s : Counted σ) :
    (pollMany n s).1.polls = s.polls + n := by
  induction n generalizing s with
  | zero => rfl
  | succ n ih =>
    have hfirst : (Stream.poll s).1.polls = s.polls + 1 := rfl
    change (pollMany n (Stream.poll s).1).1.polls = _
    rw [ih, hfirst]
    omega

/-- The first answers of a script, which goes on ending once it is over. -/
def Script.answers (n : Nat) (script : Script M) : List (Polled M) :=
  (script ++ List.replicate n Polled.ended).take n

theorem Script.answers_cons (n : Nat) (answer : Polled M) (script : Script M) :
    answers (n + 1) (answer :: script) = answer :: script.answers n := by
  unfold answers
  rw [List.cons_append, List.take_succ_cons, List.replicate_succ', ← List.append_assoc,
    List.take_append_of_le_length]
  simp

theorem pollMany_script (n : Nat) (script : Script M) :
    pollMany n script = (script.drop n, script.answers n) := by
  induction n generalizing script with
  | zero => rfl
  | succ n ih =>
    cases script with
    | nil =>
      have hpoll : Stream.poll ([] : Script M) = ([], .ended) := rfl
      unfold pollMany
      rw [hpoll]
      simp only [ih, List.drop_nil]
      rfl
    | cons answer script =>
      have hpoll : Stream.poll (answer :: script : Script M) = (script, answer) := rfl
      unfold pollMany
      rw [hpoll]
      simp only [ih]
      rw [Script.answers_cons, List.drop_succ_cons]

/--
Of any stream and for any number of polls, a reader polls its stream as often as it is polled,
passes the answers on, and leaves the stream where that many polls of its own would have left it;
a script is then read up to that place.  It has told what is wanted of the story of the answers,
and is terminated exactly if there was an end or a fault among them.
-/
theorem Reader.run_eq_answers_and_story [Stream σ (Delivery M)] (s : σ)
    (onMessage onEnd onFault : Bool) (n : Nat) :
    let watch : ReaderWatch := { onMessage, onEnd, onFault }
    let run := ({ inner := s, watch } : Reader σ).run n
    let answers := (pollMany n s).2
    run.1.inner = (pollMany n s).1 ∧ run.2.1 = answers ∧
      run.2.2 = (story answers).filter watch.wants ∧
      (run.1.watch.terminated = true ↔ ∃ answer ∈ answers, answer.isTerminal = true) ∧
      (({ inner := { stream := s }, watch } : Reader (Counted σ)).run n).1.inner.polls = n ∧
      ∀ script : Script (Delivery M),
        (({ inner := script, watch } : Reader (Script (Delivery M))).run n).1.inner =
            script.drop n ∧
          (({ inner := script, watch } : Reader (Script (Delivery M))).run n).2.1 =
            script.answers n := by
  intro watch run answers
  have hopen : watch.terminated = false := rfl
  obtain ⟨hstory, hterminated⟩ := watch.reactAll_of_open hopen answers
  have hrun := run_eq n ({ inner := s, watch } : Reader σ)
  refine ⟨congrArg (·.1.inner) hrun, congrArg (·.2.1) hrun,
    (congrArg (·.2.2) hrun).trans hstory, ?_, ?_, ?_⟩
  · rw [(congrArg (·.1.watch.terminated) hrun).trans hterminated, List.any_eq_true]
  · rw [run_eq, polls_pollMany]
    exact Nat.zero_add n
  · intro script
    rw [run_eq, pollMany_script]
    exact ⟨rfl, rfl⟩

end CallTrace
