import CallTrace.Proofs.Stream
import CallTrace.Proofs.Stream.WriteEvent

/-!
# What a watched sink tells

A writer hands every operation on to its sink and gives the sink's answers.  It tells each write
and the first completion, and does so before the sink starts: whoever is told comes before the sink
even if both work on the same state.
-/

namespace CallTrace

variable {κ τ M : Type}

namespace SinkOp

def isComplete : SinkOp M → Bool
  | .write _ => false
  | .complete => true

def message? : SinkOp M → Option M
  | .write m => some m
  | .complete => none

theorem isComplete_event (op : SinkOp M) : op.event.isComplete = op.isComplete := by
  cases op <;> rfl

theorem message?_event (op : SinkOp M) : op.event.message? = op.message? := by
  cases op <;> rfl

end SinkOp

/-- What happens around a sink: something is told, or the sink does an operation. -/
inductive Happening (M : Type)
  | told (e : WriteEvent M)
  -- An operation with the number of attempts after which it is given up.
  | operated (op : SinkOp M) (attempts : Nat)

namespace Happening

def event? : Happening M → Option (WriteEvent M)
  | .told e => some e
  | .operated .. => none

def call? : Happening M → Option (SinkOp M × Nat)
  | .told _ => none
  | .operated op n => some (op, n)

/-- What is left of a state by what happens to it, and what the operations gave. -/
def all [Sink κ τ M] (tell : κ → WriteEvent M → κ) (state : κ) :
    List (Happening M) → κ × List (Attempt τ)
  | [] => (state, [])
  | .told e :: rest => all tell (tell state e) rest
  | .operated op n :: rest =>
    let (state, ticket) := Sink.start state op
    let (state, result) := attemptMany n state ticket
    let (state, results) := all tell state rest
    (state, result :: results)

theorem all_told [Sink κ τ M] (tell : κ → WriteEvent M → κ) (state : κ)
    (events : List (WriteEvent M)) (rest : List (Happening M)) :
    all tell state (events.map .told ++ rest) = all tell (events.foldl tell state) rest := by
  induction events generalizing state with
  | nil => rfl
  | cons e events ih => exact ih (tell state e)

end Happening

/-- The operations in order, each of them right behind what is told of it. -/
def WriterWatch.timeline (w : WriterWatch) (earlier : List (WriteEvent M)) :
    List (SinkOp M × Nat) → List (Happening M)
  | [] => []
  | (op, n) :: calls =>
    (op.event.told? w.onWrite w.onComplete earlier).toList.map .told ++
      .operated op n :: w.timeline (earlier ++ [op.event]) calls

theorem WriterWatch.calls_timeline (w : WriterWatch) (earlier : List (WriteEvent M))
    (calls : List (SinkOp M × Nat)) :
    (w.timeline earlier calls).filterMap Happening.call? = calls := by
  induction calls generalizing earlier with
  | nil => rfl
  | cons call calls ih =>
    rw [timeline, List.filterMap_append, filterMap_cons_append, ih]
    cases call.1.event.told? w.onWrite w.onComplete earlier <;> rfl

theorem WriterWatch.events_timeline (w : WriterWatch) (earlier : List (WriteEvent M))
    (calls : List (SinkOp M × Nat)) :
    (w.timeline earlier calls).filterMap Happening.event? =
      WriteEvent.toldAll w.onWrite w.onComplete earlier (calls.map (·.1.event)) := by
  induction calls generalizing earlier with
  | nil => rfl
  | cons call calls ih =>
    rw [timeline, List.filterMap_append, filterMap_cons_append, ih]
    cases h : call.1.event.told? w.onWrite w.onComplete earlier <;>
      simp [WriteEvent.toldAll, h, Happening.event?]

/--
A writer and those it tells.  They may do anything to the state that the sink works on, and are told
before the sink starts.
-/
structure Announcer (κ M : Type) where
  writer : Writer κ
  tell : κ → WriteEvent M → κ

namespace Announcer

def start [Sink κ τ M] (a : Announcer κ M) (op : SinkOp M) : Announcer κ M × τ :=
  let (watch, event) := a.writer.watch.hear op.event
  let (inner, ticket) := Sink.start (event.toList.foldl a.tell a.writer.inner) op
  ({ a with writer := { inner, watch } }, ticket)

def attempt [Sink κ τ M] (a : Announcer κ M) (ticket : τ) : Announcer κ M × Attempt τ :=
  let (writer, result) := a.writer.attempt ticket
  ({ a with writer }, result)

instance [Sink κ τ M] : Sink (Announcer κ M) τ M := ⟨start, attempt⟩

def idle (state : κ) (_ : WriteEvent M) : κ := state

theorem start_idle [Sink κ τ M] (w : Writer κ) (op : SinkOp M) :
    Sink.start ({ writer := w, tell := idle } : Announcer κ M) op =
      ({ writer := (Sink.start w op).1, tell := idle }, (Sink.start w op).2) := by
  have hidle (events : List (WriteEvent M)) : events.foldl idle w.inner = w.inner := by
    induction events with
    | nil => rfl
    | cons e events ih => exact ih
  change Announcer.start _ _ = _
  unfold Announcer.start
  dsimp only
  rw [hidle]
  rfl

/-- With listeners that do nothing an announcer is its writer. -/
theorem operateAll_idle [Sink κ τ M] (w : Writer κ) (calls : List (SinkOp M × Nat)) :
    operateAll ({ writer := w, tell := idle } : Announcer κ M) calls =
      ({ writer := (operateAll w calls).1, tell := idle }, (operateAll w calls).2) :=
  operateAll_map (fun writer : Writer κ => ({ writer, tell := idle } : Announcer κ M))
    (fun _ _ => rfl) start_idle w calls

theorem operateAll_after [Sink κ τ M] (inner : κ) (w : WriterWatch)
    (earlier : List (WriteEvent M)) (tell : κ → WriteEvent M → κ)
    (calls : List (SinkOp M × Nat)) :
    let announced :=
      operateAll ({ writer := { inner, watch := w.after earlier }, tell } : Announcer κ M) calls
    (announced.1.writer.inner, announced.2) =
      Happening.all tell inner (w.timeline earlier calls) := by
  induction calls generalizing inner earlier with
  | nil => rfl
  | cons call calls ih =>
    obtain ⟨op, n⟩ := call
    let told := (op.event.told? w.onWrite w.onComplete earlier).toList
    let started := Sink.start (told.foldl tell inner) op
    let put := fun sink : κ => ({
      writer := { inner := sink, watch := w.after (earlier ++ [op.event]) }, tell } :
        Announcer κ M)
    have hstart : Sink.start
        ({ writer := { inner, watch := w.after earlier }, tell } : Announcer κ M) op =
          (put started.1, started.2) := by
      change Announcer.start _ _ = _
      unfold Announcer.start
      simp only [WriterWatch.hear_after]
      rfl
    have hattempts := attemptMany_map put (fun _ _ => rfl) n started.1 started.2
    unfold operateAll
    rw [hstart, WriterWatch.timeline, Happening.all_told]
    simp only [hattempts]
    exact congrArg (fun r => (r.1, (attemptMany n started.1 started.2).2 :: r.2))
      (ih (attemptMany n started.1 started.2).1 (earlier ++ [op.event]))

end Announcer

namespace Writer

/-- Does operations in order; the writer that is left, what they gave, and what was told. -/
def run [Sink κ τ M] (w : Writer κ) :
    List (SinkOp M × Nat) → Writer κ × List (Attempt τ) × List (WriteEvent M)
  | [] => (w, [], [])
  | (op, n) :: calls =>
    let (w, event, ticket) := w.start op
    let (w, result) := attemptMany n w ticket
    let (w, results, events) := run w calls
    (w, result :: results, event.toList ++ events)

-- An attempt leaves the watch as it is.
theorem watch_attemptMany [Sink κ τ M] (n : Nat) (w : Writer κ) (ticket : τ) :
    (attemptMany n w ticket).1.watch = w.watch :=
  congrArg (·.1.watch)
    (attemptMany_map (fun inner : κ => { w with inner }) (fun _ _ => rfl) n w.inner ticket)

theorem run_operates [Sink κ τ M] (w : Writer κ) (calls : List (SinkOp M × Nat)) :
    ((w.run calls).1, (w.run calls).2.1) = operateAll w calls := by
  induction calls generalizing w with
  | nil => rfl
  | cons call calls ih =>
    obtain ⟨op, n⟩ := call
    let attempted := attemptMany n (w.start op).1 (w.start op).2.2
    exact congrArg (fun r => (r.1, attempted.2 :: r.2)) (ih attempted.1)

-- What is told is a matter of the watch, and the sink has no say in it.
theorem events_run [Sink κ τ M] (w : Writer κ) {watch : WriterWatch}
    {earlier : List (WriteEvent M)} (hw : w.watch = watch.after earlier)
    (calls : List (SinkOp M × Nat)) :
    (w.run calls).2.2 =
      WriteEvent.toldAll watch.onWrite watch.onComplete earlier (calls.map (·.1.event)) := by
  induction calls generalizing w earlier with
  | nil => rfl
  | cons call calls ih =>
    obtain ⟨op, n⟩ := call
    let attempted := (attemptMany n (w.start op).1 (w.start op).2.2).1
    have hheard : w.watch.hear op.event = _ := hw ▸ watch.hear_after earlier op.event
    have hnext : attempted.watch = watch.after (earlier ++ [op.event]) :=
      (watch_attemptMany n _ _).trans (congrArg Prod.fst hheard)
    have htold : (w.start op).2.1 = _ := congrArg Prod.snd hheard
    change (w.start op).2.1.toList ++ (attempted.run calls).2.2 = _
    rw [htold, ih attempted hnext]
    rfl

/--
Of any sink and for any operations in any order, each attempted so often and then given up: a
watched sink is left as it would be without its writer, and each operation gives what the sink
gives.  Each message is told with its write, and the completion with the first one.  Whatever those
who are told do to the state that the sink works on, it is left as if what is told and the
operations happened to it one after the other, each write right behind its own event and the first
completion right behind its own.
-/
theorem run_announces_operations [Sink κ τ M] (s : κ) (onWrite onComplete : Bool)
    (calls : List (SinkOp M × Nat)) :
    let watch : WriterWatch := { onWrite, onComplete }
    let line := watch.timeline [] calls
    let told := line.filterMap Happening.event?
    let run := ({ inner := s, watch } : Writer κ).run calls
    (run.1.inner, run.2.1) = operateAll s calls ∧ run.2.2 = told ∧
      (∀ tell : κ → WriteEvent M → κ,
        let announced :=
          operateAll ({ writer := { inner := s, watch }, tell } : Announcer κ M) calls
        (announced.1.writer.inner, announced.2) = Happening.all tell s line) ∧
      line.filterMap Happening.call? = calls ∧
      told.filterMap WriteEvent.message? =
        (if onWrite then calls.filterMap (·.1.message?) else []) ∧
      told.countP WriteEvent.isComplete =
        (if onComplete && calls.any (·.1.isComplete) then 1 else 0) := by
  intro watch line told run
  have htold : told = WriteEvent.toldAll onWrite onComplete [] (calls.map (·.1.event)) :=
    watch.events_timeline [] calls
  refine ⟨?_, ?_, fun tell => ?_, watch.calls_timeline [] calls, ?_, ?_⟩
  · have hoperated := run_operates ({ inner := s, watch } : Writer κ) calls
    obtain ⟨hinner, hresults⟩ := operateAll_writer ({ inner := s, watch } : Writer κ) calls
    rw [← hoperated] at hinner hresults
    exact Prod.ext hinner hresults
  · exact (events_run _ watch.after_nil.symm calls).trans htold.symm
  · have hannounced := Announcer.operateAll_after s watch [] tell calls
    rw [watch.after_nil] at hannounced
    exact hannounced
  · rw [htold, WriteEvent.messages_toldAll, List.filterMap_map]
    simp only [Function.comp_def, SinkOp.message?_event]
  · rw [htold, WriteEvent.completions_toldAll, List.any_map]
    simp only [Function.comp_def, SinkOp.isComplete_event, List.any_nil, Bool.not_false,
      Bool.and_true]

end Writer

end CallTrace
