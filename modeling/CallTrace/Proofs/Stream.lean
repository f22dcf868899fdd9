import CallTrace.Stream.Reader
import CallTrace.Stream.Writer

/-!
# Watched streams and sinks

A watched stream is a stream and a watched sink is a sink.  Used as such, each of them behaves as
what is inside does, for any use and any stream or sink.
-/

namespace CallTrace

variable {σ κ τ M : Type}

instance [Stream σ (Delivery M)] : Stream (Reader σ) (Delivery M) :=
  ⟨fun r => (r.poll.1, r.poll.2.1)⟩

instance [Stream σ M] : Stream (Sender σ) M := ⟨fun s => (s.poll.1, s.poll.2.1)⟩

instance [Sink κ τ M] : Sink (Writer κ) τ M :=
  ⟨fun w op => ((w.start op).1, (w.start op).2.2), Writer.attempt⟩

/-! ## Streams -/

-- A map of streams that respects a poll respects any number of them.
theorem pollMany_map {σ' α : Type} [Stream σ α] [Stream σ' α] (f : σ → σ')
    (hpoll : ∀ s, Stream.poll (f s) = (f (Stream.poll s).1, (Stream.poll s).2))
    (n : Nat) (s : σ) :
    pollMany n (f s) = (f (pollMany n s).1, (pollMany n s).2) := by
  induction n generalizing s with
  | zero => rfl
  | succ n ih =>
    unfold pollMany
    rw [hpoll]
    simp only [ih]

theorem pollMany_sender [Stream σ M] (s : Sender σ) (n : Nat) :
    (pollMany n s).1.inner = (pollMany n s.inner).1 ∧
      (pollMany n s).2 = (pollMany n s.inner).2 :=
  Prod.ext_iff.1 (pollMany_map Sender.inner (fun _ => rfl) n s).symm

/-! ## Sinks -/

/-- Attempts an operation up to so many times, as long as it has to wait. -/
def attemptMany [Sink κ τ M] : Nat → κ → τ → κ × Attempt τ
  | 0, sink, ticket => (sink, .waiting ticket)
  | n + 1, sink, ticket =>
    match Sink.attempt sink ticket with
    | (sink, .waiting ticket) => attemptMany n sink ticket
    | (sink, .answered answer) => (sink, .answered answer)

/-- Does operations in order; each is attempted up to so many times and then given up. -/
def operateAll [Sink κ τ M] (sink : κ) : List (SinkOp M × Nat) → κ × List (Attempt τ)
  | [] => (sink, [])
  | (op, n) :: ops =>
    let (sink, ticket) := Sink.start sink op
    let (sink, result) := attemptMany n sink ticket
    let (sink, results) := operateAll sink ops
    (sink, result :: results)

section Map

variable {κ' : Type} [Sink κ τ M] [Sink κ' τ M] (f : κ → κ')
  (hattempt : ∀ (sink : κ) (ticket : τ), Sink.attempt (f sink) ticket =
    (f (Sink.attempt sink ticket).1, (Sink.attempt sink ticket).2))

include hattempt

-- A map of sinks that respects an attempt respects any number of them.
theorem attemptMany_map (n : Nat) (sink : κ) (ticket : τ) :
    attemptMany n (f sink) ticket =
      (f (attemptMany n sink ticket).1, (attemptMany n sink ticket).2) := by
  induction n generalizing sink ticket with
  | zero => rfl
  | succ n ih =>
    unfold attemptMany
    rw [hattempt]
    rcases Sink.attempt sink ticket with ⟨sink', ticket' | answer⟩
    · exact ih sink' ticket'
    · rfl

theorem operateAll_map
    (hstart : ∀ (sink : κ) (op : SinkOp M),
      Sink.start (f sink) op = (f (Sink.start sink op).1, (Sink.start sink op).2))
    (sink : κ) (ops : List (SinkOp M × Nat)) :
    operateAll (f sink) ops = (f (operateAll sink ops).1, (operateAll sink ops).2) := by
  induction ops generalizing sink with
  | nil => rfl
  | cons call ops ih =>
    unfold operateAll
    rw [hstart]
    simp only [attemptMany_map f hattempt, ih]

end Map

theorem operateAll_writer [Sink κ τ M] (w : Writer κ) (ops : List (SinkOp M × Nat)) :
    (operateAll w ops).1.inner = (operateAll w.inner ops).1 ∧
      (operateAll w ops).2 = (operateAll w.inner ops).2 :=
  Prod.ext_iff.1 (operateAll_map Writer.inner (fun _ _ => rfl) (fun _ _ => rfl) w ops).symm

end CallTrace
