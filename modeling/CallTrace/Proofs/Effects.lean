import CallTrace.CallLog

/-!
# Effects on a span

What a call does to the world is a list of effects.  Seen from one span it is a list of operations,
and the span's record after them is a replay of these operations; the records of other spans do not
change, and nothing is counted as long as the operations stop at the first finish.
-/

namespace CallTrace

namespace SpanRecord

-- The record after the operations among some effects.
def replay (r : SpanRecord) (effects : List Effect) : SpanRecord :=
  (effects.filterMap Effect.op?).foldl SpanRecord.apply r

@[simp] theorem replay_nil (r : SpanRecord) : r.replay [] = r := rfl

theorem replay_append (r : SpanRecord) (before after : List Effect) :
    r.replay (before ++ after) = (r.replay before).replay after := by
  unfold replay
  rw [List.filterMap_append, List.foldl_append]

@[simp] theorem replay_report (r : SpanRecord) (line : Report) (effects : List Effect) :
    r.replay (.report line :: effects) = r.replay effects := rfl

@[simp] theorem replay_span (r : SpanRecord) (op : SpanOp) (effects : List Effect) :
    r.replay (.span op :: effects) = (r.apply op).replay effects := rfl

-- Entries in an open record are kept in order.
theorem replay_entries (r : SpanRecord) (entries : List Fields) (h : r.finishCount = 0) :
    r.replay (entries.map fun f => .span (.log f)) = { r with logs := r.logs ++ entries } := by
  induction entries generalizing r with
  | nil => simp
  | cons f entries ih =>
    have hopen : r.finished = false := by simp [finished, h]
    have happly : r.apply (.log f) = { r with logs := r.logs ++ [f] } := by
      simp [apply, hopen]
    rw [List.map_cons, replay_span, happly, ih { r with logs := r.logs ++ [f] } h]
    simp

/-- Whether effects do nothing to the span after its end. -/
def InTime (r : SpanRecord) : List Effect → Prop
  | [] => True
  | .report _ :: effects => r.InTime effects
  | .span op :: effects => r.finishCount = 0 ∧ (r.apply op).InTime effects

theorem inTime_append (r : SpanRecord) (before after : List Effect) :
    r.InTime (before ++ after) ↔ r.InTime before ∧ (r.replay before).InTime after := by
  induction before generalizing r with
  | nil => simp [InTime]
  | cons e before ih =>
    cases e with
    | report line => exact ih r
    | span op => simp only [List.cons_append, InTime, ih, replay_span, and_assoc]

-- A span knows of the operations alone.
theorem replay_congr (r : SpanRecord) {effects effects' : List Effect}
    (h : effects.filterMap Effect.op? = effects'.filterMap Effect.op?) :
    r.replay effects = r.replay effects' := by
  unfold replay
  rw [h]

theorem inTime_ops (r : SpanRecord) (effects : List Effect) :
    r.InTime ((effects.filterMap Effect.op?).map .span) ↔ r.InTime effects := by
  induction effects generalizing r with
  | nil => rfl
  | cons e effects ih =>
    cases e with
    | report line => exact ih r
    | span op => exact and_congr_right fun _ => ih (r.apply op)

theorem inTime_congr (r : SpanRecord) {effects effects' : List Effect}
    (h : effects.filterMap Effect.op? = effects'.filterMap Effect.op?) :
    r.InTime effects ↔ r.InTime effects' := by
  rw [← inTime_ops, h, inTime_ops]

end SpanRecord

namespace Recorder

@[simp] theorem perform_nil (r : Recorder) (span : Nat) : r.perform span [] = r := rfl

@[simp] theorem perform_report (r : Recorder) (span : Nat) (line : Report)
    (effects : List Effect) : r.perform span (.report line :: effects) = r.perform span effects :=
  rfl

@[simp] theorem perform_span (r : Recorder) (span : Nat) (op : SpanOp) (effects : List Effect) :
    r.perform span (.span op :: effects) = (r.apply span op).perform span effects := rfl

@[simp] theorem length_perform (r : Recorder) (span : Nat) (effects : List Effect) :
    (r.perform span effects).records.length = r.records.length := by
  induction effects generalizing r with
  | nil => rfl
  | cons e effects ih => cases e <;> simp [ih]

-- The record of the span is replayed, and the other records stay.
theorem getElem?_perform (r : Recorder) (span i : Nat) (effects : List Effect) :
    (r.perform span effects).records[i]? =
      if span = i then r.records[i]?.map (·.replay effects) else r.records[i]? := by
  induction effects generalizing r with
  | nil => simp
  | cons e effects ih =>
    cases e with
    | report line => simpa using ih r
    | span op =>
      rw [perform_span, ih, getElem?_apply]
      split
      · rw [Option.map_map]
        rfl
      · rfl

/-- What an operation leaves of a recorder: everything but the records and the two counts. -/
structure SameSetup (r r' : Recorder) : Prop where
  ids : r'.ids = r.ids
  propagator : r'.propagator = r.propagator
  forgotten : r'.forgotten = r.forgotten
  active : r'.active = r.active
  injectFailure : r'.injectFailure = r.injectFailure
  extractFailure : r'.extractFailure = r.extractFailure

theorem SameSetup.refl (r : Recorder) : SameSetup r r := ⟨rfl, rfl, rfl, rfl, rfl, rfl⟩

theorem SameSetup.trans {r r' r'' : Recorder} (h : SameSetup r r') (h' : SameSetup r' r'') :
    SameSetup r r'' :=
  ⟨h'.ids.trans h.ids, h'.propagator.trans h.propagator, h'.forgotten.trans h.forgotten,
    h'.active.trans h.active, h'.injectFailure.trans h.injectFailure,
    h'.extractFailure.trans h.extractFailure⟩

theorem sameSetup_apply (r : Recorder) (span : Nat) (op : SpanOp) :
    SameSetup r (r.apply span op) := by
  unfold apply
  split
  · exact .refl r
  · split
    · split <;> exact ⟨rfl, rfl, rfl, rfl, rfl, rfl⟩
    · exact ⟨rfl, rfl, rfl, rfl, rfl, rfl⟩

theorem sameSetup_perform (r : Recorder) (span : Nat) (effects : List Effect) :
    SameSetup r (r.perform span effects) := by
  induction effects generalizing r with
  | nil => exact .refl r
  | cons e effects ih =>
    cases e with
    | report line => exact ih r
    | span op => exact (sameSetup_apply r span op).trans (ih _)

-- Nothing is counted as long as nothing comes after the end of the span.
theorem counts_perform (r : Recorder) (span : Nat) {effects : List Effect} {record : SpanRecord}
    (h : r.records[span]? = some record) (intime : record.InTime effects) :
    (r.perform span effects).rejected = r.rejected ∧ (r.perform span effects).late = r.late := by
  induction effects generalizing r record with
  | nil => exact ⟨rfl, rfl⟩
  | cons e effects ih =>
    cases e with
    | report line => exact ih r h intime
    | span op =>
      obtain ⟨hopen, hrest⟩ := intime
      have hf : record.finished = false := by simp [SpanRecord.finished, hopen]
      have hone : (r.apply span op).rejected = r.rejected ∧ (r.apply span op).late = r.late := by
        simp [apply, h, hf]
      have hnext : (r.apply span op).records[span]? = some (record.apply op) := by
        rw [getElem?_apply, if_pos rfl, h]
        rfl
      obtain ⟨hrejected, hlate⟩ := ih (r.apply span op) hnext hrest
      exact ⟨hrejected.trans hone.1, hlate.trans hone.2⟩

end Recorder

/-! ## Reports -/

/-- Whether a report says that a span was ended once more. -/
def Report.isSuppressed (line : Report) : Bool :=
  line.message == "suppressed second finish of span"

def Quiet (effects : List Effect) : Prop :=
  ∀ line, Effect.report line ∈ effects → line.isSuppressed = false

theorem quiet_append {before after : List Effect} (hb : Quiet before) (ha : Quiet after) :
    Quiet (before ++ after) := by
  intro line h
  rcases List.mem_append.1 h with h | h
  · exact hb line h
  · exact ha line h

-- Entries, and reports of something else than a second end, go well with an open span.
theorem inTime_of_open {r : SpanRecord} (hr : r.finishCount = 0) {effects : List Effect}
    (h : ∀ e ∈ effects, (∃ f, e = .span (.log f)) ∨
      ∃ line, e = .report line ∧ line.isSuppressed = false) :
    r.InTime effects ∧ Quiet effects := by
  constructor
  · induction effects generalizing r with
    | nil => trivial
    | cons e effects ih =>
      have hrest := fun e' he' => h e' (List.mem_cons_of_mem e he')
      rcases h e List.mem_cons_self with ⟨f, rfl⟩ | ⟨line, rfl, -⟩
      · refine ⟨hr, ih ?_ hrest⟩
        simp only [SpanRecord.apply]
        split <;> exact hr
      · exact ih hr hrest
  · intro line hline
    rcases h _ hline with ⟨f, hf⟩ | ⟨line', hl, hq⟩
    · cases hf
    · cases hl
      exact hq

theorem inTime_entries {r : SpanRecord} (hr : r.finishCount = 0) (entries : List Fields) :
    r.InTime (entries.map fun f => .span (.log f)) ∧
      Quiet (entries.map fun f => .span (.log f)) := by
  refine inTime_of_open hr fun e he => ?_
  obtain ⟨f, -, hf⟩ := List.mem_map.1 he
  exact .inl ⟨f, hf.symm⟩

end CallTrace
