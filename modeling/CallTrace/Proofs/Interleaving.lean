import CallTrace.Proofs.CallLog
import CallTrace.Session.Tracing

/-!
# Calls side by side

Any number of strands, which are calls or logs by themselves, begin on one recorder and take their
turns in any order.  A strand writes to its own span and reads nothing that another one has written,
so its record is the one that it gets when it takes its turns alone.
-/

namespace CallTrace

-- The identifiers from the n-th span on.
def IdSupply.from (ids : IdSupply) (n : Nat) : IdSupply where
  trace k := ids.trace (n + k)
  span k := ids.span (n + k)
  trace_ne_zero k := ids.trace_ne_zero (n + k)
  span_ne_zero k := ids.span_ne_zero (n + k)

inductive Strand
  | call (c : Call)
  | log (l : CallLog)
deriving DecidableEq, Repr

/-- What a strand begins with. -/
inductive Opening (M : Type)
  | call (config : Config) (ambient : Bool) (ctx : CallContext) (type : MethodType)
      (metadata : Metadata) (message : Option M)
  | log (config : Config) (options : SpanOptions) (setup : Option Error)

/-- What a strand does next: its call takes a step, or its log is used or dropped. -/
inductive Deed (M : Type)
  | event (e : CallEvent M)
  | op (op : LogOp M)
  | drop

namespace Call

variable {M : Type} [Payload M]

-- A step that leaves the span open only enters something in it.
theorem entries_while_open {c : Call} (hs : c.Sound) {e : CallEvent M}
    (h : (c.step e).1.log.finished = false) :
    c.log.finished = false ∧ (c.step e).2 = (c.logged e).map fun f => .span (.log f) := by
  cases hc : c.log.finished with
  | true =>
    rw [(step_of_finished hs hc e).2, hc] at h
    cases h
  | false =>
    obtain ⟨heffects, hlog⟩ := step_of_open hs hc e
    rw [hlog] at h
    have hended : c.ended e = none := by simpa using h
    exact ⟨rfl, by simp [heffects, effectsOf, hended]⟩

end Call

namespace CallLog

variable {M : Type} [Payload M]

theorem entries_while_open {log : CallLog} {op : LogOp M} (h : (log.act op).1.finished = false) :
    log.finished = false ∧ (log.act op).2.filterMap Effect.op? =
      (op.entries log.logPayloads log.verbose).map .log := by
  cases hl : log.finished with
  | true =>
    rw [(act_of_finished hl op).1, hl] at h
    cases h
  | false =>
    obtain ⟨hlog, hops, -⟩ := act_of_open hl op
    rw [hlog] at h
    have hend : op.ending? = none := by simpa [LogOp.ends] using h
    exact ⟨rfl, by simpa [hend] using hops⟩

end CallLog

namespace Strand

variable {M : Type} [Payload M]

/-- The log that a strand writes with. -/
def writer : Strand → CallLog
  | call c => c.log
  | log l => l

/-- The strand after a deed, and the effects of the deed; a call has none of a log's, a log none of a
call's. -/
def act (s : Strand) (d : Deed M) : Strand × List Effect :=
  match s, d with
  | call c, .event e => (call (c.step e).1, (c.step e).2)
  | log l, .op op => (log (l.act op).1, (l.act op).2)
  | log l, .drop => (log l.drop.1, l.drop.2)
  | s, _ => (s, [])

-- A deed that leaves the span open only enters something in it.
theorem entries_while_open {s : Strand} (hs : ∀ c, s = call c → c.Sound) {d : Deed M}
    (h : (s.act d).1.writer.finished = false) :
    s.writer.finished = false ∧
      ∃ entries : List Fields, (s.act d).2.filterMap Effect.op? = entries.map .log := by
  have hidle : s.act d = (s, []) → s.writer.finished = false ∧
      ∃ entries : List Fields, (s.act d).2.filterMap Effect.op? = entries.map .log := by
    intro hact
    rw [hact] at h ⊢
    exact ⟨h, [], rfl⟩
  cases s with
  | call c =>
    cases d with
    | event e =>
      obtain ⟨hopen, heffects⟩ := Call.entries_while_open (hs c rfl) h
      exact ⟨hopen, c.logged e, (congrArg _ heffects).trans (Effect.ops_entries _)⟩
    | op op => exact hidle rfl
    | drop => exact hidle rfl
  | log l =>
    cases d with
    | event e => exact hidle rfl
    | op op =>
      obtain ⟨hopen, hops⟩ := CallLog.entries_while_open h
      exact ⟨hopen, _, hops⟩
    | drop =>
      have hdropped : l.drop.1.finished = true := l.finished_drop
      have hopen : l.drop.1.finished = false := h
      rw [hdropped] at hopen
      cases hopen

/-- What holds of a strand and the record of its span between any two deeds. -/
structure Fits (s : Strand) (record : SpanRecord) : Prop where
  sound : ∀ c, s = call c → c.Sound
  unfinished : s.writer.finished = false → record.finishCount = 0

-- A deed writes nothing to a span that has ended.
theorem Fits.inTime {s : Strand} {record : SpanRecord} (h : s.Fits record) (d : Deed M) :
    record.InTime (s.act d).2 := by
  rcases s with c | l
  · cases d with
    | event e => exact (Call.inTime_step (h.sound c rfl) e h.unfinished).1
    | op op => trivial
    | drop => trivial
  · cases d with
    | event e => trivial
    | op op => exact l.inTime_act op h.unfinished
    | drop => exact l.inTime_drop h.unfinished

theorem Fits.act {s : Strand} {record : SpanRecord} (h : s.Fits record) (d : Deed M) :
    (s.act d).1.Fits (record.replay (s.act d).2) where
  sound c hc := by
    rcases s with c' | l <;> cases d <;> cases hc
    · exact Call.sound_step (h.sound c' rfl) _
    · exact h.sound c rfl
    · exact h.sound c rfl
  unfinished hopen := by
    obtain ⟨hbefore, entries, hops⟩ := entries_while_open h.sound hopen
    have hcount := h.unfinished hbefore
    rw [record.replay_congr (hops.trans (Effect.ops_entries entries).symm),
      record.replay_entries entries hcount]
    exact hcount

end Strand

/-! ## Strands on one recorder -/

/-- A strand with the number of its span. -/
structure Running where
  span : Nat
  strand : Strand

/-- What of a recorder can be set from outside. -/
inductive Setting
  | active (ctx : Option SpanContext)
  | injectFailure (kind : Option ErrorKind)
  | extractFailure (kind : Option ErrorKind)

inductive Turn (M : Type)
  | begin (o : Opening M)
  | act (strand : Nat) (d : Deed M)
  | set (x : Setting)

/-- A recorder and the strands that have begun on it, in the order of their beginning. -/
structure Shared where
  recorder : Recorder
  strands : List Running := []

namespace Recorder

variable {M : Type} [Payload M]

def set (r : Recorder) : Setting → Recorder
  | .active ctx => { r with active := ctx }
  | .injectFailure kind => { r with injectFailure := kind }
  | .extractFailure kind => { r with extractFailure := kind }

-- Begins a strand; gives the recorder, the strand and the effects of the beginning.
def begin (r : Recorder) : Opening M → Recorder × Running × List Effect
  | .call config ambient ctx type metadata message =>
    let active := if ambient then r.active else none
    let (r, _, started) := r.startCall config active ctx type metadata message
    (r, ⟨started.span, .call started.call⟩, started.effects)
  | .log config options setup =>
    let log := CallLog.ofConfig config (r.nextContext options)
    let (r, span) := r.start options
    (r, ⟨span, .log log⟩, log.opening setup)

end Recorder

namespace Shared

variable {M : Type} [Payload M]

def turn (s : Shared) : Turn M → Shared
  | .begin o =>
    let (recorder, running, effects) := s.recorder.begin o
    { recorder := recorder.perform running.span effects, strands := s.strands ++ [running] }
  | .act i d =>
    match s.strands[i]? with
    | none => s
    | some running =>
      let (strand, effects) := running.strand.act d
      { recorder := s.recorder.perform running.span effects
        strands := s.strands.set i { running with strand } }
  | .set x => { s with recorder := s.recorder.set x }

def run (s : Shared) (turns : List (Turn M)) : Shared := turns.foldl turn s

end Shared

/-! ## Beginnings -/

/-- A strand as it begins: what its span shows before, and what is done to the span. -/
structure Begun where
  record : SpanRecord
  strand : Strand
  effects : List Effect

namespace Recorder

variable {M : Type} [Payload M]

def begun (r : Recorder) : Opening M → Begun
  | .call config ambient ctx type metadata message =>
    let o : CallStart M :=
      { recorder := r, config, active := if ambient then r.active else none
        ctx, type, metadata, message }
    ⟨o.record, .call o.started.call, o.started.effects⟩
  | .log config options setup =>
    let log := CallLog.ofConfig config (r.nextContext options)
    ⟨r.newRecord options, .log log, log.opening setup⟩

-- Beginning a strand starts one span.
theorem begin_eq (r : Recorder) (o : Opening M) :
    r.begin o = ({ r with records := r.records ++ [(r.begun o).record] },
      ⟨r.records.length, (r.begun o).strand⟩, (r.begun o).effects) := by
  cases o with
  | call config ambient ctx type metadata message =>
    simp only [begin, begun, CallStart.started, CallStart.outcome, CallStart.record, startCall_eq]
    rfl
  | log config options setup => rfl

theorem fits_begun (r : Recorder) (o : Opening M) :
    (r.begun o).record.InTime (r.begun o).effects ∧
      (r.begun o).strand.Fits ((r.begun o).record.replay (r.begun o).effects) := by
  cases o with
  | call config ambient ctx type metadata message =>
    let o : CallStart M :=
      { recorder := r, config, active := if ambient then r.active else none
        ctx, type, metadata, message }
    refine ⟨o.inTime_started.1, fun c hc => ?_, fun _ => ?_⟩
    · cases hc
      exact o.sound_started
    · exact congrArg SpanRecord.finishCount o.replay_started
  | log config options setup =>
    -- A log begins with the fault of its setup, if there is one.
    let log := CallLog.ofConfig config (r.nextContext options)
    have hnew : (r.newRecord options).finishCount = 0 := rfl
    have hops : (log.opening setup).filterMap Effect.op? = _ :=
      ((CallLog.opening_of_open rfl setup).1).trans (Effect.ops_entries _).symm
    refine ⟨(SpanRecord.inTime_congr _ hops).2 (inTime_entries hnew _).1, fun c hc => ?_,
      fun _ => ?_⟩
    · cases hc
    · show ((r.newRecord options).replay (log.opening setup)).finishCount = 0
      rw [SpanRecord.replay_congr _ hops, SpanRecord.replay_entries _ _ hnew]
      exact hnew

end Recorder

/-! ## One strand of many -/

namespace Recorder

variable {M : Type} [Payload M]

/-- What the i-th strand has of the recorder: its own span, if that has started, and the setup. -/
def alone (r : Recorder) (i : Nat) : Recorder :=
  { r with ids := r.ids.from i, records := r.records[i]?.toList }

theorem set_alone (r : Recorder) (x : Setting) (i : Nat) :
    (r.set x).alone i = (r.alone i).set x := by
  cases x <;> rfl

theorem apply_alone (r : Recorder) (i : Nat) (op : SpanOp) :
    (r.apply i op).alone i = (r.alone i).apply 0 op := by
  unfold apply
  cases h : r.records[i]? with
  | none => simp [alone, h]
  | some record =>
    obtain ⟨hi, -⟩ := List.getElem?_eq_some_iff.1 h
    have hsole : (r.alone i).records = [record] := by simp [alone, h]
    have hset : ((r.records.set i (record.apply op))[i]?).toList = [record.apply op] := by
      rw [List.getElem?_set_self hi]
      rfl
    simp only [hsole, List.getElem?_cons_zero, List.set_cons_zero]
    cases record.finished with
    | false => simp [alone, hset]
    | true => cases op <;> simp [alone, hset]

theorem perform_alone (r : Recorder) (i : Nat) (effects : List Effect) :
    (r.perform i effects).alone i = (r.alone i).perform 0 effects := by
  induction effects generalizing r with
  | nil => rfl
  | cons e effects ih =>
    cases e with
    | report line => exact ih r
    | span op => rw [perform_span, perform_span, ih, apply_alone]

-- What is done in time to another span is not seen.
theorem perform_alone_of_ne (r : Recorder) {i j : Nat} (h : j ≠ i) {record : SpanRecord}
    (hrecord : r.records[j]? = some record) {effects : List Effect}
    (intime : record.InTime effects) : (r.perform j effects).alone i = r.alone i := by
  have hsame := r.sameSetup_perform j effects
  obtain ⟨hrejected, hlate⟩ := r.counts_perform j hrecord intime
  have hrecords := r.getElem?_perform j i effects
  rw [if_neg h] at hrecords
  simp only [alone, hsame.ids, hsame.propagator, hsame.forgotten, hsame.active,
    hsame.injectFailure, hsame.extractFailure, hrejected, hlate, hrecords]

-- A strand begins alone as it does after the strands before it.
theorem begun_alone (r : Recorder) (o : Opening M) :
    (r.alone r.records.length).begun o = r.begun o := by
  have hnone : r.records[r.records.length]? = none := List.getElem?_eq_none (Nat.le_refl _)
  have hnext (options : SpanOptions) :
      (r.alone r.records.length).nextContext options = r.nextContext options := by
    simp only [nextContext, alone, hnone, Option.toList_none, List.length_nil]
    cases options.parent <;> rfl
  cases o with
  | call config ambient ctx type metadata message =>
    have hoptions (active : Option SpanContext) :
        (r.alone r.records.length).callOptions config active ctx type metadata =
          r.callOptions config active ctx type metadata := by
      cases ctx <;> rfl
    have hfault (active : Option SpanContext) :
        (r.alone r.records.length).setupFault? config active ctx type metadata =
          r.setupFault? config active ctx type metadata := by
      cases ctx with
      | client ctx => simp only [setupFault?, hnext, hoptions]; rfl
      | server ctx => rfl
    simp only [begun, CallStart.started_eq, CallStart.record, CallStart.setup, newRecord, hnext,
      hoptions, hfault]
    rfl
  | log config options setup => simp only [begun, newRecord, hnext]

end Recorder

/-- How many strands a turn begins. -/
def Turn.begins {M : Type} : Turn M → Bool
  | .begin _ => true
  | _ => false

/-- A turn as the i-th strand sees it when there are n strands: no turn, if it is another's. -/
def Turn.own? {M : Type} (i n : Nat) : Turn M → Option (Turn M)
  | .begin o => if n = i then some (.begin o) else none
  | .act j d => if j = i then some (.act 0 d) else none
  | .set x => some (.set x)

/-- The turns of the i-th strand among the turns that come when there are n strands. -/
def Turn.own {M : Type} (i n : Nat) : List (Turn M) → List (Turn M)
  | [] => []
  | t :: turns => (t.own? i n).toList ++ own i (n + t.begins.toNat) turns

namespace Shared

variable {M : Type} [Payload M]

def alone (s : Shared) (i : Nat) : Shared where
  recorder := s.recorder.alone i
  strands := (s.strands[i]?.map fun r => { r with span := 0 }).toList

/-- Every strand has the span that started with it, and goes with its record. -/
structure Orderly (s : Shared) : Prop where
  length : s.strands.length = s.recorder.records.length
  fits : ∀ (i : Nat) (running : Running) (record : SpanRecord), s.strands[i]? = some running →
    s.recorder.records[i]? = some record → running.span = i ∧ running.strand.Fits record

-- A strand that has begun has a record.
theorem Orderly.record {s : Shared} (h : s.Orderly) {i : Nat} {running : Running}
    (hi : s.strands[i]? = some running) : ∃ record, s.recorder.records[i]? = some record ∧
      running.span = i ∧ running.strand.Fits record := by
  have hlt : i < s.recorder.records.length := by
    rw [← h.length]
    exact (List.getElem?_eq_some_iff.1 hi).1
  exact ⟨_, List.getElem?_eq_getElem hlt, h.fits i _ _ hi (List.getElem?_eq_getElem hlt)⟩

theorem getElem?_concat_of_ne {α : Type} {l : List α} {x : α} {i : Nat} (h : l.length ≠ i) :
    (l ++ [x])[i]? = l[i]? := by
  rcases Nat.lt_or_gt_of_ne h with hlt | hgt
  · rw [List.getElem?_eq_none (by simp; omega), List.getElem?_eq_none (by omega)]
  · exact List.getElem?_append_left hgt

theorem turn_begin (s : Shared) (o : Opening M) :
    let n := s.recorder.records.length
    let b := s.recorder.begun o
    s.turn (.begin o) =
      { recorder := ({ s.recorder with records := s.recorder.records ++ [b.record] }).perform n
          b.effects
        strands := s.strands ++ [⟨n, b.strand⟩] } := by
  simp only [turn, Recorder.begin_eq]

theorem turn_act {s : Shared} {i : Nat} {running : Running} (hi : s.strands[i]? = some running)
    (d : Deed M) :
    s.turn (.act i d) =
      { recorder := s.recorder.perform running.span (running.strand.act d).2
        strands := s.strands.set i { running with strand := (running.strand.act d).1 } } := by
  simp only [turn, hi]

-- A deed of a strand that has not begun is none.
theorem turn_act_none {s : Shared} {i : Nat} (hi : s.strands[i]? = none) (d : Deed M) :
    s.turn (.act i d) = s := by
  simp only [turn, hi]

theorem Orderly.turn {s : Shared} (h : s.Orderly) (t : Turn M) : (s.turn t).Orderly := by
  have hlength := h.length
  cases t with
  | begin o =>
    obtain ⟨-, hbegun⟩ := s.recorder.fits_begun o
    rw [turn_begin]
    constructor
    · simp [hlength]
    · intro i running record hi hr
      rw [Recorder.getElem?_perform] at hr
      by_cases hn : s.recorder.records.length = i
      · subst hn
        rw [if_pos rfl, List.getElem?_concat_length] at hr
        rw [← hlength, List.getElem?_concat_length] at hi
        cases hi
        cases hr
        exact ⟨hlength.symm ▸ rfl, hbegun⟩
      · rw [if_neg hn, getElem?_concat_of_ne hn] at hr
        rw [← hlength] at hn
        rw [getElem?_concat_of_ne hn] at hi
        exact h.fits i running record hi hr
  | act j d =>
    cases hj : s.strands[j]? with
    | none =>
      rw [turn_act_none hj]
      exact h
    | some acting =>
      obtain ⟨-, -, hspan, -⟩ := h.record hj
      rw [turn_act hj, hspan]
      constructor
      · simp [hlength]
      · intro i running record hi hr
        rw [Recorder.getElem?_perform] at hr
        by_cases hji : j = i
        · subst hji
          obtain ⟨before, hbefore, -, hfits⟩ := h.record hj
          rw [if_pos rfl, hbefore] at hr
          rw [List.getElem?_set_self (List.getElem?_eq_some_iff.1 hj).1] at hi
          cases hi
          cases hr
          exact ⟨rfl, hfits.act d⟩
        · rw [if_neg hji] at hr
          rw [List.getElem?_set_ne hji] at hi
          exact h.fits i running record hi hr
  | set x =>
    cases x <;> exact ⟨h.length, h.fits⟩

-- A strand that begins alone finds an empty recorder.
theorem alone_begin {s : Shared} (h : s.Orderly) (o : Opening M) :
    (s.turn (.begin o)).alone s.strands.length = (s.alone s.strands.length).turn (.begin o) := by
  rw [turn_begin, turn_begin, h.length]
  have hstrands : s.strands[s.recorder.records.length]? = none := by
    rw [← h.length]
    exact List.getElem?_eq_none (Nat.le_refl _)
  have hempty : (s.recorder.alone s.recorder.records.length).records = [] := by
    simp [Recorder.alone]
  have hlast : (s.strands ++ [⟨s.recorder.records.length, (s.recorder.begun o).strand⟩])[
      s.recorder.records.length]? =
        some ⟨s.recorder.records.length, (s.recorder.begun o).strand⟩ := by
    rw [← h.length, List.getElem?_concat_length]
  simp only [alone, Recorder.perform_alone, Recorder.begun_alone, hempty, hlast, hstrands]
  simp [Recorder.alone]

theorem alone_turn {s : Shared} (h : s.Orderly) (i : Nat) (t : Turn M) :
    (s.turn t).alone i = (s.alone i).run (t.own? i s.strands.length).toList := by
  cases t with
  | begin o =>
    by_cases hn : s.strands.length = i
    · subst hn
      simpa [Turn.own?, run] using alone_begin h o
    · obtain ⟨hintime, -⟩ := s.recorder.fits_begun o
      have hn' := h.length ▸ hn
      rw [turn_begin]
      simp only [Turn.own?, hn, if_false, Option.toList_none, run, List.foldl_nil, alone]
      rw [Recorder.perform_alone_of_ne _ hn' List.getElem?_concat_length hintime,
        getElem?_concat_of_ne hn]
      simp only [Recorder.alone, getElem?_concat_of_ne hn']
  | act j d =>
    cases hj : s.strands[j]? with
    | none =>
      rw [turn_act_none hj]
      by_cases hji : j = i
      · subst hji
        have hnone : (s.alone j).strands[0]? = none := by simp [alone, hj]
        simp only [Turn.own?, if_true, Option.toList_some, run, List.foldl_cons, List.foldl_nil]
        rw [turn_act_none hnone]
      · simp [Turn.own?, hji, run]
    | some acting =>
      obtain ⟨record, hrecord, hspan, hfits⟩ := h.record hj
      rw [turn_act hj, hspan]
      by_cases hji : j = i
      · subst hji
        have hsole : (s.alone j).strands[0]? = some { acting with span := 0 } := by
          simp [alone, hj]
        have hlt := (List.getElem?_eq_some_iff.1 hj).1
        simp only [Turn.own?, if_true, Option.toList_some, run, List.foldl_cons, List.foldl_nil]
        rw [turn_act hsole]
        simp [alone, Recorder.perform_alone, List.getElem?_set_self hlt, hj]
      · simp only [Turn.own?, hji, if_false, Option.toList_none, run, List.foldl_nil, alone]
        rw [Recorder.perform_alone_of_ne _ hji hrecord (hfits.inTime d), List.getElem?_set_ne hji]
  | set x => simp [Turn.own?, run, turn, alone, Recorder.set_alone]

/-! ## Whole schedules -/

-- Each beginning starts one span, and no turn finishes or changes one that has ended.
theorem Orderly.counts_turn {s : Shared} (h : s.Orderly) (t : Turn M) :
    (s.turn t).strands.length = s.strands.length + t.begins.toNat ∧
      (s.turn t).recorder.rejected = s.recorder.rejected ∧
      (s.turn t).recorder.late = s.recorder.late ∧
      (s.turn t).recorder.forgotten = s.recorder.forgotten := by
  cases t with
  | begin o =>
    obtain ⟨hintime, -⟩ := s.recorder.fits_begun o
    rw [turn_begin]
    obtain ⟨hrejected, hlate⟩ := Recorder.counts_perform
      { s.recorder with records := s.recorder.records ++ [(s.recorder.begun o).record] } _
      List.getElem?_concat_length hintime
    exact ⟨List.length_append, hrejected, hlate, (Recorder.sameSetup_perform _ _ _).forgotten⟩
  | act j d =>
    cases hj : s.strands[j]? with
    | none =>
      rw [turn_act_none hj]
      exact ⟨rfl, rfl, rfl, rfl⟩
    | some acting =>
      obtain ⟨record, hrecord, hspan, hfits⟩ := h.record hj
      rw [turn_act hj, hspan]
      obtain ⟨hrejected, hlate⟩ := s.recorder.counts_perform j hrecord (hfits.inTime d)
      exact ⟨List.length_set, hrejected, hlate, (Recorder.sameSetup_perform _ _ _).forgotten⟩
  | set x => cases x <;> exact ⟨rfl, rfl, rfl, rfl⟩

theorem Orderly.run {s : Shared} (h : s.Orderly) (turns : List (Turn M)) :
    (s.run turns).Orderly ∧
      (s.run turns).strands.length = s.strands.length + turns.countP Turn.begins ∧
      (s.run turns).recorder.rejected = s.recorder.rejected ∧
      (s.run turns).recorder.late = s.recorder.late ∧
      (s.run turns).recorder.forgotten = s.recorder.forgotten := by
  induction turns generalizing s with
  | nil => exact ⟨h, rfl, rfl, rfl, rfl⟩
  | cons t turns ih =>
    obtain ⟨hbegins, hrejected, hlate, hforgotten⟩ := h.counts_turn t
    obtain ⟨hlast, hlength, hrejected', hlate', hforgotten'⟩ := ih (h.turn t)
    refine ⟨hlast, hlength.trans ?_, hrejected'.trans hrejected, hlate'.trans hlate,
      hforgotten'.trans hforgotten⟩
    rw [hbegins, List.countP_cons]
    cases t.begins with
    | false => simp
    | true => simp; omega

/-- Seen from one strand, a schedule is its own turns. -/
theorem alone_run {s : Shared} (h : s.Orderly) (i : Nat) (turns : List (Turn M)) :
    (s.run turns).alone i = (s.alone i).run (Turn.own i s.strands.length turns) := by
  induction turns generalizing s with
  | nil => rfl
  | cons t turns ih =>
    calc (s.run (t :: turns)).alone i
        = ((s.turn t).alone i).run (Turn.own i (s.turn t).strands.length turns) := ih (h.turn t)
      _ = ((s.alone i).run (t.own? i s.strands.length).toList).run
            (Turn.own i (s.strands.length + t.begins.toNat) turns) := by
        rw [alone_turn h, (h.counts_turn t).1]
      _ = (s.alone i).run (Turn.own i s.strands.length (t :: turns)) := by
        rw [Turn.own, run, run, run, List.foldl_append]

end Shared

namespace Tracing

/-- The strands of the calls that are traced. -/
def shared (t : Tracing) : Shared where
  recorder := t.recorder
  strands := t.tracedCalls.filterMap (Option.map fun c => ⟨c.span, .call c.call⟩)

-- Starting a traced call begins a strand.
theorem shared_start {t : Tracing} (traced : t.traced = true) (ctx : CallContext)
    (type : MethodType) (metadata : Metadata) (message : Option Message) :
    (t.start ctx type metadata message).1.shared =
      t.shared.turn (.begin (.call t.config t.ambient ctx type metadata message)) := by
  simp [start, traced, shared, perform, Shared.turn, Recorder.begin]

theorem strands_shared {t : Tracing} {calls : List TracedCall}
    (traced : t.tracedCalls = calls.map some) :
    t.shared.strands = calls.map fun c => ⟨c.span, .call c.call⟩ := by
  unfold shared
  rw [traced, List.filterMap_map]
  exact congrFun List.filterMap_eq_map calls

-- What a call is told is a turn of its strand, when all calls are traced.
theorem shared_tell {t : Tracing} {calls : List TracedCall}
    (traced : t.tracedCalls = calls.map some) (call : Nat) (event : CallEvent Message) :
    (t.tell call event).shared = t.shared.turn (.act call (.event event)) := by
  have hstrands := strands_shared traced
  unfold tell
  cases hc : calls[call]? with
  | none =>
    rw [show t.tracedCall? call = none by simp [tracedCall?, traced, hc],
      Shared.turn_act_none (by simp [hstrands, hc])]
  | some c =>
    have hrunning : t.shared.strands[call]? = some ⟨c.span, .call c.call⟩ := by
      simp [hstrands, hc]
    have htold : t.tracedCalls.set call (some { c with call := (c.call.step event).1 }) =
        (calls.set call { c with call := (c.call.step event).1 }).map some := by
      rw [traced, List.map_set]
    rw [show t.tracedCall? call = some c by simp [tracedCall?, traced, hc],
      Shared.turn_act hrunning, hstrands]
    exact congrArg (Shared.mk _) ((strands_shared htold).trans List.map_set)

end Tracing

/-! ## The finished spans in order -/

-- A list with its positions, read position by position.
theorem zipIdx_swap {α : Type} (l : List α) (k : Nat) :
    (l.zipIdx k).map (fun e => (e.2, e.1)) =
      (List.range l.length).flatMap fun i => (l[i]?).toList.map fun a => (k + i, a) := by
  induction l generalizing k with
  | nil => rfl
  | cons a l ih =>
    rw [List.zipIdx_cons, List.map_cons, ih, List.length_cons, List.range_succ_eq_map,
      List.flatMap_cons, List.flatMap_map]
    simp [Nat.add_comm, Nat.add_left_comm]

theorem Recorder.finishedSpans_eq (r : Recorder) (h : r.forgotten = 0) :
    r.finishedSpans = (List.range r.records.length).flatMap fun i =>
      ((r.records[i]?).toList.filter SpanRecord.finished).map fun record => (i, record) := by
  unfold finishedSpans spans
  rw [h, List.drop_zero, zipIdx_swap, List.filter_flatMap]
  congr 1
  funext i
  rw [List.filter_map]
  simp [Function.comp_def]

/--
Strands on a new recorder that take their turns in any order.  The span of each of them, by its
number, has the record that it gets when the strand takes its own turns on a recorder of its own,
with the identifiers that are next on the shared one.  So the finished spans come in the order of
their start, and nothing is counted against any strand.
-/
theorem strands_do_not_interfere {M : Type} [Payload M] (ids : IdSupply) (propagator : Propagator)
    (turns : List (Turn M)) :
    let shared := Shared.run { recorder := { ids, propagator } } turns
    let alone := fun i => Shared.run { recorder := { ids := ids.from i, propagator } }
      (Turn.own i 0 turns)
    shared.recorder.records.length = turns.countP Turn.begins ∧
      (∀ i, (alone i).recorder.records = (shared.recorder.records[i]?).toList) ∧
      shared.recorder.finishedSpans = (List.range (turns.countP Turn.begins)).flatMap
        (fun i => ((alone i).recorder.records.filter SpanRecord.finished).map (i, ·)) ∧
      shared.recorder.rejected = 0 ∧ shared.recorder.late = 0 := by
  intro shared alone
  have hstart : ({ recorder := { ids, propagator } } : Shared).Orderly :=
    ⟨rfl, fun i running record hi _ => by cases hi⟩
  obtain ⟨hlast, hlength, hrejected, hlate, hforgotten⟩ := hstart.run turns
  have hrecords : shared.recorder.records.length = turns.countP Turn.begins := by
    rw [← hlast.length, hlength]
    exact Nat.zero_add _
  have halone (i : Nat) : (alone i).recorder.records = (shared.recorder.records[i]?).toList :=
    (congrArg (fun s : Shared => s.recorder.records) (Shared.alone_run hstart i turns)).symm
  refine ⟨hrecords, halone, ?_, hrejected, hlate⟩
  rw [shared.recorder.finishedSpans_eq hforgotten, hrecords]
  simp only [halone]

end CallTrace
