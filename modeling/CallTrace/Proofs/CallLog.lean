import CallTrace.Proofs.Call.Faults
import CallTrace.Proofs.Call.Messages

/-!
# The log of a call

A log by itself, driven by any operations in any order and then dropped.  The first end among the
operations ends the span, and the drop does if there is none.  What comes before the end is entered
in order; what comes after it reaches the span no more.
-/

namespace CallTrace

/-- What can be done with a log. -/
inductive LogOp (M : Type)
  | request (m : M)
  | response (m : M)
  | lifecycle (event : String)
  | setupFault (e : Error)
  | finish
  | fault (s : Status)
deriving Repr

-- What a span is told last, before its finish, when it ends so.
def Ending.marks (verbose : Bool) : Ending → List SpanOp
  | completed => if verbose then [.log (Fields.event Stage.callCompleted.text)] else []
  | failed s => [.tag TagKey.error (.bool true), .log s.entry]

namespace LogOp

variable {M : Type}

def ending? : LogOp M → Option Ending
  | finish => some .completed
  | fault s => some (.failed s)
  | _ => none

/-- What an operation enters in an open span. -/
def entries [Payload M] (payloads verbose : Bool) : LogOp M → List Fields
  | request m => [(Passage.request m).fields payloads]
  | response m => [(Passage.response m).fields payloads]
  | lifecycle event => if verbose then [Fields.event event] else []
  | setupFault e => [e.entry]
  | finish | fault _ => []

def ends (op : LogOp M) : Bool := op.ending?.isSome

/-- The operations before the first end. -/
def beforeEnd (ops : List (LogOp M)) : List (LogOp M) := ops.takeWhile (!·.ends)

/-- The first end among some operations, or else that of the drop. -/
def firstEnd (ops : List (LogOp M)) : Ending :=
  (ops.findSome? ending?).getD (.failed CallLog.abandonedStatus)

end LogOp

theorem Effect.ops_entries (entries : List Fields) :
    (entries.map fun f => Effect.span (.log f)).filterMap Effect.op? = entries.map .log := by
  induction entries with
  | nil => rfl
  | cons f entries ih => exact congrArg (SpanOp.log f :: ·) ih

def Effect.isSuppressed : Effect → Bool
  | .span _ => false
  | .report line => line.isSuppressed

namespace CallLog

variable {M : Type} [Payload M]

def act (log : CallLog) : LogOp M → CallLog × List Effect
  | .request m => (log, log.request m)
  | .response m => (log, log.response m)
  | .lifecycle event => (log, log.lifecycle event)
  | .setupFault e => (log, log.setupFault e)
  | .finish => log.finish
  | .fault s => log.fault s

def actAll (log : CallLog) : List (LogOp M) → CallLog × List Effect
  | [] => (log, [])
  | op :: ops =>
    let (log, effects) := log.act op
    let (log, later) := log.actAll ops
    (log, effects ++ later)

/-- All that a log does from its opening to its drop. -/
def lifetime (log : CallLog) (setup : Option Error) (ops : List (LogOp M)) : List Effect :=
  log.opening setup ++ ((log.actAll ops).2 ++ (log.actAll ops).1.drop.2)

/-! ## One operation -/

theorem ops_closing {log : CallLog} (h : log.finished = false) (v : Ending) :
    (log.closing v).filterMap Effect.op? = v.marks log.verbose ++ [.finish] := by
  cases v with
  | completed =>
    cases hv : log.verbose <;>
      simp [closing, finish, h, stage, lifecycle, hv, Ending.marks, Effect.op?]
  | failed s => simp [closing, fault, h, Ending.marks, Effect.op?, faultFields_eq]

theorem warnings_closing {log : CallLog} (h : log.finished = false) (v : Ending) :
    (log.closing v).filter Effect.isSuppressed = [] := by
  cases v with
  | completed =>
    cases hv : log.verbose <;>
      simp [closing, finish, h, stage, lifecycle, hv, Effect.isSuppressed, Report.isSuppressed]
  | failed s => simp [closing, fault, h, Effect.isSuppressed, Report.isSuppressed]

theorem drop_of_open {log : CallLog} (h : log.finished = false) :
    log.drop.2 = log.closing (.failed abandonedStatus) := by
  simp [drop, h, fault_of_open h]

theorem setupFault_of_open {log : CallLog} (h : log.finished = false) (e : Error) :
    (log.setupFault e).filterMap Effect.op? = [.log e.entry] ∧
      (log.setupFault e).filter Effect.isSuppressed = [] := by
  simp only [setupFault, h, Bool.false_eq_true, if_false, setupFields_eq]
  exact ⟨rfl, by simp [Effect.isSuppressed, Report.isSuppressed]⟩

theorem opening_of_open {log : CallLog} (h : log.finished = false) (setup : Option Error) :
    (log.opening setup).filterMap Effect.op? = (setup.toList.map Error.entry).map .log ∧
      (log.opening setup).filter Effect.isSuppressed = [] := by
  cases setup with
  | none => exact ⟨rfl, rfl⟩
  | some e => exact setupFault_of_open h e

-- An operation on an open log.
theorem act_of_open {log : CallLog} (h : log.finished = false) (op : LogOp M) :
    (log.act op).1 = { log with finished := op.ends } ∧
      (log.act op).2.filterMap Effect.op? =
        (op.entries log.logPayloads log.verbose).map .log ++
          (op.ending?.map fun v => v.marks log.verbose ++ [.finish]).getD [] ∧
      (log.act op).2.filter Effect.isSuppressed = [] := by
  have hlog : ({ log with finished := false } : CallLog) = log := by rw [← h]
  cases op with
  | request m =>
    simp [act, request, message_of_open h, Call.messageFields_request, LogOp.ends, LogOp.ending?,
      LogOp.entries, Effect.op?, Effect.isSuppressed, hlog]
  | response m =>
    simp [act, response, message_of_open h, Call.messageFields_response, LogOp.ends,
      LogOp.ending?, LogOp.entries, Effect.op?, Effect.isSuppressed, hlog]
  | lifecycle event =>
    refine ⟨hlog.symm, ?_⟩
    cases hv : log.verbose <;>
      simp [act, lifecycle, h, hv, LogOp.ending?, LogOp.entries, Effect.op?, Effect.isSuppressed]
  | setupFault e =>
    obtain ⟨hops, hquiet⟩ := setupFault_of_open h e
    exact ⟨hlog.symm, hops, hquiet⟩
  | finish =>
    exact ⟨by simp [act, finish_of_open h, LogOp.ends, LogOp.ending?], ops_closing h .completed,
      warnings_closing h .completed⟩
  | fault s =>
    exact ⟨by simp [act, fault_of_open h, LogOp.ends, LogOp.ending?], ops_closing h (.failed s),
      warnings_closing h (.failed s)⟩

-- An operation on a log that has ended.
theorem act_of_finished {log : CallLog} (h : log.finished = true) (op : LogOp M) :
    (log.act op).1 = log ∧ (log.act op).2.filterMap Effect.op? = [] ∧
      (log.act op).2.filter Effect.isSuppressed = if op.ends then log.suppressed else [] := by
  cases op with
  | request m => simp [act, request, message_of_finished h, LogOp.ends, LogOp.ending?]
  | response m => simp [act, response, message_of_finished h, LogOp.ends, LogOp.ending?]
  | lifecycle event => simp [act, lifecycle, h, LogOp.ends, LogOp.ending?]
  | setupFault e =>
    simp [act, setupFault, h, Effect.op?, Effect.isSuppressed, Report.isSuppressed, LogOp.ends,
      LogOp.ending?]
  | finish =>
    simp [act, finish, h, suppressed, Effect.op?, Effect.isSuppressed, Report.isSuppressed,
      LogOp.ends, LogOp.ending?]
  | fault s =>
    simp [act, fault, h, suppressed, Effect.op?, Effect.isSuppressed, Report.isSuppressed,
      LogOp.ends, LogOp.ending?]

-- A second end is suppressed.
theorem act_of_ended {log : CallLog} (h : log.finished = true) {op : LogOp M}
    (hop : op.ends = true) : log.act op = (log, log.suppressed) := by
  cases op with
  | finish => simp [act, finish, h]
  | fault s => simp [act, fault, h]
  | _ => cases hop

-- No operation writes to a span that has ended.
theorem inTime_act (log : CallLog) (op : LogOp M) {r : SpanRecord}
    (hr : log.finished = false → r.finishCount = 0) : r.InTime (log.act op).2 := by
  cases h : log.finished with
  | true =>
    have hsame : r.InTime (log.act op).2 ↔ r.InTime [] := r.inTime_congr (act_of_finished h op).2.1
    exact hsame.2 trivial
  | false =>
    have hcount := hr h
    have hops := (act_of_open h op).2.1
    cases hv : op.ending? with
    | none =>
      have hsame : r.InTime (log.act op).2 ↔ r.InTime ((op.entries log.logPayloads log.verbose).map
          fun f => .span (.log f)) := by
        apply r.inTime_congr
        rw [hops, hv, Effect.ops_entries]
        simp
      exact hsame.2 (inTime_entries hcount _).1
    | some v =>
      have hclosing : (log.act op).2 = log.closing v := by
        cases op <;> first | (cases hv; rfl) | cases hv
      rw [hclosing]
      exact (inTime_closing h v r hcount).1

theorem inTime_drop (log : CallLog) {r : SpanRecord}
    (hr : log.finished = false → r.finishCount = 0) : r.InTime log.drop.2 := by
  cases h : log.finished with
  | true => simp [drop, h, SpanRecord.InTime]
  | false =>
    rw [drop_of_open h]
    exact (inTime_closing h _ r (hr h)).1

/-! ## Any number of operations -/

theorem actAll_of_finished {log : CallLog} (h : log.finished = true) (ops : List (LogOp M)) :
    (log.actAll ops).1 = log ∧ (log.actAll ops).2.filterMap Effect.op? = [] ∧
      (log.actAll ops).2.filter Effect.isSuppressed =
        (List.replicate (ops.countP LogOp.ends) log.suppressed).flatten := by
  induction ops with
  | nil => exact ⟨rfl, rfl, rfl⟩
  | cons op ops ih =>
    obtain ⟨hlog, hops, hwarnings⟩ := act_of_finished h op
    obtain ⟨hlast, hrest, hmore⟩ := ih
    simp only [actAll, hlog, hlast, List.filterMap_append, List.filter_append, hops, hrest,
      hwarnings, hmore, List.nil_append, true_and]
    cases hop : op.ends with
    | true => simp [hop, List.replicate_succ]
    | false => simp [hop]

theorem actAll_of_open {log : CallLog} (h : log.finished = false) (ops : List (LogOp M)) :
    let effects := (log.actAll ops).2 ++ (log.actAll ops).1.drop.2
    (log.actAll ops).1 = { log with finished := ops.any LogOp.ends } ∧
      effects.filterMap Effect.op? =
        ((LogOp.beforeEnd ops).flatMap (LogOp.entries log.logPayloads log.verbose)).map .log ++
          ((LogOp.firstEnd ops).marks log.verbose ++ [.finish]) ∧
      effects.filter Effect.isSuppressed =
        (List.replicate (ops.countP LogOp.ends - 1) log.suppressed).flatten := by
  induction ops with
  | nil =>
    have hdrop := drop_of_open h
    refine ⟨by simp [actAll, ← h], ?_, ?_⟩
    · simp [actAll, hdrop, ops_closing h, LogOp.beforeEnd, LogOp.firstEnd]
    · simp [actAll, hdrop, warnings_closing h]
  | cons op ops ih =>
    obtain ⟨hlog, hops, hwarnings⟩ := act_of_open h op
    cases hop : op.ends with
    | false =>
      have hnone : op.ending? = none := by simpa [LogOp.ends] using hop
      have hsame : (log.act op).1 = log := by
        rw [hlog, hop, ← h]
      obtain ⟨hlast, hrest, hmore⟩ := ih
      simp only [List.filterMap_append, List.filter_append] at hrest hmore ⊢
      simp only [actAll, hsame, List.filterMap_append, List.filter_append, List.append_assoc, hops,
        hrest, hwarnings, hmore]
      refine ⟨by rw [hlast]; simp [hop], ?_, ?_⟩
      · simp [hnone, LogOp.beforeEnd, LogOp.firstEnd, hop]
      · simp [hop]
    | true =>
      -- The span ends here, and nothing that follows reaches it.
      obtain ⟨v, hv⟩ := Option.isSome_iff_exists.1 hop
      have hf : (log.act op).1.finished = true := by rw [hlog, hop]
      obtain ⟨hlast, hrest, hmore⟩ := actAll_of_finished hf ops
      have hdrop : (log.act op).1.drop.2 = [] := by simp [drop, hf]
      have hentries : op.entries log.logPayloads log.verbose = [] := by
        cases op <;> first | rfl | cases hv
      have hline : (log.act op).1.suppressed = log.suppressed := by rw [hlog]; rfl
      simp only [actAll, hlast, hdrop, List.append_nil, List.filterMap_append, List.filter_append,
        hops, hrest, hwarnings, hmore, hline]
      refine ⟨by rw [hlog]; simp [hop], ?_, ?_⟩
      · simp [hentries, hv, LogOp.beforeEnd, LogOp.firstEnd, hop]
      · simp [hop]

-- What the span is told from the opening of its log to the drop, and what is reported of it.
theorem lifetime_of_open {log : CallLog} (h : log.finished = false) (setup : Option Error)
    (ops : List (LogOp M)) :
    (log.lifetime setup ops).filterMap Effect.op? =
        (setup.toList.map Error.entry ++ (LogOp.beforeEnd ops).flatMap
          (LogOp.entries log.logPayloads log.verbose)).map .log ++
          ((LogOp.firstEnd ops).marks log.verbose ++ [.finish]) ∧
      (log.lifetime setup ops).filter Effect.isSuppressed =
        (List.replicate (ops.countP LogOp.ends - 1) log.suppressed).flatten := by
  obtain ⟨-, hops, hwarnings⟩ := actAll_of_open h ops
  obtain ⟨hopening, hquiet⟩ := opening_of_open h setup
  unfold lifetime
  rw [List.filterMap_append, List.filter_append, hops, hwarnings, hopening, hquiet]
  simp

theorem replay_lifetime {log : CallLog} (h : log.finished = false) (setup : Option Error)
    (ops : List (LogOp M)) {r : SpanRecord} (hr : r.finishCount = 0) :
    r.replay (log.lifetime setup ops) =
        { r with
          tags := (LogOp.firstEnd ops).tags r.tags
          logs := r.logs ++ (setup.toList.map Error.entry ++ (LogOp.beforeEnd ops).flatMap
            (LogOp.entries log.logPayloads log.verbose)) ++
            (LogOp.firstEnd ops).entries log.verbose
          finishCount := 1 } ∧
      r.InTime (log.lifetime setup ops) := by
  obtain ⟨hops, -⟩ := lifetime_of_open h setup ops
  generalize setup.toList.map Error.entry ++ (LogOp.beforeEnd ops).flatMap
    (LogOp.entries log.logPayloads log.verbose) = entries at hops ⊢
  -- A span that is told the same by simpler means.
  have hsame : (log.lifetime setup ops).filterMap Effect.op? =
      (entries.map (fun f => Effect.span (.log f)) ++
        log.closing (LogOp.firstEnd ops)).filterMap Effect.op? := by
    rw [hops, List.filterMap_append, Effect.ops_entries, ops_closing h]
  have hentries := r.replay_entries entries hr
  constructor
  · rw [r.replay_congr hsame, SpanRecord.replay_append, hentries,
      replay_closing h _ { r with logs := r.logs ++ entries } hr]
  · rw [r.inTime_congr hsame, SpanRecord.inTime_append, hentries]
    exact ⟨(inTime_entries hr entries).1,
      (inTime_closing h _ { r with logs := r.logs ++ entries } hr).1⟩

end CallLog

/--
A log on a new span, with any operations up to its drop.  The span is told some entries, then how it
ends, then to finish, and nothing more; the recorder counts nothing against it.  The entries are the
fault of the setup and those of the operations before the first end.  Each end that comes later is
reported as suppressed and does nothing else, and no other operation is reported so.
-/
theorem span_of_log {M : Type} [Payload M] (r : Recorder) (options : SpanOptions) (config : Config)
    (setup : Option Error) (ops : List (LogOp M)) :
    let log := CallLog.ofConfig config (r.nextContext options)
    let effects := log.lifetime setup ops
    let entries := setup.toList.map Error.entry ++ (LogOp.beforeEnd ops).flatMap
      (LogOp.entries config.logPayloads config.verbose)
    let v := LogOp.firstEnd ops
    let after := (r.start options).1.perform (r.start options).2 effects
    (effects.filterMap Effect.op? = entries.map .log ++ v.marks config.verbose ++ [.finish] ∧
        SpanOp.finish ∉ entries.map .log ++ v.marks config.verbose) ∧
      (∃ record, after.records[(r.start options).2]? = some record ∧
        record = { r.newRecord options with
          tags := v.tags (r.newRecord options).tags
          logs := entries ++ v.entries config.verbose
          finishCount := 1 } ∧
        record.tag? TagKey.error =
          (v.fault?.map fun _ => .bool true).or ((r.newRecord options).tag? TagKey.error)) ∧
      (after.rejected = r.rejected ∧ after.late = r.late) ∧
      effects.filter Effect.isSuppressed =
        (List.replicate (ops.countP LogOp.ends - 1) log.suppressed).flatten ∧
      ∀ before op rest, ops = before ++ op :: rest → op.ends = true →
        before.any LogOp.ends = true →
        (log.actAll before).1.act op = ((log.actAll before).1, log.suppressed) := by
  intro log effects entries v after
  have h : log.finished = false := rfl
  have hnew : (r.newRecord options).finishCount = 0 := rfl
  obtain ⟨hops, hwarnings⟩ := CallLog.lifetime_of_open h setup ops
  obtain ⟨hreplay, hintime⟩ := CallLog.replay_lifetime h setup ops hnew
  have hstarted : (r.start options).1.records[(r.start options).2]? =
      some (r.newRecord options) := List.getElem?_concat_length
  refine ⟨⟨?_, ?_⟩, ⟨_, ?_, rfl, ?_⟩, ?_, hwarnings, ?_⟩
  · rw [List.append_assoc]
    exact hops
  · have hentries : SpanOp.finish ∉ entries.map SpanOp.log := by simp
    have hmarks : SpanOp.finish ∉ v.marks config.verbose := by
      cases v with
      | completed => cases hv : config.verbose <;> simp [Ending.marks]
      | failed s => simp [Ending.marks]
    simp [hmarks]
  · rw [Recorder.getElem?_perform, if_pos rfl, hstarted]
    exact congrArg some hreplay
  · cases v with
    | completed => rfl
    | failed s => exact (getTag?_setTag _ _ _ _).trans (if_pos rfl)
  · exact (r.start options).1.counts_perform _ hstarted hintime
  · rintro before op rest - hop hbefore
    have hlog := (CallLog.actAll_of_open h before).1
    have hf : (log.actAll before).1.finished = true := by rw [hlog, hbefore]
    have hline : (log.actAll before).1.suppressed = log.suppressed := by
      rw [hlog]
      rfl
    rw [CallLog.act_of_ended hf hop, hline]

end CallTrace
