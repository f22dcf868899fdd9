import CallTrace.Proofs.Session.Detail
import CallTrace.Proofs.Session.Spans

/-!
# Verbosity

How much is logged of a call changes nothing else.  Two sessions that differ in nothing but the
options for logging are played side by side: whatever is done to them, they stay the same but for
detail, so their parties get the same answers and every span ends at the same move.
-/

namespace CallTrace

-- Only answers about spans can show any detail.
def Answer.bare : Answer → Answer
  | .span found => .span (found.map bareSpan)
  | .spans found => .spans (found.map bareSpan)
  | answer => answer

def Entry.bare (e : Entry) : Entry :=
  { e with
    answer := e.answer.bare
    counts := e.counts.bare
    notes := e.notes.map Note.bare
    finishedNow := e.finishedNow.map bareSpan }

namespace Session

def bare (s : Session) : Session := { s with exchange := s.exchange.bare }

/-- Two sessions that differ in detail alone. -/
def BareEq (s s' : Session) : Prop := s.bare = s'.bare

namespace BareEq

variable {s s' : Session} (h : s.BareEq s')
include h

theorem exchange : s.exchange.BareEq s'.exchange :=
  show s.bare.exchange = s'.bare.exchange from congrArg Session.exchange h

theorem recorder : s.recorder.bare = s'.recorder.bare := h.exchange.tracing.recorder

theorem waiting : s.waiting = s'.waiting :=
  show s.bare.waiting = s'.bare.waiting from congrArg Session.waiting h

theorem responses : s.responses = s'.responses :=
  show s.bare.responses = s'.bare.responses from congrArg Session.responses h

theorem logs : s.logs = s'.logs :=
  show s.bare.logs = s'.bare.logs from congrArg Session.logs h

theorem carrier : s.carrier = s'.carrier :=
  show s.bare.carrier = s'.bare.carrier from congrArg Session.carrier h

theorem seenFinished : s.seenFinished = s'.seenFinished :=
  show s.bare.seenFinished = s'.bare.seenFinished from congrArg Session.seenFinished h

theorem withExchange {x y : Exchange} (hxy : x.BareEq y) :
    ({ s with exchange := x } : Session).BareEq { s' with exchange := y } := by
  show { s.bare with exchange := x.bare } = { s'.bare with exchange := y.bare }
  rw [h, hxy]

theorem withTracing {t u : Tracing} (htu : t.BareEq u) :
    ({ s with exchange := { s.exchange with toTracing := t } } : Session).BareEq
      { s' with exchange := { s'.exchange with toTracing := u } } :=
  h.withExchange (h.exchange.withTracing htu)

theorem withRecorder {f g : Recorder → Recorder}
    (hfg : (f s.recorder).bare = (g s'.recorder).bare) :
    (s.withRecorder f).BareEq (s'.withRecorder g) :=
  h.withTracing (h.exchange.tracing.withRecorder hfg)

theorem changeRecorder {f : Recorder → Recorder} (hf : ∀ r, (f r).bare = f r.bare) :
    (s.withRecorder f).BareEq (s'.withRecorder f) := by
  apply h.withRecorder
  rw [hf, hf, h.recorder]

theorem withWaiting (waiting : Table (Nat × Suspended)) :
    ({ s with waiting := waiting } : Session).BareEq { s' with waiting := waiting } :=
  congrArg (fun s : Session => ({ s with waiting := waiting } : Session)) h

theorem withResponses (responses : Table (Nat × Source)) :
    ({ s with responses := responses } : Session).BareEq { s' with responses := responses } :=
  congrArg (fun s : Session => ({ s with responses := responses } : Session)) h

theorem withLogs (logs : Table OpenLog) :
    ({ s with logs := logs } : Session).BareEq { s' with logs := logs } :=
  congrArg (fun s : Session => ({ s with logs := logs } : Session)) h

theorem withCarrier (carrier : Metadata) :
    ({ s with carrier := carrier } : Session).BareEq { s' with carrier := carrier } :=
  congrArg (fun s : Session => ({ s with carrier := carrier } : Session)) h

theorem withSeenFinished {seen seen' : List Nat} (hseen : seen = seen') :
    ({ s with seenFinished := seen } : Session).BareEq { s' with seenFinished := seen' } := by
  rw [hseen]
  exact congrArg (fun s : Session => ({ s with seenFinished := seen' } : Session)) h

theorem perform (span : Nat) (effects : List Effect) :
    (s.perform span effects).BareEq (s'.perform span effects) :=
  h.withTracing (h.exchange.tracing.perform span rfl)

/-! ### Calls -/

theorem releaseCall (held : Nat × Suspended) : (s.releaseCall held).BareEq (s'.releaseCall held) :=
  h.withExchange (h.exchange.abandon held.1 held.2)

theorem suspend (name : String) (held : Nat × Suspended) :
    (s.suspend name held).BareEq (s'.suspend name held) := by
  unfold Session.suspend
  rw [h.waiting]
  dsimp only
  split
  · exact h.withWaiting _
  · exact (h.withWaiting _).releaseCall _

theorem dropCall (name : String) : InStep BareEq (s.dropCall name) (s'.dropCall name) := by
  unfold Session.dropCall
  rw [h.waiting]
  split
  · exact ⟨h, rfl⟩
  · exact ⟨(h.withWaiting _).releaseCall _, rfl⟩

/-! ### Response streams -/

theorem releaseResponse (source : Source) :
    (s.releaseResponse source).BareEq (s'.releaseResponse source) :=
  h.withExchange (h.exchange.dropSource source)

theorem keepResponse (name : String) (response : Nat × Source) :
    (s.keepResponse name response).BareEq (s'.keepResponse name response) := by
  unfold Session.keepResponse
  rw [h.responses]
  dsimp only
  split
  · exact h.withResponses _
  · exact (h.withResponses _).releaseResponse _

theorem dropStream (name : String) : InStep BareEq (s.dropStream name) (s'.dropStream name) := by
  unfold Session.dropStream
  rw [h.responses]
  split
  · exact ⟨h, rfl⟩
  · exact ⟨(h.withResponses _).releaseResponse _, rfl⟩

theorem pollResponse (name : String) (all : Bool) :
    InStep BareEq (s.pollResponse name all) (s'.pollResponse name all) := by
  unfold Session.pollResponse
  rw [h.responses]
  split
  · exact ⟨h, rfl⟩
  · rename_i i source _
    obtain ⟨t, u, ⟨left, answers⟩, ht, hu, htu⟩ :=
      (h.exchange.tracing.pollWhile source (if all then source.size + 1 else 1)).split
    dsimp only
    rw [ht, hu]
    have hpolled := (h.withTracing htu).withResponses (s'.responses.set name (i, left))
    cases all with
    | true => exact ⟨hpolled, rfl⟩
    | false => cases answers <;> exact ⟨hpolled, rfl⟩

theorem unwrapStream (name : String) :
    InStep BareEq (s.unwrapStream name) (s'.unwrapStream name) := by
  unfold Session.unwrapStream
  rw [h.responses]
  split
  · exact ⟨h, rfl⟩
  · rename_i i source _
    obtain ⟨t, u, inner, ht, hu, htu⟩ := (h.exchange.tracing.unwatch source).split
    obtain ⟨t', u', ⟨left, answer⟩, ht', hu', htu'⟩ := (htu.poll inner).split
    dsimp only
    rw [ht, hu]
    dsimp only
    rw [ht', hu']
    exact ⟨(h.withTracing (htu'.dropSource left)).withResponses _, rfl⟩

theorem terminated (name : String) : s.terminated name = s'.terminated name := by
  unfold Session.terminated
  rw [h.responses]
  split
  · rfl
  · rename_i i _ _
    -- The watches of a call are no detail.
    have hcall := h.exchange.tracing.tracedCall? i
    generalize s.exchange.tracedCall? i = c at hcall ⊢
    generalize s'.exchange.tracedCall? i = d at hcall ⊢
    rcases c with _ | ⟨_, _, _, _, _, _, responses⟩ <;>
      rcases d with _ | ⟨_, _, _, _, _, _, responses'⟩
    · rfl
    · cases hcall
    · cases hcall
    · cases congrArg (Option.map fun c => c.call.responses) hcall
      rcases responses with _ | (w | w) <;> rfl

/-! ### Runs of calls -/

theorem conclude (name : String) (i : Nat) {r r' : Exchange × Progress}
    (hr : InStep Exchange.BareEq r r') :
    InStep BareEq (s.conclude name i r) (s'.conclude name i r') := by
  obtain ⟨x, y, progress, rfl, rfl, hxy⟩ := hr.split
  unfold Session.conclude
  cases progress with
  | waiting rest => exact ⟨(h.withExchange hxy).suspend name (i, rest), rfl⟩
  | ended r =>
    obtain ⟨x', y', ⟨result, response⟩, hx, hy, hxy'⟩ := (hxy.settle i r).split
    dsimp only
    rw [hx, hy]
    cases response with
    | none => exact ⟨h.withExchange hxy', rfl⟩
    | some source => exact ⟨(h.withExchange hxy').keepResponse name (i, source), rfl⟩

theorem begin (name : String) (spec : CallSpec) (body : Seen → Continuation) :
    InStep BareEq (s.begin name spec body) (s'.begin name spec body) := by
  obtain ⟨x, y, ⟨i, seen⟩, hx, hy, hxy⟩ := (h.exchange.startCall none none spec).split
  unfold Session.begin
  rw [hx, hy]
  exact h.conclude name i (hxy.run i (body seen))

theorem resume (name : String) : InStep BareEq (s.resume name) (s'.resume name) := by
  unfold Session.resume
  rw [h.waiting]
  split
  · exact ⟨h, rfl⟩
  · rename_i i rest _
    exact (h.withWaiting _).conclude name i (h.exchange.resume i rest)

/-! ### Sinks and what outlives its call -/

theorem onOutlet (name : String) (f : Outlet Message → Outlet Message × Answer) :
    InStep BareEq (s.onOutlet name f) (s'.onOutlet name f) := by
  unfold Session.onOutlet
  rw [h.exchange.outletNames, h.exchange.calls]
  split
  · exact ⟨h, rfl⟩
  · split
    · exact ⟨h, rfl⟩
    · exact ⟨h.withExchange (h.exchange.update _ _), rfl⟩

theorem pollKept (name : String) : InStep BareEq (s.pollKept name) (s'.pollKept name) := by
  unfold Session.pollKept
  rw [h.exchange.keptStreams]
  split
  · exact ⟨h, rfl⟩
  · rename_i source _
    obtain ⟨x, y, ⟨left, answer⟩, hx, hy, hxy⟩ := (h.exchange.poll source).split
    rw [hx, hy]
    dsimp only
    rw [hxy.keptStreams]
    exact ⟨h.withExchange (hxy.withKeptStreams _), rfl⟩

theorem writeKept (name : String) (op : SinkOp Message) :
    InStep BareEq (s.writeKept name op) (s'.writeKept name op) := by
  unfold Session.writeKept
  rw [h.exchange.keptWriters]
  split
  · exact ⟨h, rfl⟩
  · rename_i i _
    obtain ⟨x, y, result, hx, hy, hxy⟩ := (h.exchange.writeOnce i op).split
    rw [hx, hy]
    cases result with
    | none => exact ⟨h.withExchange hxy, rfl⟩
    | some result => exact ⟨h.withExchange hxy, rfl⟩

theorem dropKeptStream (name : String) :
    InStep BareEq (s.dropKeptStream name) (s'.dropKeptStream name) := by
  unfold Session.dropKeptStream
  rw [h.exchange.keptStreams]
  split
  · exact ⟨h, rfl⟩
  · exact ⟨h.withExchange ((h.exchange.withKeptStreams _).dropSource _), rfl⟩

theorem dropKeptWriter (name : String) :
    InStep BareEq (s.dropKeptWriter name) (s'.dropKeptWriter name) := by
  unfold Session.dropKeptWriter
  rw [h.exchange.keptWriters]
  split
  · exact ⟨h, rfl⟩
  · exact ⟨h.withExchange ((h.exchange.withKeptWriters _).releaseWriter _), rfl⟩

theorem dropKept (name : String) : InStep BareEq (s.dropKept name) (s'.dropKept name) := by
  obtain ⟨x, y, stream, hx, hy, hxy⟩ := (h.dropKeptStream name).split
  obtain ⟨x', y', writer, hx', hy', hxy'⟩ := (hxy.dropKeptWriter name).split
  unfold Session.dropKept
  rw [hx, hy]
  dsimp only
  rw [hx', hy']
  exact ⟨hxy', rfl⟩

/-! ### Spans and logs past the calls -/

theorem onSpan (name : String) (op : SpanOp) :
    InStep BareEq (s.onSpan name op) (s'.onSpan name op) := by
  unfold Session.onSpan
  rw [h.exchange.spanNames]
  split
  · exact ⟨h, rfl⟩
  · exact ⟨h.withRecorder (Recorder.apply_of_bare h.recorder _ op), rfl⟩

theorem startSpan (as name : String) (parent : Parent) (tags : List (String × TagValue)) :
    InStep BareEq (s.startSpan as name parent tags) (s'.startSpan as name parent tags) := by
  unfold Session.startSpan
  rw [h.exchange.parentContext?]
  obtain ⟨hr, hspan⟩ := Recorder.start_of_bare h.recorder
    { name, parent := s'.exchange.parentContext? none parent, tags }
  dsimp only
  rw [hspan, Recorder.context?_of_bare hr]
  split
  · exact ⟨h, rfl⟩
  · rw [h.exchange.spanNames]
    have hstarted := h.exchange.withTracing (h.exchange.tracing.withRecorder hr)
    exact ⟨h.withExchange (hstarted.withSpanNames _), rfl⟩

theorem onLog (name : String) (f : CallLog → CallLog × List Effect) :
    InStep BareEq (s.onLog name f) (s'.onLog name f) := by
  unfold Session.onLog
  rw [h.logs]
  split
  · exact ⟨h, rfl⟩
  · exact ⟨(h.withLogs _).perform _ _, rfl⟩

theorem releaseLog (l : OpenLog) : (s.releaseLog l).BareEq (s'.releaseLog l) :=
  h.perform l.span l.log.drop.2

theorem openLog (as name : String) (config : Config) (fallback : Option Error) :
    InStep BareEq (s.openLog as name config fallback) (s'.openLog as name config fallback) := by
  obtain ⟨hr, hspan⟩ := Recorder.start_of_bare h.recorder { name }
  have hstarted : (s.withRecorder fun _ => (s.recorder.start { name }).1).BareEq
      (s'.withRecorder fun _ => (s'.recorder.start { name }).1) := h.withRecorder hr
  unfold Session.openLog
  dsimp only
  rw [hspan, Recorder.context?_of_bare hr, h.logs]
  split
  · exact ⟨h, rfl⟩
  · split
    · exact ⟨((hstarted.withLogs _).perform _ _).releaseLog _, rfl⟩
    · exact ⟨(hstarted.withLogs _).perform _ _, rfl⟩

/-! ### The end of a session -/

theorem closeCalls : s.closeCalls.BareEq s'.closeCalls := by
  unfold Session.closeCalls
  rw [h.waiting]
  exact List.foldl_rel (r := BareEq) (h.withWaiting {}) fun e _ _ _ h => h.releaseCall e.2

theorem closeResponses : s.closeResponses.BareEq s'.closeResponses := by
  unfold Session.closeResponses
  rw [h.responses]
  exact List.foldl_rel (r := BareEq) (h.withResponses {}) fun e _ _ _ h => h.releaseResponse e.2.2

theorem closeLogs : s.closeLogs.BareEq s'.closeLogs := by
  unfold Session.closeLogs
  rw [h.logs]
  exact List.foldl_rel (r := BareEq) (h.withLogs {}) fun e _ _ _ h => h.releaseLog e.2

theorem closeStreams : s.closeStreams.BareEq s'.closeStreams := by
  apply h.withExchange
  rw [h.exchange.keptStreams]
  exact List.foldl_rel (r := Exchange.BareEq) (h.exchange.withKeptStreams {})
    fun e _ _ _ h => h.dropSource e.2

theorem closeWriters : s.closeWriters.BareEq s'.closeWriters := by
  apply h.withExchange
  rw [h.exchange.keptWriters]
  exact List.foldl_rel (r := Exchange.BareEq) (h.exchange.withKeptWriters {})
    fun e _ _ _ h => h.releaseWriter e.2

theorem close : s.close.BareEq s'.close :=
  h.closeCalls.closeResponses.closeLogs.closeStreams.closeWriters

/-! ### Moves -/

-- What is asked about spans is answered in both sessions, but for detail.
theorem answer (st : Step) :
    (s.answer st).1.BareEq (s'.answer st).1 ∧ (s.answer st).2.bare = (s'.answer st).2.bare := by
  have of_inStep {r r' : Session × Answer} (hr : InStep BareEq r r') :
      r.1.BareEq r'.1 ∧ r.2.bare = r'.2.bare := ⟨hr.states, congrArg Answer.bare hr.result⟩
  have hr := h.recorder
  cases st with
  | setActive parent =>
    simp only [Session.answer]
    rw [h.exchange.parentContext?]
    exact ⟨h.changeRecorder fun _ => rfl, rfl⟩
  | failInject kind => exact ⟨h.changeRecorder fun _ => rfl, rfl⟩
  | failExtract kind => exact ⟨h.changeRecorder fun _ => rfl, rfl⟩
  | resetFailures => exact ⟨h.changeRecorder fun _ => rfl, rfl⟩
  | reset => exact ⟨h.changeRecorder fun r => by simp [Recorder.reset, Recorder.bare], rfl⟩
  | find name => exact ⟨h, congrArg Answer.span (Recorder.findFinished?_of_bare hr name)⟩
  | single => exact ⟨h, congrArg Answer.span (Recorder.singleFinished?_of_bare hr)⟩
  | finished => exact ⟨h, congrArg Answer.spans (Recorder.finishedSpans_of_bare hr)⟩
  | recorderOutline => exact ⟨h, congrArg Answer.text (Recorder.outline_of_bare hr)⟩
  | start as name parent tags => exact of_inStep (h.startSpan as name parent tags)
  | tag on key value => exact of_inStep (h.onSpan on _)
  | log on fields => exact of_inStep (h.onSpan on _)
  | finishSpan on => exact of_inStep (h.onSpan on _)
  | spanOutline on =>
    have hcontext : s.recorder.context? = s'.recorder.context? :=
      funext (Recorder.context?_of_bare hr)
    simp only [Session.answer]
    rw [h.exchange.spanNames, hcontext]
    split <;> exact ⟨h, rfl⟩
  | inject parent format =>
    simp only [Session.answer, h.exchange.parentContext?, Recorder.inject_of_bare hr, h.carrier]
    split
    · exact ⟨h, rfl⟩
    · exact ⟨h.withCarrier _, rfl⟩
  | extract format =>
    simp only [Session.answer]
    rw [Recorder.extract_of_bare hr, h.carrier]
    exact ⟨h, rfl⟩
  | carrier entries => exact ⟨h.withCarrier entries, rfl⟩
  | openLog as name config fallback => exact of_inStep (h.openLog as name config fallback)
  | request on m => exact of_inStep (h.onLog on fun l => (l, l.request m))
  | response on m => exact of_inStep (h.onLog on fun l => (l, l.response m))
  | stage on stage => exact of_inStep (h.onLog on fun l => (l, l.stage stage))
  | finish on => exact of_inStep (h.onLog on CallLog.finish)
  | fault on status => exact of_inStep (h.onLog on fun l => l.fault status)
  | setupFault on e => exact of_inStep (h.onLog on fun l => (l, l.setupFault e))
  | logContext on =>
    simp only [Session.answer, h.logs]
    split <;> exact ⟨h, rfl⟩
  | logOutline on =>
    simp only [Session.answer, h.logs]
    split <;> exact ⟨h, rfl⟩
  | dropLog on =>
    simp only [Session.answer, h.logs]
    split
    · exact ⟨(h.withLogs _).releaseLog _, rfl⟩
    · exact ⟨h, rfl⟩
  | call name spec actions => exact of_inStep (h.begin name spec _)
  | poll on => exact of_inStep (h.resume on)
  | dropCall on => exact of_inStep (h.dropCall on)
  | next on => exact of_inStep (h.pollResponse on false)
  | drain on => exact of_inStep (h.pollResponse on true)
  | terminated on => exact ⟨h, congrArg Answer.bare (h.terminated on)⟩
  | streamHint on =>
    simp only [Session.answer, h.responses]
    split <;> exact ⟨h, rfl⟩
  | dropStream on => exact of_inStep (h.dropStream on)
  | unwrapStream on => exact of_inStep (h.unwrapStream on)
  | receive on => exact of_inStep (h.onOutlet on fun o => (o.receive.1, .received o.receive.2))
  | closeReceiver on => exact of_inStep (h.onOutlet on fun o => (o.close, .done))
  | pollKept on => exact of_inStep (h.pollKept on)
  | writeKept on op => exact of_inStep (h.writeKept on op)
  | dropKept on => exact of_inStep (h.dropKept on)
  | close => exact ⟨h.close, rfl⟩

theorem act (m : Move) :
    (m.act s).1.BareEq (m.act s').1 ∧ (m.act s).2.bare = (m.act s').2.bare := by
  cases m with
  | step st => exact h.answer st
  | begin name spec body =>
    have hbegun := h.begin name spec body
    exact ⟨hbegun.states, congrArg Answer.bare hbegun.result⟩

-- The same spans have been finished since the last move.
theorem finishedNow :
    (s.recorder.finishedSpans.filter fun f => !s.seenFinished.contains f.1).map bareSpan =
      (s'.recorder.finishedSpans.filter fun f => !s'.seenFinished.contains f.1).map bareSpan := by
  have hfilter (spans : List (Nat × SpanRecord)) (seen : List Nat) :
      (spans.filter fun f => !seen.contains f.1).map bareSpan =
        (spans.map bareSpan).filter fun f => !seen.contains f.1 := by
    rw [List.filter_map]
    rfl
  rw [hfilter, hfilter, Recorder.finishedSpans_of_bare h.recorder, h.seenFinished]

theorem play (m : Move) :
    (s.play m).1.BareEq (s'.play m).1 ∧ (s.play m).2.bare = (s'.play m).2.bare := by
  -- Every move starts with nothing on record.
  have hcleared : s.cleared.BareEq s'.cleared := congrArg cleared h
  obtain ⟨hact, hanswer⟩ := hcleared.act m
  have hcounts := Recorder.counts_of_bare hact.recorder
  have hreports := hact.exchange.tracing.reports
  have hfinished := hact.finishedNow
  have hnumbers := congrArg (List.map (·.1)) hfinished
  rw [List.map_map, List.map_map] at hnumbers
  unfold Session.play record
  constructor
  · exact hact.withSeenFinished (congrArg₂ (· ++ ·) hact.seenFinished hnumbers)
  · show Entry.mk _ _ _ _ _ = Entry.mk _ _ _ _ _
    rw [Entry.mk.injEq]
    exact ⟨hanswer, hcounts, hact.exchange.notes, hfinished, hreports⟩

omit h in
theorem playAll (h : s.BareEq s') (moves : List Move) :
    (s.playAll moves).1.BareEq (s'.playAll moves).1 ∧
      (s.playAll moves).2.map Entry.bare = (s'.playAll moves).2.map Entry.bare := by
  induction moves generalizing s s' with
  | nil => exact ⟨h, rfl⟩
  | cons m moves ih =>
    obtain ⟨hplayed, hentry⟩ := h.play m
    obtain ⟨hrest, hentries⟩ := ih hplayed
    exact ⟨hrest, List.cons_eq_cons.2 ⟨hentry, hentries⟩⟩

theorem spanOf? (i : Nat) :
    (s.spanOf? i).map SpanRecord.bare = (s'.spanOf? i).map SpanRecord.bare := by
  have hbare (s : Session) : (s.spanOf? i).map SpanRecord.bare =
      ((s.exchange.tracedCall? i).map TracedCall.bare).bind
        fun c => s.recorder.bare.records[c.span]? := by
    unfold Session.spanOf? Recorder.bare
    cases s.exchange.tracedCall? i with
    | none => rfl
    | some c => exact (List.getElem?_map ..).symm
  rw [hbare, hbare, h.exchange.tracing.tracedCall?, h.recorder]

end BareEq

/-! ## Options for logging -/

/--
The options for logging only add detail.  Whatever is done to a session, under any two settings the
answers, the notes of the continuations and the reports are the same, the same spans end with every
move, and the span of each call is the same but for the entries of its stages and the data of its
messages.  So it is for a single call after every run of steps of its parties, whose continuation is
handed the same metadata.  Only late operations, which may be detail, are not counted.
-/
theorem logging_options_add_detail (recorder : Recorder) (config : Config) (ambient : Bool)
    (moves : List Move) (verbose payloads verbose' payloads' : Bool) :
    let (s, entries) := (fresh recorder (config.logging verbose payloads) ambient).playAll moves
    let (s', entries') := (fresh recorder (config.logging verbose' payloads') ambient).playAll moves
    entries.map Entry.bare = entries'.map Entry.bare ∧
      s.exchange.calls.length = s'.exchange.calls.length ∧
      (∀ i < s.exchange.calls.length, ∃ record record', s.spanOf? i = some record ∧
        s'.spanOf? i = some record' ∧ record.bare = record'.bare) ∧
      (∀ (M : Type) [Payload M] (o : CallStart M) (events : List (CallEvent M)),
        let started := o.logging verbose payloads
        let started' := o.logging verbose' payloads'
        started.outcome.2.1 = started'.outcome.2.1 ∧ ∃ record record',
          (started.after events).records[started.started.span]? = some record ∧
            (started'.after events).records[started'.started.span]? = some record' ∧
            record.bare = record'.bare) := by
  have hfresh : (fresh recorder (config.logging verbose payloads) ambient).BareEq
      (fresh recorder (config.logging verbose' payloads') ambient) := rfl
  obtain ⟨hplayed, hentries⟩ := hfresh.playAll moves
  obtain ⟨b, hs, -⟩ :=
    (settled_fresh recorder (config.logging verbose payloads) ambient).playAll moves
  refine ⟨hentries, congrArg List.length hplayed.exchange.calls, fun i hi => ?_,
    fun M _ o events => ?_⟩
  · obtain ⟨record, hrecord, -⟩ := hs.finishCount hi
    have hspan := hplayed.spanOf? i
    rw [hrecord] at hspan
    obtain ⟨record', hrecord', hbare⟩ := Option.map_eq_some_iff.1 hspan.symm
    exact ⟨record, record', hrecord, hrecord', hbare.symm⟩
  · have hbare : (o.logging verbose payloads).bare = (o.logging verbose' payloads').bare := rfl
    have hspan := CallStart.span_of_bare hbare events
    rw [CallStart.record_after, CallStart.record_after] at hspan
    exact ⟨CallStart.handed_of_bare hbare, _, _, CallStart.record_after _ events,
      CallStart.record_after _ events, Option.some.inj hspan⟩

end Session

end CallTrace
