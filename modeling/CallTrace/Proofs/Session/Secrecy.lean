import CallTrace.Proofs.Session.RedactionRun
import CallTrace.Session.Move

/-!
# Secrecy

With payloads switched off, what messages hold stays out of the trace.  A session is played beside
the session in which the messages of all moves are redacted.  The tracing is the same in both after
every move, so two sessions whose moves redact to the same ones leave the same spans and reports.
-/

namespace CallTrace

/-! ## Moves -/

namespace Step

/-- Opens no log that tells payloads. -/
def Silent : Step → Prop
  | openLog _ _ config _ => config.logPayloads = false
  | _ => True

def redacted : Step → Step
  | request on m => .request on m.redacted
  | response on m => .response on m.redacted
  | call name spec actions => .call name spec.redacted (Action.redactedAll actions)
  | writeKept on op => .writeKept on (op.map Message.redacted)
  | st => st

end Step

/-- Does what the other move does with redacted messages, and opens no log that tells payloads. -/
inductive Move.RedactsTo : Move → Move → Prop
  | step (st : Step) (h : st.Silent) : RedactsTo (.step st) (.step st.redacted)
  | begin (name : String) (spec : CallSpec) {body body' : Seen → Continuation}
      (h : ∀ seen, (body seen).RedactsTo (body' seen.redacted)) :
      RedactsTo (.begin name spec body) (.begin name spec.redacted body')

def Answer.redacted : Answer → Answer
  | polled answer => .polled answer.redacted
  | drained answers => .drained (answers.map Polled.redacted)
  | ended result => .ended result.redacted
  | attempted result => .attempted (result.map (OutletTicket.map Message.redacted))
  | received r => .received (r.map Message.redacted)
  | answer => answer

/-- What a step shows, but for what messages hold. -/
def Entry.redacted (e : Entry) : Entry :=
  { e with answer := e.answer.redacted, notes := e.notes.map Note.redacted }

/-! ## Sessions -/

namespace Session

/-- The redacted session of one in which nothing logs payloads. -/
structure RedactsTo (s s' : Session) : Prop where
  exchange : s.exchange.RedactsTo s'.exchange
  waiting : Table.Rel (fun a b => a.1 = b.1 ∧ a.2.RedactsTo b.2) s.waiting s'.waiting
  responses : s'.responses = s.responses.map (Prod.map id Source.redacted)
  silent : ∀ e ∈ s.logs.entries, e.2.log.logPayloads = false
  logs : s'.logs = s.logs
  carrier : s'.carrier = s.carrier
  seenFinished : s'.seenFinished = s.seenFinished

/-- Both steps are taken alike, and their answers differ at most in what messages hold. -/
abbrev AnswersAlike (r r' : Session × Answer) : Prop := InStepBy RedactsTo Answer.redacted r r'

namespace RedactsTo

variable {s s' : Session} (h : s.RedactsTo s')
include h

theorem recorder : s'.recorder = s.recorder := congrArg Tracing.recorder h.exchange.tracing

theorem withExchange {x y : Exchange} (hxy : x.RedactsTo y) :
    ({ s with exchange := x } : Session).RedactsTo { s' with exchange := y } :=
  { h with exchange := hxy }

theorem withTracing {t : Tracing} (ht : t.Silent) :
    ({ s with exchange := { s.exchange with toTracing := t } } : Session).RedactsTo
      { s' with exchange := { s'.exchange with toTracing := t } } :=
  h.withExchange (h.exchange.withTracing ht)

theorem withRecorder (f : Recorder → Recorder) :
    (s.withRecorder f).RedactsTo (s'.withRecorder f) := by
  unfold Session.withRecorder
  rw [show s'.exchange.recorder = s.exchange.recorder from h.recorder]
  exact h.withExchange (h.exchange.withRecorder _)

theorem perform (span : Nat) (effects : List Effect) :
    (s.perform span effects).RedactsTo (s'.perform span effects) := by
  have hsilent := h.exchange.silent
  unfold Session.perform
  rw [h.exchange.tracing]
  exact h.withTracing ⟨hsilent.config, hsilent.calls⟩

/-! ### Calls that wait -/

-- Under a name the same call waits in both sessions, or none does.
theorem waits (name : String) :
    (s.waiting.find? name = none ∧ s'.waiting.find? name = none) ∨
      ∃ i rest rest', s.waiting.find? name = some (i, rest) ∧
        s'.waiting.find? name = some (i, rest') ∧ rest.RedactsTo rest' := by
  have hheld := h.waiting.find? name
  generalize s.waiting.find? name = held at hheld ⊢
  generalize s'.waiting.find? name = held' at hheld ⊢
  cases hheld with
  | none => exact .inl ⟨rfl, rfl⟩
  | @some a b hab =>
    obtain ⟨i, rest⟩ := a
    obtain ⟨i', rest'⟩ := b
    obtain ⟨hi, hrest⟩ := hab
    cases hi
    exact .inr ⟨i, rest, rest', rfl, rfl, hrest⟩

theorem eraseWaiting (name : String) :
    ({ s with waiting := s.waiting.erase name } : Session).RedactsTo
      { s' with waiting := s'.waiting.erase name } :=
  { h with waiting := h.waiting.erase name }

theorem releaseCall (i : Nat) {rest rest' : Suspended} (hrest : rest.RedactsTo rest') :
    (s.releaseCall (i, rest)).RedactsTo (s'.releaseCall (i, rest')) :=
  h.withExchange (h.exchange.abandon i hrest)

theorem suspend (name : String) (i : Nat) {rest rest' : Suspended} (hrest : rest.RedactsTo rest') :
    (s.suspend name (i, rest)).RedactsTo (s'.suspend name (i, rest')) := by
  have hkept : ({ s with waiting := s.waiting.set name (i, rest) } : Session).RedactsTo
      { s' with waiting := s'.waiting.set name (i, rest') } :=
    { h with waiting := h.waiting.set name ⟨rfl, hrest⟩ }
  unfold Session.suspend
  obtain ⟨hold, hold'⟩ | ⟨j, old, old', hold, hold', hreleased⟩ := h.waits name
  · rw [hold, hold']
    exact hkept
  · rw [hold, hold']
    exact hkept.releaseCall j hreleased

theorem dropCall (name : String) : AnswersAlike (s.dropCall name) (s'.dropCall name) := by
  unfold Session.dropCall
  obtain ⟨hheld, hheld'⟩ | ⟨i, rest, rest', hheld, hheld', hrest⟩ := h.waits name
  · rw [hheld, hheld']
    exact ⟨h, rfl⟩
  · rw [hheld, hheld']
    exact ⟨(h.eraseWaiting name).releaseCall i hrest, rfl⟩

/-! ### Response streams -/

theorem response? (name : String) :
    s'.responses.find? name = (s.responses.find? name).map (Prod.map id Source.redacted) := by
  rw [h.responses, Table.find?_map]

theorem setResponse (name : String) (i : Nat) (source : Source) :
    ({ s with responses := s.responses.set name (i, source) } : Session).RedactsTo
      { s' with responses := s'.responses.set name (i, source.redacted) } :=
  { h with responses := by rw [h.responses, Table.map_set]; rfl }

theorem eraseResponse (name : String) :
    ({ s with responses := s.responses.erase name } : Session).RedactsTo
      { s' with responses := s'.responses.erase name } :=
  { h with responses := by rw [h.responses, Table.map_erase] }

theorem releaseResponse (source : Source) :
    (s.releaseResponse source).RedactsTo (s'.releaseResponse source.redacted) :=
  h.withExchange (h.exchange.dropSource source)

theorem keepResponse (name : String) (i : Nat) (source : Source) :
    (s.keepResponse name (i, source)).RedactsTo (s'.keepResponse name (i, source.redacted)) := by
  have hkept := h.setResponse name i source
  unfold Session.keepResponse
  rw [h.response?]
  cases s.responses.find? name with
  | none => exact hkept
  | some old => exact hkept.releaseResponse old.2

theorem dropStream (name : String) : AnswersAlike (s.dropStream name) (s'.dropStream name) := by
  unfold Session.dropStream
  rw [h.response?]
  cases s.responses.find? name with
  | none => exact ⟨h, rfl⟩
  | some held => exact ⟨(h.eraseResponse name).releaseResponse held.2, rfl⟩

theorem pollResponse (name : String) (all : Bool) :
    AnswersAlike (s.pollResponse name all) (s'.pollResponse name all) := by
  unfold Session.pollResponse
  rw [h.response?]
  cases s.responses.find? name with
  | none => exact ⟨h, rfl⟩
  | some held =>
    obtain ⟨i, source⟩ := held
    have hsilent := h.exchange.silent.pollWhile source (if all then source.size + 1 else 1)
    dsimp only [Option.map_some, Prod.map_apply, id_eq]
    rw [source.size_redacted, h.exchange.tracing, h.exchange.silent.pollWhile_redacted]
    generalize s.exchange.toTracing.pollWhile source (if all then source.size + 1 else 1) = polled
      at hsilent ⊢
    obtain ⟨t, left, answers⟩ := polled
    have hpolled := (h.withTracing hsilent).setResponse name i left
    cases all with
    | true => exact ⟨hpolled, rfl⟩
    | false => cases answers <;> exact ⟨hpolled, rfl⟩

theorem unwrapStream (name : String) :
    AnswersAlike (s.unwrapStream name) (s'.unwrapStream name) := by
  unfold Session.unwrapStream
  rw [h.response?]
  cases s.responses.find? name with
  | none => exact ⟨h, rfl⟩
  | some held =>
    obtain ⟨i, source⟩ := held
    have hsilent := h.exchange.silent.unwatch source
    dsimp only [Option.map_some, Prod.map_apply, id_eq]
    rw [h.exchange.tracing, Tracing.unwatch_redacted]
    generalize s.exchange.toTracing.unwatch source = unwatched at hsilent ⊢
    obtain ⟨t, inner⟩ := unwatched
    have hpolled := hsilent.poll inner
    dsimp only at hpolled ⊢
    rw [hsilent.poll_redacted]
    generalize t.poll inner = polled at hpolled ⊢
    obtain ⟨t', left, answer⟩ := polled
    dsimp only
    rw [Tracing.dropSource_redacted]
    exact ⟨(h.withTracing (hpolled.dropSource left)).eraseResponse name, rfl⟩

theorem terminated (name : String) : s'.terminated name = s.terminated name := by
  unfold Session.terminated
  rw [h.response?, h.exchange.tracing]
  cases s.responses.find? name <;> rfl

theorem streamHint (name : String) :
    AnswersAlike (s.answer (.streamHint name)) (s'.answer (.streamHint name)) := by
  simp only [Session.answer]
  rw [h.response?]
  cases s.responses.find? name with
  | none => exact ⟨h, rfl⟩
  | some held => exact ⟨h, congrArg Answer.size held.2.size_redacted⟩

/-! ### Runs of calls -/

theorem conclude (name : String) (i : Nat) {r r' : Exchange × Progress}
    (hr : Exchange.RunRedactsTo r r') :
    AnswersAlike (s.conclude name i r) (s'.conclude name i r') := by
  obtain ⟨x, progress⟩ := r
  obtain ⟨y, progress'⟩ := r'
  obtain ⟨hxy, hprogress⟩ := hr
  unfold Session.conclude
  cases hprogress with
  | waiting hrest => exact ⟨(h.withExchange hxy).suspend name i hrest, rfl⟩
  | ended r =>
    obtain ⟨x', y', ⟨result, response⟩, hx, hy, hxy'⟩ := (hxy.settle i r).split
    dsimp only at hx hy ⊢
    rw [hx, hy]
    cases response with
    | none => exact ⟨h.withExchange hxy', rfl⟩
    | some source => exact ⟨(h.withExchange hxy').keepResponse name i source, rfl⟩

theorem begin (name : String) (spec : CallSpec) {body body' : Seen → Continuation}
    (hbody : ∀ seen, (body seen).RedactsTo (body' seen.redacted)) :
    AnswersAlike (s.begin name spec body) (s'.begin name spec.redacted body') := by
  obtain ⟨x, y, ⟨i, seen⟩, hx, hy, hxy⟩ := (h.exchange.startCall none none spec).split
  unfold Session.begin
  rw [hx, hy]
  exact h.conclude name i (hxy.run i (hbody seen))

theorem resume (name : String) : AnswersAlike (s.resume name) (s'.resume name) := by
  unfold Session.resume
  obtain ⟨hheld, hheld'⟩ | ⟨i, rest, rest', hheld, hheld', hrest⟩ := h.waits name
  · rw [hheld, hheld']
    exact ⟨h, rfl⟩
  · rw [hheld, hheld']
    exact (h.eraseWaiting name).conclude name i (h.exchange.resume i hrest)

/-! ### Sinks and what outlives its call -/

theorem onOutlet (name : String) {f : Outlet Message → Outlet Message × Answer}
    (hf : ∀ o, f (o.map Message.redacted) = ((f o).1.map Message.redacted, (f o).2.redacted)) :
    AnswersAlike (s.onOutlet name f) (s'.onOutlet name f) := by
  unfold Session.onOutlet
  rw [h.exchange.outletNames]
  cases s.exchange.outletNames.find? name with
  | none => exact ⟨h, rfl⟩
  | some i =>
    dsimp only
    rw [h.exchange.outlet?]
    cases s.exchange.calls[i]?.bind CallState.outlet with
    | none => exact ⟨h, rfl⟩
    | some outlet =>
      dsimp only [Option.map_some]
      rw [hf]
      exact ⟨h.withExchange (h.exchange.update i fun _ => rfl), rfl⟩

theorem keptStream? (name : String) : s'.exchange.keptStreams.find? name =
    (s.exchange.keptStreams.find? name).map Source.redacted := by
  rw [h.exchange.keptStreams, Table.find?_map]

theorem pollKept (name : String) : AnswersAlike (s.pollKept name) (s'.pollKept name) := by
  unfold Session.pollKept
  rw [h.keptStream?]
  cases s.exchange.keptStreams.find? name with
  | none => exact ⟨h, rfl⟩
  | some source =>
    obtain ⟨x, y, ⟨left, answer⟩, hx, hy, hxy⟩ := (h.exchange.poll source).split
    dsimp only [Option.map_some]
    rw [hx, hy]
    have hkept : ({ x with keptStreams := x.keptStreams.set name left } : Exchange).RedactsTo
        { y with keptStreams := y.keptStreams.set name left.redacted } :=
      { hxy with keptStreams := by rw [hxy.keptStreams, Table.map_set] }
    exact ⟨h.withExchange hkept, rfl⟩

theorem writeKept (name : String) (op : SinkOp Message) :
    AnswersAlike (s.writeKept name op) (s'.writeKept name (op.map Message.redacted)) := by
  unfold Session.writeKept
  rw [h.exchange.keptWriters]
  cases s.exchange.keptWriters.find? name with
  | none => exact ⟨h, rfl⟩
  | some i =>
    obtain ⟨x, y, result, hx, hy, hxy⟩ := (h.exchange.writeOnce i op).split
    dsimp only
    rw [hx, hy]
    cases result with
    | none => exact ⟨h.withExchange hxy, rfl⟩
    | some result => exact ⟨h.withExchange hxy, rfl⟩

theorem dropKeptStream (name : String) :
    InStepBy RedactsTo id (s.dropKeptStream name) (s'.dropKeptStream name) := by
  unfold Session.dropKeptStream
  rw [h.keptStream?]
  cases s.exchange.keptStreams.find? name with
  | none => exact ⟨h, rfl⟩
  | some source =>
    have herased : ({ s.exchange with
        keptStreams := s.exchange.keptStreams.erase name } : Exchange).RedactsTo
        { s'.exchange with keptStreams := s'.exchange.keptStreams.erase name } :=
      { h.exchange with keptStreams := by rw [h.exchange.keptStreams, Table.map_erase] }
    exact ⟨h.withExchange (herased.dropSource source), rfl⟩

theorem dropKeptWriter (name : String) :
    InStepBy RedactsTo id (s.dropKeptWriter name) (s'.dropKeptWriter name) := by
  have herased : ({ s.exchange with
      keptWriters := s.exchange.keptWriters.erase name } : Exchange).RedactsTo
      { s'.exchange with keptWriters := s.exchange.keptWriters.erase name } :=
    { h.exchange with keptWriters := rfl }
  unfold Session.dropKeptWriter
  rw [h.exchange.keptWriters]
  cases s.exchange.keptWriters.find? name with
  | none => exact ⟨h, rfl⟩
  | some i => exact ⟨h.withExchange (herased.releaseWriter i), rfl⟩

theorem dropKept (name : String) : AnswersAlike (s.dropKept name) (s'.dropKept name) := by
  obtain ⟨x, y, stream, hx, hy, hxy⟩ := (h.dropKeptStream name).split
  obtain ⟨x', y', writer, hx', hy', hxy'⟩ := (hxy.dropKeptWriter name).split
  unfold Session.dropKept
  rw [hx, hy]
  dsimp only [id_eq]
  rw [hx', hy']
  refine ⟨hxy', ?_⟩
  dsimp only [id_eq]
  split <;> rfl

/-! ### Spans and logs past the calls -/

theorem onSpan (name : String) (op : SpanOp) :
    AnswersAlike (s.onSpan name op) (s'.onSpan name op) := by
  unfold Session.onSpan
  rw [h.exchange.spanNames]
  cases s.exchange.spanNames.find? name with
  | none => exact ⟨h, rfl⟩
  | some span => exact ⟨h.withRecorder (·.apply span op), rfl⟩

theorem startSpan (as name : String) (parent : Parent) (tags : List (String × TagValue)) :
    AnswersAlike (s.startSpan as name parent tags) (s'.startSpan as name parent tags) := by
  unfold Session.startSpan
  rw [h.exchange.parentContext?, h.recorder, h.exchange.spanNames]
  dsimp only
  split
  · exact ⟨h, rfl⟩
  · have hstarted := h.exchange.withRecorder (s.recorder.start
      { name, parent := s.exchange.parentContext? none parent, tags }).1
    exact ⟨h.withExchange { hstarted with spanNames := rfl }, rfl⟩

theorem setLog (name : String) {l : OpenLog} (hl : l.log.logPayloads = false) :
    ({ s with logs := s.logs.set name l } : Session).RedactsTo
      { s' with logs := s.logs.set name l } := by
  refine { h with logs := rfl, silent := fun e he => ?_ }
  rcases Table.mem_of_set he with rfl | hold
  · exact hl
  · exact h.silent e hold

theorem onLog (name : String) {f g : CallLog → CallLog × List Effect}
    (hfg : ∀ log : CallLog, log.logPayloads = false →
      (f log).1.logPayloads = false ∧ g log = f log) :
    AnswersAlike (s.onLog name f) (s'.onLog name g) := by
  unfold Session.onLog
  rw [h.logs]
  cases hfound : s.logs.find? name with
  | none => exact ⟨h, rfl⟩
  | some l =>
    obtain ⟨hsilent, hsame⟩ := hfg l.log (h.silent _ (Table.mem_of_find? hfound))
    dsimp only
    rw [hsame]
    exact ⟨(h.setLog name hsilent).perform l.span _, rfl⟩

theorem releaseLog (l : OpenLog) : (s.releaseLog l).RedactsTo (s'.releaseLog l) :=
  h.perform l.span l.log.drop.2

theorem eraseLog (name : String) :
    ({ s with logs := s.logs.erase name } : Session).RedactsTo
      { s' with logs := s.logs.erase name } :=
  { h with logs := rfl, silent := fun e he => h.silent e (List.mem_filter.1 he).1 }

theorem openLog (as name : String) {config : Config} (hconfig : config.logPayloads = false)
    (fallback : Option Error) :
    AnswersAlike (s.openLog as name config fallback) (s'.openLog as name config fallback) := by
  unfold Session.openLog
  dsimp only
  rw [h.recorder, h.logs]
  split
  · exact ⟨h, rfl⟩
  · rename_i context _
    have hopened := ((h.withRecorder fun _ => (s.recorder.start { name }).1).setLog as
      (l := ⟨(s.recorder.start { name }).2, CallLog.ofConfig config context⟩) hconfig).perform
        (s.recorder.start { name }).2 ((CallLog.ofConfig config context).opening fallback)
    cases s.logs.find? as with
    | none => exact ⟨hopened, rfl⟩
    | some old => exact ⟨hopened.releaseLog old, rfl⟩

/-! ### The end of a session -/

theorem closeCalls : s.closeCalls.RedactsTo s'.closeCalls := by
  unfold Session.closeCalls
  refine List.rel_foldl (P := RedactsTo) ?_ ?_ h.waiting.sorted
  · rintro s s' h ⟨_, i, rest⟩ ⟨_, i', rest'⟩ ⟨hi, hrest⟩
    cases hi
    exact h.releaseCall i hrest
  · exact { h with waiting := Table.rel_empty }

theorem closeResponses : s.closeResponses.RedactsTo s'.closeResponses := by
  unfold Session.closeResponses
  rw [h.responses, Table.sorted_map, List.foldl_map]
  exact List.foldl_rel (r := RedactsTo) { h with responses := rfl }
    fun e _ _ _ h => h.releaseResponse e.2.2

theorem closeLogs : s.closeLogs.RedactsTo s'.closeLogs := by
  unfold Session.closeLogs
  rw [h.logs]
  exact List.foldl_rel (r := RedactsTo)
    { h with logs := rfl, silent := fun e he => absurd he List.not_mem_nil }
    fun e _ _ _ h => h.releaseLog e.2

theorem closeStreams : s.closeStreams.RedactsTo s'.closeStreams := by
  apply h.withExchange
  rw [h.exchange.keptStreams, Table.sorted_map, List.foldl_map]
  exact List.foldl_rel (r := Exchange.RedactsTo) { h.exchange with keptStreams := rfl }
    fun e _ _ _ h => h.dropSource e.2

theorem closeWriters : s.closeWriters.RedactsTo s'.closeWriters := by
  apply h.withExchange
  rw [h.exchange.keptWriters]
  exact List.foldl_rel (r := Exchange.RedactsTo) { h.exchange with keptWriters := rfl }
    fun e _ _ _ h => h.releaseWriter e.2

theorem close : s.close.RedactsTo s'.close :=
  h.closeCalls.closeResponses.closeLogs.closeStreams.closeWriters

/-! ### Moves -/

theorem answer {st : Step} (hst : st.Silent) :
    AnswersAlike (s.answer st) (s'.answer st.redacted) := by
  have hr := h.recorder
  cases st with
  | setActive parent =>
    simp only [Session.answer, Step.redacted]
    rw [h.exchange.parentContext?]
    exact ⟨h.withRecorder fun r => { r with active := _ }, rfl⟩
  | failInject kind => exact ⟨h.withRecorder fun r => { r with injectFailure := some kind }, rfl⟩
  | failExtract kind => exact ⟨h.withRecorder fun r => { r with extractFailure := some kind }, rfl⟩
  | resetFailures =>
    exact ⟨h.withRecorder fun r => { r with injectFailure := none, extractFailure := none }, rfl⟩
  | reset => exact ⟨h.withRecorder Recorder.reset, rfl⟩
  | find name => exact ⟨h, congrArg (fun r : Recorder => Answer.span (r.findFinished? name)) hr⟩
  | single => exact ⟨h, congrArg (fun r : Recorder => Answer.span r.singleFinished?) hr⟩
  | finished => exact ⟨h, congrArg (fun r : Recorder => Answer.spans r.finishedSpans) hr⟩
  | recorderOutline => exact ⟨h, congrArg (fun r : Recorder => Answer.text r.outline) hr⟩
  | start as name parent tags => exact h.startSpan as name parent tags
  | tag on key value => exact h.onSpan on _
  | log on fields => exact h.onSpan on _
  | finishSpan on => exact h.onSpan on _
  | spanOutline on =>
    simp only [Session.answer, Step.redacted]
    rw [h.exchange.spanNames, hr]
    split <;> exact ⟨h, rfl⟩
  | inject parent format =>
    simp only [Session.answer, Step.redacted]
    rw [h.exchange.parentContext?, hr, h.carrier]
    split
    · exact ⟨h, rfl⟩
    · exact ⟨{ h with carrier := rfl }, rfl⟩
  | extract format =>
    simp only [Session.answer, Step.redacted]
    rw [hr, h.carrier]
    exact ⟨h, rfl⟩
  | carrier entries => exact ⟨{ h with carrier := rfl }, rfl⟩
  | openLog as name config fallback => exact h.openLog as name hst fallback
  | request on m =>
    exact h.onLog on fun log hlog =>
      ⟨hlog, congrArg (Prod.mk log) (CallLog.request_of_silent hlog m.redacted m)⟩
  | response on m =>
    exact h.onLog on fun log hlog =>
      ⟨hlog, congrArg (Prod.mk log) (CallLog.response_of_silent hlog m.redacted m)⟩
  | stage on stage =>
    exact h.onLog on (f := fun l => (l, l.stage stage)) fun _ hlog => ⟨hlog, rfl⟩
  | finish on => exact h.onLog on fun log hlog => ⟨log.logPayloads_finish.trans hlog, rfl⟩
  | fault on status =>
    exact h.onLog on fun log hlog => ⟨(log.logPayloads_fault status).trans hlog, rfl⟩
  | setupFault on e =>
    exact h.onLog on (f := fun l => (l, l.setupFault e)) fun _ hlog => ⟨hlog, rfl⟩
  | logContext on =>
    simp only [Session.answer, Step.redacted, h.logs]
    split <;> exact ⟨h, rfl⟩
  | logOutline on =>
    simp only [Session.answer, Step.redacted, h.logs]
    split <;> exact ⟨h, rfl⟩
  | dropLog on =>
    simp only [Session.answer, Step.redacted, h.logs]
    split
    · exact ⟨(h.eraseLog on).releaseLog _, rfl⟩
    · exact ⟨h, rfl⟩
  | call name spec actions =>
    exact h.begin name spec (Action.redacts_continuation spec.kind spec.type actions)
  | poll on => exact h.resume on
  | dropCall on => exact h.dropCall on
  | next on => exact h.pollResponse on false
  | drain on => exact h.pollResponse on true
  | terminated on =>
    refine ⟨h, (h.terminated on).trans ?_⟩
    simp only [Session.answer, Session.terminated]
    split
    · rfl
    · split <;> rfl
  | streamHint on => exact h.streamHint on
  | dropStream on => exact h.dropStream on
  | unwrapStream on => exact h.unwrapStream on
  | receive on =>
    refine h.onOutlet on (f := fun o => (o.receive.1, .received o.receive.2)) fun o => ?_
    rw [o.receive_map]
    rfl
  | closeReceiver on =>
    exact h.onOutlet on (f := fun o => (o.close, .done)) fun o =>
      congrArg (·, Answer.done) (o.close_map _)
  | pollKept on => exact h.pollKept on
  | writeKept on op => exact h.writeKept on op
  | dropKept on => exact h.dropKept on
  | close => exact ⟨h.close, rfl⟩

theorem act {m m' : Move} (hm : m.RedactsTo m') : AnswersAlike (m.act s) (m'.act s') := by
  cases hm with
  | step st hst => exact h.answer hst
  | begin name spec hbody => exact h.begin name spec hbody

theorem play {m m' : Move} (hm : m.RedactsTo m') :
    InStepBy RedactsTo Entry.redacted (s.play m) (s'.play m') := by
  -- Every move starts with nothing on record.
  have hcleared : ({ s with
      exchange := { s.exchange with notes := [], reports := [] } } : Session).RedactsTo
      { s' with exchange := { s'.exchange with notes := [], reports := [] } } :=
    h.withExchange
      { h.exchange with
        silent := ⟨h.exchange.silent.config, h.exchange.silent.calls⟩
        tracing := congrArg (fun t : Tracing => { t with reports := [] }) h.exchange.tracing
        notes := rfl }
  obtain ⟨hact, hanswer⟩ := hcleared.act hm
  have hreports := congrArg Tracing.reports hact.exchange.tracing
  unfold Session.play record
  dsimp only
  rw [hact.recorder, hact.seenFinished, hact.exchange.notes, hanswer, hreports]
  exact ⟨{ hact with seenFinished := rfl }, rfl⟩

omit h in
theorem playAll (h : s.RedactsTo s') {moves moves' : List Move}
    (hmoves : List.Forall₂ Move.RedactsTo moves moves') :
    InStepBy RedactsTo (List.map Entry.redacted) (s.playAll moves) (s'.playAll moves') := by
  induction hmoves generalizing s s' with
  | nil => exact ⟨h, rfl⟩
  | cons hfirst _ ih =>
    obtain ⟨hplayed, hentry⟩ := h.play hfirst
    obtain ⟨hrest, hentries⟩ := ih hplayed
    exact ⟨hrest, List.cons_eq_cons.2 ⟨hentry, hentries⟩⟩

end RedactsTo

theorem redacts_fresh (recorder : Recorder) {config : Config} (h : config.logPayloads = false)
    (ambient : Bool) :
    (fresh recorder config ambient).RedactsTo (fresh recorder config ambient) where
  exchange :=
    { silent := ⟨h, fun _ htraced => absurd htraced List.not_mem_nil⟩
      tracing := rfl
      calls := rfl
      keptStreams := rfl
      keptWriters := rfl
      spanNames := rfl
      outletNames := rfl
      notes := rfl }
  waiting := Table.rel_empty
  responses := rfl
  silent := fun _ he => absurd he List.not_mem_nil
  logs := rfl
  carrier := rfl
  seenFinished := rfl

/-! ## Secrecy -/

/--
With payloads switched off, what messages hold stays out of the trace.  Two sessions whose moves
redact to the same ones leave the same recorder with the same spans, and every move counts, ends and
reports the same in both; its answer and the notes of the continuations differ at most in what
messages hold.  So it is for two single calls of any kind of messages that start alike and whose
parties take the same steps, but for what the messages hold.
-/
theorem payloads_stay_out_of_trace (recorder : Recorder) (config : Config) (ambient : Bool)
    (hconfig : config.logPayloads = false) {moves moves' redacted : List Move}
    (h : List.Forall₂ Move.RedactsTo moves redacted)
    (h' : List.Forall₂ Move.RedactsTo moves' redacted) :
    let played := (fresh recorder config ambient).playAll moves
    let played' := (fresh recorder config ambient).playAll moves'
    played.1.recorder = played'.1.recorder ∧
      played.2.map Entry.redacted = played'.2.map Entry.redacted ∧
      (∀ (M N : Type) [Payload M] [Payload N] (o : CallStart M) (o' : CallStart N)
        (events : List (CallEvent M)) (events' : List (CallEvent N)),
        o.config.logPayloads = false → o.map (fun _ => ()) = o'.map (fun _ => ()) →
        events.map (CallEvent.map fun _ => ()) = events'.map (CallEvent.map fun _ => ()) →
        o.outcome = o'.outcome ∧ o.started.call.run events = o'.started.call.run events' ∧
          o.after events = o'.after events') := by
  have hfresh := redacts_fresh recorder hconfig ambient
  obtain ⟨hplayed, hentries⟩ := hfresh.playAll h
  obtain ⟨hplayed', hentries'⟩ := hfresh.playAll h'
  refine ⟨hplayed.recorder.symm.trans hplayed'.recorder, hentries.symm.trans hentries',
    fun M N _ _ o o' events events' ho hstart hevents => ?_⟩
  let _ : Payload Unit := ⟨fun _ => ""⟩
  have ho' : o'.config.logPayloads = false :=
    (congrArg (fun o : CallStart Unit => o.config.logPayloads) hstart).symm.trans ho
  refine ⟨?_, ?_, ?_⟩
  · rw [← CallStart.outcome_map (fun _ => ()) ho, hstart, CallStart.outcome_map _ ho']
  · rw [← CallStart.run_map (fun _ => ()) ho, hstart, hevents, CallStart.run_map _ ho']
  · rw [← CallStart.after_map (fun _ => ()) ho, hstart, hevents, CallStart.after_map _ ho']

-- A secret that a client sends and a server gives back leaves no trace.
theorem secret_stays_out_of_trace :
    let moves (secret : Message) : List Move :=
      [.step (.call "chat"
          { kind := .client, type := .bidiStreaming, method := "/chat"
            requests := .stream [.item (.ok secret)] }
          [.pull .ignore, .return { answers := some [.item (.ok secret)] }]),
        .step (.drain "chat"),
        .begin "echo"
          { kind := .server, type := .unary, method := "/echo", requests := .single secret }
          fun seen => .resolve (.reply (seen.message.getD .unit) .empty)]
    let config : Config := { logPayloads := false, verbose := true }
    let start (secret : Message) : CallStart Message :=
      { recorder := { ids := .odd 0 0 }, config, active := none
        ctx := .client ⟨"/echo", none, none⟩, type := .unary, metadata := .empty
        message := some secret }
    let played := (fresh { ids := .odd 0 0 } config true).playAll (moves (.text "hunter2"))
    let played' := (fresh { ids := .odd 0 0 } config true).playAll (moves (.text "swordfish"))
    config.logPayloads = false ∧ played.1.recorder = played'.1.recorder ∧
      played.2.map Entry.redacted = played'.2.map Entry.redacted ∧
      played.1.recorder.counts.finished = 2 ∧
      (start (.text "hunter2")).after [.resolved (.reply (.text "hunter2"))] =
        (start (.int 7)).after [.resolved (.reply (.list []))] := by
  intro moves config start played played'
  have hmoves (secret : Message) : List.Forall₂ Move.RedactsTo (moves secret) (moves .unit) := by
    refine .cons (.step _ trivial) (.cons (.step _ trivial)
      (.cons (.begin _ _ fun seen => ?_) .nil))
    obtain ⟨metadata, context, message⟩ := seen
    cases message with
    | none => exact .resolve (.reply .unit .empty)
    | some m => exact .resolve (.reply m .empty)
  obtain ⟨hrecorder, hentries, hcalls⟩ := payloads_stay_out_of_trace { ids := .odd 0 0 } config true
    rfl (hmoves (.text "hunter2")) (hmoves (.text "swordfish"))
  obtain ⟨-, -, hafter⟩ := hcalls Message Message (start (.text "hunter2")) (start (.int 7))
    [.resolved (.reply (.text "hunter2"))] [.resolved (.reply (.list []))] rfl rfl rfl
  exact ⟨rfl, hrecorder, hentries, by decide +kernel, hafter⟩

end Session

end CallTrace
