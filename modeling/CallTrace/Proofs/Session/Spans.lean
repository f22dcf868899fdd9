import CallTrace.Proofs.Session.Run
import CallTrace.Session.Move
import Mathlib.Algebra.GroupWithZero.Nat

/-!
# The spans of calls

A session holds the calls that wait and the response streams of its callers.  Whatever is done to
it, every call that was started has one span of its own, which nobody else writes to; the span is
finished once as soon as nobody holds the call.
-/

namespace CallTrace

namespace Session

/-- The holds that a session has by its calls that wait and its response streams. -/
def holds (s : Session) : List Hold :=
  s.waiting.collect (fun held => held.2.holds held.1) ++ s.responses.collect fun r => r.2.holds

/-- The session is in order together with the holds that are loose. -/
structure Orderly (b : Baseline) (s : Session) (loose : List Hold) : Prop where
  exchange : s.exchange.Orderly b (loose ++ s.holds)
  logs : s.logs.entries.map (·.2.span) = b.logged
  -- No span of a call has a log of its own.
  logged : ∀ span ∈ b.logged, span ∈ b.free

variable {b : Baseline} {s : Session} {loose loose' : List Hold}

theorem Orderly.of_exchange (h : s.Orderly b loose) {x : Exchange}
    (hx : x.Orderly b (loose' ++ s.holds)) : ({ s with exchange := x } : Session).Orderly b loose' :=
  ⟨hx, h.logs, h.logged⟩

/-! ## Calls that wait -/

theorem Orderly.releaseCall {held : Nat × Suspended}
    (h : s.Orderly b (held.2.holds held.1 ++ loose)) : (s.releaseCall held).Orderly b loose := by
  have hx := h.exchange
  rw [List.append_assoc] at hx
  exact h.of_exchange hx.abandon

theorem Orderly.suspend {held : Nat × Suspended}
    (h : s.Orderly b (held.2.holds held.1 ++ loose)) (name : String) :
    (s.suspend name held).Orderly b loose := by
  have hset : ({ s with waiting := s.waiting.set name held } : Session).Orderly b
      (((s.waiting.find? name).map fun held => held.2.holds held.1).getD [] ++ loose) := by
    refine ⟨h.exchange.of_count fun k => ?_, h.logs, h.logged⟩
    have hk := (s.waiting.collect_set (fun held => held.2.holds held.1) name held).count_eq k
    simp only [holds, List.count_append] at hk ⊢
    omega
  unfold Session.suspend
  cases hf : s.waiting.find? name with
  | none =>
    rw [hf] at hset
    exact hset
  | some old =>
    rw [hf] at hset
    exact hset.releaseCall

-- A call that waits is taken from its name.
theorem Orderly.takeCall (h : s.Orderly b loose) {name : String} {held : Nat × Suspended}
    (hf : s.waiting.find? name = some held) :
    ({ s with waiting := s.waiting.erase name } : Session).Orderly b
      (held.2.holds held.1 ++ loose) := by
  refine ⟨h.exchange.of_count fun k => ?_, h.logs, h.logged⟩
  have hk := (s.waiting.collect_erase (fun held => held.2.holds held.1) name).count_eq k
  rw [hf] at hk
  simp only [holds, List.count_append, Option.map_some, Option.getD_some] at hk ⊢
  omega

theorem Orderly.dropCall (h : s.Orderly b loose) (name : String) :
    (s.dropCall name).1.Orderly b loose := by
  unfold Session.dropCall
  cases hf : s.waiting.find? name with
  | none => exact h
  | some held => exact (h.takeCall hf).releaseCall

/-! ## Response streams -/

theorem Orderly.releaseResponse {source : Source} (h : s.Orderly b (source.holds ++ loose)) :
    (s.releaseResponse source).Orderly b loose := by
  have hx := h.exchange
  rw [List.append_assoc] at hx
  exact h.of_exchange hx.dropSource

theorem Orderly.setResponse {response : Nat × Source}
    (h : s.Orderly b (response.2.holds ++ loose)) (name : String) :
    ({ s with responses := s.responses.set name response } : Session).Orderly b
      (((s.responses.find? name).map fun r => r.2.holds).getD [] ++ loose) := by
  refine ⟨h.exchange.of_count fun k => ?_, h.logs, h.logged⟩
  have hk := (s.responses.collect_set (fun r => r.2.holds) name response).count_eq k
  simp only [holds, List.count_append] at hk ⊢
  omega

theorem Orderly.keepResponse {response : Nat × Source}
    (h : s.Orderly b (response.2.holds ++ loose)) (name : String) :
    (s.keepResponse name response).Orderly b loose := by
  have hset := h.setResponse name
  unfold Session.keepResponse
  cases hf : s.responses.find? name with
  | none =>
    rw [hf] at hset
    exact hset
  | some old =>
    rw [hf] at hset
    exact hset.releaseResponse

theorem Orderly.takeResponse (h : s.Orderly b loose) {name : String} {response : Nat × Source}
    (hf : s.responses.find? name = some response) :
    ({ s with responses := s.responses.erase name } : Session).Orderly b
      (response.2.holds ++ loose) := by
  refine ⟨h.exchange.of_count fun k => ?_, h.logs, h.logged⟩
  have hk := (s.responses.collect_erase (fun r => r.2.holds) name).count_eq k
  rw [hf] at hk
  simp only [holds, List.count_append, Option.map_some, Option.getD_some] at hk ⊢
  omega

theorem Orderly.dropStream (h : s.Orderly b loose) (name : String) :
    (s.dropStream name).1.Orderly b loose := by
  unfold Session.dropStream
  cases hf : s.responses.find? name with
  | none => exact h
  | some response => exact (h.takeResponse hf).releaseResponse

-- The tracing of a session with the holds of a stream in front.
theorem Orderly.tracing {holds : List Hold} (h : s.Orderly b (holds ++ loose)) :
    s.exchange.toTracing.Orderly b (s.exchange.calls.map CallState.shape)
      (holds ++ (s.exchange.holds ++ (loose ++ s.holds))) := by
  refine h.exchange.tracing.of_count fun k => ?_
  simp only [List.count_append]
  omega

theorem Orderly.of_tracing {source : Source} (h : s.Orderly b (source.holds ++ loose))
    {t : Tracing} {inner : Source}
    (ht : t.Orderly b (s.exchange.calls.map CallState.shape)
      (inner.holds ++ (s.exchange.holds ++ (loose ++ s.holds)))) :
    ({ s with exchange := { s.exchange with toTracing := t } } : Session).Orderly b
      (inner.holds ++ loose) := by
  refine h.of_exchange (h.exchange.of_tracing (ht.of_count fun k => ?_) fun i hi => ?_)
  · simp only [List.count_append]
    omega
  · rw [List.append_assoc] at hi ⊢
    exact List.mem_append_right _ (Exchange.mem_of_source hi)

theorem Orderly.pollResponse (h : s.Orderly b loose) (name : String) (all : Bool) :
    (s.pollResponse name all).1.Orderly b loose := by
  unfold Session.pollResponse
  cases hf : s.responses.find? name with
  | none => exact h
  | some response =>
    obtain ⟨call, source⟩ := response
    have htaken := h.takeResponse hf
    have hpolled := htaken.tracing.pollWhile (if all then source.size + 1 else 1)
    have hholds := Tracing.holds_pollWhile s.exchange.toTracing source
      (if all then source.size + 1 else 1)
    dsimp only at hpolled ⊢
    generalize s.exchange.toTracing.pollWhile source (if all then source.size + 1 else 1) = out
      at hpolled hholds ⊢
    obtain ⟨t, source', answers⟩ := out
    dsimp only at hpolled hholds ⊢
    rw [← hholds] at hpolled
    have hback := htaken.of_tracing hpolled
    -- The stream goes back under its name, where nothing else is.
    have hset : ({ s with
        exchange := { s.exchange with toTracing := t }
        responses := s.responses.set name (call, source') } : Session).Orderly b loose := by
      refine ⟨hback.exchange.of_count fun k => ?_, h.logs, h.logged⟩
      simp only [holds, Table.collect, Table.set, Table.erase, List.flatMap_cons,
        List.count_append]
      omega
    split
    · exact hset
    · split <;> exact hset

theorem Orderly.unwrapStream (h : s.Orderly b loose) (name : String) :
    (s.unwrapStream name).1.Orderly b loose := by
  unfold Session.unwrapStream
  cases hf : s.responses.find? name with
  | none => exact h
  | some response =>
    obtain ⟨call, source⟩ := response
    have htaken := h.takeResponse hf
    have hunwatched := htaken.tracing.unwatch
    dsimp only at hunwatched ⊢
    generalize s.exchange.toTracing.unwatch source = out at hunwatched ⊢
    obtain ⟨t, inner⟩ := out
    dsimp only at hunwatched ⊢
    have hpolled := hunwatched.poll
    have hholds := Tracing.holds_poll t inner
    generalize t.poll inner = polled at hpolled hholds ⊢
    obtain ⟨t', inner', answer⟩ := polled
    dsimp only at hpolled hholds ⊢
    rw [← hholds] at hpolled
    have hdropped : (t'.dropSource inner').Orderly b (s.exchange.calls.map CallState.shape)
        ((Source.script []).holds ++ (s.exchange.holds ++ (loose ++ _))) := hpolled.dropSource
    exact htaken.of_tracing hdropped

/-! ## Runs of calls -/

theorem Orderly.conclude (h : s.Orderly b loose') {x : Exchange} {progress : Progress} {call : Nat}
    (hx : x.Orderly b (progress.holds call ++ (loose ++ s.holds))) (name : String) :
    (s.conclude name call (x, progress)).1.Orderly b loose := by
  cases progress with
  | waiting rest =>
    have hs : ({ s with exchange := x } : Session).Orderly b
        (Suspended.holds (call, rest).1 (call, rest).2 ++ loose) :=
      h.of_exchange (by rw [List.append_assoc]; exact hx)
    exact hs.suspend name
  | ended r =>
    have hsettled := Exchange.Orderly.settle hx r
    unfold Session.conclude
    dsimp only
    generalize x.settle call r = out at hsettled ⊢
    rcases out with ⟨x', result, _ | source⟩
    · exact h.of_exchange hsettled
    · have hs : ({ s with exchange := x' } : Session).Orderly b
          ((call, source).2.holds ++ loose) :=
        h.of_exchange (by rw [List.append_assoc]; exact hsettled)
      exact hs.keepResponse name

theorem Orderly.begin (h : s.Orderly b loose) (name : String) (spec : CallSpec)
    (body : Seen → Continuation) : (s.begin name spec body).1.Orderly b loose := by
  have hstart := h.exchange.startCall none none spec
  unfold Session.begin
  generalize s.exchange.startCall none none spec = begun at hstart ⊢
  obtain ⟨x, call, seen⟩ := begun
  exact h.conclude (Exchange.Orderly.run hstart) name

theorem Orderly.resume (h : s.Orderly b loose) (name : String) :
    (s.resume name).1.Orderly b loose := by
  unfold Session.resume
  cases hf : s.waiting.find? name with
  | none => exact h
  | some held =>
    obtain ⟨call, rest⟩ := held
    have htaken := h.takeCall hf
    have hx := htaken.exchange
    rw [List.append_assoc] at hx
    exact htaken.conclude hx.resume name

/-! ## The other steps of parties -/

theorem Orderly.onOutlet (h : s.Orderly b loose) (name : String)
    (f : Outlet Message → Outlet Message × Answer) : (s.onOutlet name f).1.Orderly b loose := by
  unfold Session.onOutlet
  split
  · exact h
  · split
    · exact h
    · exact h.of_exchange (h.exchange.updateOutlet _ fun _ => _)

-- A stream that is kept is taken from its name.
theorem Orderly.takeKeptStream (h : s.Orderly b loose) {name : String} {source : Source}
    (hf : s.exchange.keptStreams.find? name = some source) :
    ({ s.exchange with
      keptStreams := s.exchange.keptStreams.erase name } : Exchange).Orderly b
      (source.holds ++ (loose ++ s.holds)) where
  tracing := by
    refine h.exchange.tracing.of_count fun k => ?_
    have hk := (s.exchange.keptStreams.collect_erase Source.holds name).count_eq k
    rw [hf] at hk
    simp only [Exchange.holds, List.count_append, Option.map_some, Option.getD_some] at hk ⊢
    omega
  idle i c hc hh := List.mem_append_right _ (h.exchange.idle i c hc hh)
  names := h.exchange.names

theorem Orderly.takeKeptWriter (h : s.Orderly b loose) {name : String} {call : Nat}
    (hf : s.exchange.keptWriters.find? name = some call) :
    ({ s.exchange with
      keptWriters := s.exchange.keptWriters.erase name } : Exchange).Orderly b
      ((call, .writer) :: (loose ++ s.holds)) where
  tracing := by
    refine h.exchange.tracing.of_count fun k => ?_
    have hk := (s.exchange.keptWriters.collect_erase (fun i => [(i, Party.writer)])
      name).count_eq k
    rw [hf, Option.map_some, Option.getD_some] at hk
    rw [← List.singleton_append (l := loose ++ s.holds)]
    simp only [Exchange.holds, List.count_append] at hk ⊢
    omega
  idle i c hc hh := List.mem_cons_of_mem _ (h.exchange.idle i c hc hh)
  names := h.exchange.names

theorem Orderly.pollKept (h : s.Orderly b loose) (name : String) :
    (s.pollKept name).1.Orderly b loose := by
  unfold Session.pollKept
  cases hf : s.exchange.keptStreams.find? name with
  | none => exact h
  | some source =>
    have hpolled := (h.takeKeptStream hf).poll
    have hholds := Tracing.holds_poll s.exchange.toTracing source
    unfold Exchange.poll at hpolled ⊢
    dsimp only at hpolled ⊢
    generalize s.exchange.toTracing.poll source = out at hpolled hholds ⊢
    obtain ⟨t, source', answer⟩ := out
    dsimp only at hpolled hholds ⊢
    -- The stream goes back under its name with the holds that it had.
    refine h.of_exchange ⟨hpolled.tracing.of_count fun k => ?_, fun i c hc hh =>
      Exchange.mem_of_source (hpolled.idle i c hc hh), h.exchange.names⟩
    simp only [Exchange.holds, Table.collect, Table.set, Table.erase, List.flatMap_cons, hholds,
      List.count_append]
    omega

theorem Orderly.writeKept (h : s.Orderly b loose) (name : String) (op : SinkOp Message) :
    (s.writeKept name op).1.Orderly b loose := by
  unfold Session.writeKept
  cases hf : s.exchange.keptWriters.find? name with
  | none => exact h
  | some call =>
    have hwritten := h.exchange.writeOnce (Exchange.mem_of_keptWriter hf) op
    dsimp only
    generalize s.exchange.writeOnce call op = out at hwritten ⊢
    rcases out with ⟨x, _ | result⟩ <;> exact h.of_exchange hwritten

theorem Orderly.dropKeptStream (h : s.Orderly b loose) (name : String) :
    (s.dropKeptStream name).1.Orderly b loose := by
  unfold Session.dropKeptStream
  cases hf : s.exchange.keptStreams.find? name with
  | none => exact h
  | some source => exact h.of_exchange (h.takeKeptStream hf).dropSource

theorem Orderly.dropKeptWriter (h : s.Orderly b loose) (name : String) :
    (s.dropKeptWriter name).1.Orderly b loose := by
  unfold Session.dropKeptWriter
  cases hf : s.exchange.keptWriters.find? name with
  | none => exact h
  | some call => exact h.of_exchange (h.takeKeptWriter hf).releaseWriter

theorem Orderly.dropKept (h : s.Orderly b loose) (name : String) :
    (s.dropKept name).1.Orderly b loose := (h.dropKeptStream name).dropKeptWriter name

/-! ## The end of a session -/

theorem Orderly.closeCalls (h : s.Orderly b loose) : s.closeCalls.Orderly b loose := by
  have hall : ({ s with waiting := {} } : Session).Orderly b
      ((s.waiting.sorted.flatMap fun e => e.2.2.holds e.2.1) ++ loose) := by
    refine ⟨h.exchange.of_count fun k => ?_, h.logs, h.logged⟩
    have hk := (s.waiting.collect_sorted fun held => held.2.holds held.1).count_eq k
    simp only [holds, Table.collect, List.count_append, List.flatMap_nil, List.count_nil] at hk ⊢
    omega
  unfold Session.closeCalls
  apply foldl_release (P := Session.Orderly b) _ _ hall
  intro t e loose ht
  exact ht.releaseCall

theorem Orderly.closeResponses (h : s.Orderly b loose) : s.closeResponses.Orderly b loose := by
  have hall : ({ s with responses := {} } : Session).Orderly b
      ((s.responses.sorted.flatMap fun e => e.2.2.holds) ++ loose) := by
    refine ⟨h.exchange.of_count fun k => ?_, h.logs, h.logged⟩
    have hk := (s.responses.collect_sorted fun r => r.2.holds).count_eq k
    simp only [holds, Table.collect, List.count_append, List.flatMap_nil, List.count_nil] at hk ⊢
    omega
  unfold Session.closeResponses
  apply foldl_release (P := Session.Orderly b) _ _ hall
  intro t e loose ht
  exact ht.releaseResponse

theorem Orderly.closeStreams (h : s.Orderly b loose) : s.closeStreams.Orderly b loose := by
  have hall : ({ s.exchange with keptStreams := {} } : Exchange).Orderly b
      ((s.exchange.keptStreams.sorted.flatMap fun e => e.2.holds) ++ (loose ++ s.holds)) := by
    refine ⟨h.exchange.tracing.of_count fun k => ?_, fun i c hc hh =>
      List.mem_append_right _ (h.exchange.idle i c hc hh), h.exchange.names⟩
    have hk := (s.exchange.keptStreams.collect_sorted Source.holds).count_eq k
    simp only [Exchange.holds, Table.collect, List.count_append, List.flatMap_nil,
      List.count_nil] at hk ⊢
    omega
  apply h.of_exchange
  apply foldl_release (P := Exchange.Orderly b) _ _ hall
  intro x e loose hx
  exact hx.dropSource

theorem Orderly.closeWriters (h : s.Orderly b loose) : s.closeWriters.Orderly b loose := by
  have hall : ({ s.exchange with keptWriters := {} } : Exchange).Orderly b
      ((s.exchange.keptWriters.sorted.flatMap fun e => [(e.2, .writer)]) ++
        (loose ++ s.holds)) := by
    refine ⟨h.exchange.tracing.of_count fun k => ?_, fun i c hc hh =>
      List.mem_append_right _ (h.exchange.idle i c hc hh), h.exchange.names⟩
    have hk := (s.exchange.keptWriters.collect_sorted fun i => [(i, Party.writer)]).count_eq k
    simp only [Exchange.holds, Table.collect, List.count_append, List.flatMap_nil,
      List.count_nil] at hk ⊢
    omega
  apply h.of_exchange
  apply foldl_release (P := Exchange.Orderly b) _ _ hall
  intro x e loose hx
  exact Exchange.Orderly.releaseWriter hx

/-! ## What is done past the calls -/

/-- A session whose last step is not to be looked at any more. -/
def cleared (s : Session) : Session :=
  { s with exchange := { s.exchange with notes := [], reports := [] } }

theorem Orderly.cleared (h : s.Orderly b loose) : s.cleared.Orderly b loose where
  exchange :=
    { tracing := { h.exchange.tracing with quiet := fun line hline => by cases hline }
      idle := h.exchange.idle
      names := h.exchange.names }
  logs := h.logs
  logged := h.logged

/-- Whether the session is in order apart from what its last step reported. -/
def Settled (b : Baseline) (s : Session) : Prop := s.cleared.Orderly b []

-- The recorder is used on spans that are not of a call.
theorem Settled.useFree (h : s.Settled b) {r : Recorder}
    (hlength : r.records.length = s.recorder.records.length)
    (hkeep : ∀ k, k ∉ b.free → r.records[k]? = s.recorder.records[k]?) :
    (s.withRecorder fun _ => r).Settled { b with rejected := r.rejected, late := r.late } where
  exchange :=
    { tracing := h.exchange.tracing.of_recorder (hlength.trans h.exchange.tracing.spans)
        (fun i c hc => hkeep _ fun hf => (h.exchange.tracing.free _ hf).2 i c hc rfl)
        fun span hspan => by
          have hf := h.exchange.tracing.free span hspan
          exact ⟨hlength ▸ hf.1, hf.2⟩
      idle := h.exchange.idle
      names := h.exchange.names }
  logs := h.logs
  logged := h.logged

theorem Settled.onSpan (h : s.Settled b) (name : String) (op : SpanOp) :
    ∃ rejected late, (s.onSpan name op).1.Settled { b with rejected, late } := by
  unfold Session.onSpan
  cases hf : s.exchange.spanNames.find? name with
  | none => exact ⟨b.rejected, b.late, h⟩
  | some span =>
    have hspan : span ∈ b.free := h.exchange.names _ (Table.mem_of_find? hf)
    refine ⟨_, _, h.useFree (r := s.recorder.apply span op) (Recorder.length_apply _ _ _)
      fun k hk => ?_⟩
    have hne : span ≠ k := fun he => hk (he ▸ hspan)
    rw [Recorder.getElem?_apply, if_neg hne]

theorem Settled.perform (h : s.Settled b) {span : Nat} (hspan : span ∈ b.free)
    (effects : List Effect) :
    ∃ rejected late, (s.perform span effects).Settled { b with rejected, late } := by
  refine ⟨_, _, h.useFree (r := s.recorder.perform span effects) (Recorder.length_perform _ _ _)
    fun k hk => ?_⟩
  have hne : span ≠ k := fun he => hk (he ▸ hspan)
  rw [Recorder.getElem?_perform, if_neg hne]

-- A span that is started past the calls.
theorem Settled.startFree (h : s.Settled b) (options : SpanOptions) :
    (s.withRecorder fun r => (r.start options).1).Settled
      { b with free := s.recorder.records.length :: b.free } where
  exchange :=
    { tracing := by
        have ht := h.exchange.tracing
        have hr : (s.recorder.start options).1.rejected = b.rejected := ht.rejected
        have hl : (s.recorder.start options).1.late = b.late := ht.late
        have hlength : (s.recorder.start options).1.records.length =
            s.recorder.records.length + 1 := List.length_append
        have hcalls (i : Nat) (c : TracedCall) (hc : s.exchange.tracedCall? i = some c) :
            c.span < s.recorder.records.length := ht.span_lt hc
        rw [← hr, ← hl]
        refine ht.of_recorder ?_ ?_ ?_
        · have hs : s.recorder.records.length = _ := ht.spans
          rw [hlength, hs, List.length_cons]
          omega
        · intro i c hc
          exact List.getElem?_append_left (hcalls i c hc)
        · intro span hspan
          rw [hlength]
          rcases List.mem_cons.1 hspan with rfl | hspan
          · refine ⟨by omega, fun i c hc => ?_⟩
            have := hcalls i c hc
            omega
          · obtain ⟨hlt, hfree⟩ := ht.free span hspan
            have hlt' : span < s.recorder.records.length := hlt
            exact ⟨by omega, hfree⟩
      idle := h.exchange.idle
      names := fun e he => List.mem_cons_of_mem _ (h.exchange.names e he) }
  logs := h.logs
  logged := fun span hspan => List.mem_cons_of_mem _ (h.logged span hspan)

theorem context?_start (r : Recorder) (options : SpanOptions) :
    (r.start options).1.context? (r.start options).2 =
      some (SpanContext.start options.parent r.ids r.records.length) := by
  unfold Recorder.context? Recorder.start
  rw [List.getElem?_concat_length]
  rfl

theorem Settled.startSpan (h : s.Settled b) (as name : String) (parent : Parent)
    (tags : List (String × TagValue)) :
    (s.startSpan as name parent tags).1.Settled
      { b with free := s.recorder.records.length :: b.free } := by
  unfold Session.startSpan
  dsimp only
  rw [context?_start]
  have hs := h.startFree { name, parent := s.exchange.parentContext? none parent, tags }
  refine ⟨⟨hs.exchange.tracing, hs.exchange.idle, fun e he => ?_⟩, hs.logs, hs.logged⟩
  rcases Table.mem_of_set he with rfl | he
  · exact List.mem_cons_self
  · exact hs.exchange.names e he

/-! ## Logs that are used by themselves -/

theorem Settled.setLogs (h : s.Settled b) (logs : Table OpenLog)
    (hfree : ∀ e ∈ logs.entries, e.2.span ∈ b.free) :
    ({ s with logs } : Session).Settled { b with logged := logs.entries.map (·.2.span) } where
  exchange :=
    { tracing := h.exchange.tracing.relog _
      idle := h.exchange.idle
      names := h.exchange.names }
  logs := rfl
  logged := fun span hspan => by
    obtain ⟨e, he, rfl⟩ := List.mem_map.1 hspan
    exact hfree e he

theorem Settled.free_of_log (h : s.Settled b) {e : String × OpenLog} (he : e ∈ s.logs.entries) :
    e.2.span ∈ b.free := by
  refine h.logged _ ?_
  rw [← h.logs]
  exact List.mem_map.2 ⟨e, he, rfl⟩

theorem Settled.onLog (h : s.Settled b) (name : String)
    (f : CallLog → CallLog × List Effect) :
    ∃ rejected late logged, (s.onLog name f).1.Settled { b with rejected, late, logged } := by
  unfold Session.onLog
  cases hf : s.logs.find? name with
  | none => exact ⟨b.rejected, b.late, b.logged, h⟩
  | some l =>
    have hl : l.span ∈ b.free := h.free_of_log (Table.mem_of_find? hf)
    have hset := h.setLogs (s.logs.set name { l with log := (f l.log).1 }) fun e he => by
      rcases Table.mem_of_set he with rfl | he
      · exact hl
      · exact h.free_of_log he
    obtain ⟨rejected, late, hs⟩ := hset.perform hl (f l.log).2
    exact ⟨rejected, late, _, hs⟩

theorem Settled.dropLog (h : s.Settled b) {name : String} {l : OpenLog}
    (hf : s.logs.find? name = some l) :
    ∃ rejected late logged,
      (({ s with logs := s.logs.erase name } : Session).releaseLog l).Settled
        { b with rejected, late, logged } := by
  have hl : l.span ∈ b.free := h.free_of_log (Table.mem_of_find? hf)
  have herased := h.setLogs (s.logs.erase name) fun e he =>
    h.free_of_log (List.mem_filter.1 he).1
  obtain ⟨rejected, late, hs⟩ := herased.perform hl l.log.drop.2
  exact ⟨rejected, late, _, hs⟩

theorem Settled.openLog (h : s.Settled b) (as name : String) (config : Config)
    (fallback : Option Error) :
    ∃ rejected late logged, (s.openLog as name config fallback).1.Settled
      { b with rejected, late, logged, free := s.recorder.records.length :: b.free } := by
  unfold Session.openLog
  dsimp only
  rw [context?_start]
  have hstarted := h.startFree { name }
  have hset := hstarted.setLogs
    (s.logs.set as
      { span := s.recorder.records.length
        log := CallLog.ofConfig config (SpanContext.start none s.recorder.ids
          s.recorder.records.length) }) fun e he => by
      rcases Table.mem_of_set he with rfl | he
      · exact List.mem_cons_self
      · exact List.mem_cons_of_mem _ (h.free_of_log he)
  obtain ⟨rejected, late, hopened⟩ := hset.perform List.mem_cons_self
    ((CallLog.ofConfig config (SpanContext.start none s.recorder.ids
      s.recorder.records.length)).opening fallback)
  dsimp only
  cases hf : s.logs.find? as with
  | none => exact ⟨rejected, late, _, hopened⟩
  | some l =>
    have hl := h.free_of_log (Table.mem_of_find? hf)
    obtain ⟨rejected', late', hs⟩ := hopened.perform
      (List.mem_cons_of_mem s.recorder.records.length hl) l.log.drop.2
    exact ⟨rejected', late', _, hs⟩

/-! ## The end of a session -/

-- What the last step reported may be looked at if there is no second end in it.
theorem Settled.orderly (h : s.Settled b)
    (hquiet : ∀ line ∈ s.exchange.reports, line.isSuppressed = false) : s.Orderly b [] where
  exchange :=
    { tracing := { h.exchange.tracing with quiet := hquiet }
      idle := h.exchange.idle
      names := h.exchange.names }
  logs := h.logs
  logged := h.logged

theorem quiet_drop (log : CallLog) : Quiet log.drop.2 := by
  unfold CallLog.drop
  cases h : log.finished with
  | true => intro line hline; cases hline
  | false =>
    exact (CallLog.inTime_closing (r := { name := "", context := log.context }) h
      (.failed CallLog.abandonedStatus) rfl).2

theorem Orderly.closeLogs (h : s.Orderly b []) :
    ∃ rejected late, s.closeLogs.Orderly { b with rejected, late, logged := [] } [] ∧
      (b.logged = [] → rejected = b.rejected ∧ late = b.late) := by
  have hfold (logs : List (String × OpenLog)) (t : Session) (b' : Baseline)
      (ht : t.Orderly b' []) (hfree : ∀ e ∈ logs, e.2.span ∈ b'.free) :
      ∃ rejected late,
        (logs.foldl (fun t e => t.releaseLog e.2) t).Orderly { b' with rejected, late } [] ∧
          (logs = [] → rejected = b'.rejected ∧ late = b'.late) := by
    induction logs generalizing t b' with
    | nil => exact ⟨b'.rejected, b'.late, ht, fun _ => ⟨rfl, rfl⟩⟩
    | cons e logs ih =>
      obtain ⟨rejected, late, hs⟩ := Settled.perform ht.cleared (hfree e List.mem_cons_self)
        e.2.log.drop.2
      have hnext := hs.orderly
        (Tracing.quiet_reports ht.exchange.tracing.quiet (quiet_drop e.2.log))
      obtain ⟨rejected', late', hs', -⟩ := ih _ { b' with rejected, late } hnext fun e' he' =>
        hfree e' (List.mem_cons_of_mem e he')
      exact ⟨rejected', late', hs', fun hnil => by cases hnil⟩
  have hnone : ({ s with logs := {} } : Session).Orderly { b with logged := [] } [] :=
    Settled.orderly (Settled.setLogs (s := s) h.cleared {} fun e he => by cases he)
      h.exchange.tracing.quiet
  have hfree : ∀ e ∈ s.logs.sorted, e.2.span ∈ b.free := fun e he =>
    Settled.free_of_log (s := s) h.cleared (s.logs.sorted_perm.mem_iff.1 he)
  obtain ⟨rejected, late, hs, hsame⟩ := hfold s.logs.sorted _ _ hnone hfree
  refine ⟨rejected, late, hs, fun hlogged => hsame ?_⟩
  have hempty : s.logs.entries = [] := by
    have := h.logs
    rw [hlogged, List.map_eq_nil_iff] at this
    exact this
  have hlength := s.logs.sorted_perm.length_eq
  rw [hempty, List.length_nil] at hlength
  exact List.length_eq_zero_iff.1 hlength

-- Everybody who has a hold on a call.
def holders (s : Session) : List Hold := s.exchange.holds ++ s.holds

theorem Orderly.close (h : s.Orderly b []) :
    ∃ rejected late, s.close.Orderly { b with rejected, late, logged := [] } [] ∧
      (b.logged = [] → rejected = b.rejected ∧ late = b.late) := by
  obtain ⟨rejected, late, hlogs, hsame⟩ := h.closeCalls.closeResponses.closeLogs
  exact ⟨rejected, late, hlogs.closeStreams.closeWriters, hsame⟩

theorem foldl_exchange {α : Type} (f : Exchange → α → Exchange) (items : List α) (s : Session) :
    items.foldl (fun s a => ({ s with exchange := f s.exchange a } : Session)) s =
      { s with exchange := items.foldl f s.exchange } := by
  induction items generalizing s with
  | nil => rfl
  | cons a items ih => exact ih _

-- At the end nothing is left under any name.
theorem tables_close (s : Session) :
    s.close.waiting = {} ∧ s.close.responses = {} ∧ s.close.exchange.keptStreams = {} ∧
      s.close.exchange.keptWriters = {} := by
  have hcalls : s.closeCalls.waiting = {} := by
    unfold Session.closeCalls Session.releaseCall
    rw [foldl_exchange (fun x (e : String × (Nat × Suspended)) => x.abandon e.2.1 e.2.2)]
  have hresponses (t : Session) :
      t.closeResponses.waiting = t.waiting ∧ t.closeResponses.responses = {} := by
    unfold Session.closeResponses Session.releaseResponse
    rw [foldl_exchange (fun x (e : String × (Nat × Source)) => x.dropSource e.2.2)]
    exact ⟨rfl, rfl⟩
  have hlogs (t : Session) :
      t.closeLogs.waiting = t.waiting ∧ t.closeLogs.responses = t.responses := by
    unfold Session.closeLogs Session.releaseLog Session.perform
    rw [foldl_exchange (fun x (e : String × OpenLog) =>
      { x with toTracing := x.toTracing.perform e.2.span e.2.log.drop.2 })]
    exact ⟨rfl, rfl⟩
  have hstreams (t : Session) : t.closeStreams.exchange.keptStreams = {} := by
    have hfold (held : List (String × Source)) (x : Exchange) :
        (held.foldl (fun x e => x.dropSource e.2) x).keptStreams = x.keptStreams := by
      induction held generalizing x with
      | nil => rfl
      | cons e held ih => exact ih _
    exact hfold _ _
  have hwriters (t : Session) : t.closeWriters.exchange.keptWriters = {} ∧
      t.closeWriters.exchange.keptStreams = t.exchange.keptStreams := by
    have hfold (held : List (String × Nat)) (x : Exchange) :
        (held.foldl (fun x e => x.releaseWriter e.2) x).keptWriters = x.keptWriters ∧
          (held.foldl (fun x e => x.releaseWriter e.2) x).keptStreams = x.keptStreams := by
      induction held generalizing x with
      | nil => exact ⟨rfl, rfl⟩
      | cons e held ih => exact ih _
    exact hfold _ _
  unfold Session.close
  refine ⟨?_, ?_, ?_, (hwriters _).1⟩
  · exact (hlogs _).1.trans ((hresponses _).1.trans hcalls)
  · exact (hlogs _).2.trans (hresponses _).2
  · exact (hwriters _).2.trans (hstreams _)

-- After the end of a session nobody holds a call.
theorem Orderly.holders_close (h : s.Orderly b []) : s.close.holders = [] := by
  obtain ⟨rejected, late, hclose, -⟩ := h.close
  obtain ⟨hwaiting, hresponses, hstreams, hwriters⟩ := s.tables_close
  have hholds : s.close.holds = [] := by
    unfold holds
    rw [hwaiting, hresponses]
    rfl
  have hcalls : heldFrom 0 s.close.exchange.calls = [] := by
    refine heldFrom_of_idle 0 fun i c hc => ?_
    have hidle := hclose.exchange.idle i c hc
    rw [hholds] at hidle
    constructor
    · cases hr : c.requests with
      | none => rfl
      | some source => cases hidle (.inl (by rw [hr]; simp))
    · cases hw : c.writer with
      | false => rfl
      | true => cases hidle (.inr hw)
  unfold holders Exchange.holds
  rw [hcalls, hstreams, hwriters, hholds]
  rfl

/-! ## What can be done to a session -/

end Session

/-- Whether a step uses the recorder or a log past the calls. -/
def Step.isDirect : Step → Bool
  | .reset | .tag .. | .log .. | .finishSpan _ | .openLog .. | .request .. | .response ..
  | .stage .. | .finish _ | .fault .. | .setupFault .. | .dropLog _ => true
  | _ => false

/-- The number of spans that a step starts past the calls. -/
def Step.spans : Step → Nat
  | .start .. | .openLog .. => 1
  | _ => 0

namespace Move

def isDirect : Move → Bool
  | step st => st.isDirect
  | begin .. => false

def spans : Move → Nat
  | step st => st.spans
  | begin .. => 0

end Move

namespace Session

variable {b : Baseline} {s : Session}

-- The setting of the recorder changes, and no record does.
theorem Orderly.withRecorder (h : s.Orderly b []) (f : Recorder → Recorder)
    (hrecords : (f s.recorder).records = s.recorder.records)
    (hrejected : (f s.recorder).rejected = s.recorder.rejected)
    (hlate : (f s.recorder).late = s.recorder.late) : (s.withRecorder f).Orderly b [] := by
  have hs := Settled.useFree (r := f s.recorder) h.cleared (congrArg List.length hrecords)
    fun k _ => congrArg (fun records => records[k]?) hrecords
  have hr : (f s.recorder).rejected = b.rejected := hrejected.trans h.exchange.tracing.rejected
  have hl : (f s.recorder).late = b.late := hlate.trans h.exchange.tracing.late
  rw [hr, hl] at hs
  exact hs.orderly h.exchange.tracing.quiet

-- What is left of the order after a move.
structure Kept (b b' : Baseline) (m : Move) (s : Session) : Prop where
  settled : s.Settled b'
  free : b'.free.length = b.free.length + m.spans
  quiet : m.isDirect = false → ∀ line ∈ s.exchange.reports, line.isSuppressed = false
  counts : m.isDirect = false → b.logged = [] →
    b'.logged = [] ∧ b'.rejected = b.rejected ∧ b'.late = b.late

theorem Orderly.kept {m : Move} {s' : Session} (h : s'.Orderly b []) (hm : m.spans = 0) :
    ∃ b', Kept b b' m s' :=
  ⟨b, h.cleared, by rw [hm]; rfl, fun _ => h.exchange.tracing.quiet, fun _ hb => ⟨hb, rfl, rfl⟩⟩

theorem Settled.kept {m : Move} {s' : Session} {b' : Baseline} (h : s'.Settled b')
    (hm : m.isDirect = true) (hfree : b'.free.length = b.free.length + m.spans) :
    ∃ b', Kept b b' m s' := by
  refine ⟨b', h, hfree, fun hd => ?_, fun hd => ?_⟩ <;>
  · rw [hm] at hd
    cases hd

theorem Orderly.answer (h : s.Orderly b []) (st : Step) :
    ∃ b', Kept b b' (.step st) (s.answer st).1 := by
  have hs : s.Settled b := h.cleared
  cases st with
  -- The setting of the recorder.
  | setActive parent =>
    have hr := h.withRecorder
      (fun r => { r with active := s.exchange.parentContext? none parent }) rfl rfl rfl
    exact hr.kept rfl
  | failInject kind =>
    have hr := h.withRecorder (fun r => { r with injectFailure := some kind }) rfl rfl rfl
    exact hr.kept rfl
  | failExtract kind =>
    have hr := h.withRecorder (fun r => { r with extractFailure := some kind }) rfl rfl rfl
    exact hr.kept rfl
  | resetFailures =>
    have hr := h.withRecorder
      (fun r => { r with injectFailure := none, extractFailure := none }) rfl rfl rfl
    exact hr.kept rfl
  | reset =>
    have hr := hs.useFree (r := s.recorder.reset) rfl fun _ _ => rfl
    exact hr.kept rfl rfl
  -- Looks at the session.
  | find | single | finished | recorderOutline | extract | terminated => exact h.kept rfl
  | spanOutline | logContext | logOutline | streamHint =>
    simp only [Session.answer]
    split <;> exact h.kept rfl
  | carrier entries =>
    have hc : ({ s with carrier := entries } : Session).Orderly b [] :=
      ⟨h.exchange, h.logs, h.logged⟩
    exact hc.kept rfl
  | inject parent format =>
    simp only [Session.answer]
    split
    · exact h.kept rfl
    · have hc (carrier : Metadata) : ({ s with carrier } : Session).Orderly b [] :=
        ⟨h.exchange, h.logs, h.logged⟩
      exact (hc _).kept rfl
  -- Spans and logs past the calls.
  | start as name parent tags =>
    refine ⟨_, hs.startSpan as name parent tags, rfl, fun _ => ?_, fun _ hb => ⟨hb, rfl, rfl⟩⟩
    simp only [Session.answer, Session.startSpan]
    split <;> exact h.exchange.tracing.quiet
  | tag on key value =>
    obtain ⟨_, _, ho⟩ := hs.onSpan on (.tag key value)
    exact ho.kept rfl rfl
  | log on fields =>
    obtain ⟨_, _, ho⟩ := hs.onSpan on (.log fields)
    exact ho.kept rfl rfl
  | finishSpan on =>
    obtain ⟨_, _, ho⟩ := hs.onSpan on .finish
    exact ho.kept rfl rfl
  | openLog as name config fallback =>
    obtain ⟨_, _, _, ho⟩ := hs.openLog as name config fallback
    exact ho.kept rfl rfl
  | request on m =>
    obtain ⟨_, _, _, ho⟩ := hs.onLog on fun l => (l, l.request m)
    exact ho.kept rfl rfl
  | response on m =>
    obtain ⟨_, _, _, ho⟩ := hs.onLog on fun l => (l, l.response m)
    exact ho.kept rfl rfl
  | stage on stage =>
    obtain ⟨_, _, _, ho⟩ := hs.onLog on fun l => (l, l.stage stage)
    exact ho.kept rfl rfl
  | finish on =>
    obtain ⟨_, _, _, ho⟩ := hs.onLog on CallLog.finish
    exact ho.kept rfl rfl
  | fault on status =>
    obtain ⟨_, _, _, ho⟩ := hs.onLog on fun l => l.fault status
    exact ho.kept rfl rfl
  | setupFault on e =>
    obtain ⟨_, _, _, ho⟩ := hs.onLog on fun l => (l, l.setupFault e)
    exact ho.kept rfl rfl
  | dropLog on =>
    simp only [Session.answer]
    cases hf : s.logs.find? on with
    | none => exact hs.kept rfl rfl
    | some l =>
      obtain ⟨_, _, _, ho⟩ := hs.dropLog hf
      exact ho.kept rfl rfl
  -- The parties of calls.
  | call name spec actions => exact (h.begin name spec _).kept rfl
  | poll on => exact (h.resume on).kept rfl
  | dropCall on => exact (h.dropCall on).kept rfl
  | next on => exact (h.pollResponse on false).kept rfl
  | drain on => exact (h.pollResponse on true).kept rfl
  | dropStream on => exact (h.dropStream on).kept rfl
  | unwrapStream on => exact (h.unwrapStream on).kept rfl
  | receive on => exact (h.onOutlet on _).kept rfl
  | closeReceiver on => exact (h.onOutlet on _).kept rfl
  | pollKept on => exact (h.pollKept on).kept rfl
  | writeKept on op => exact (h.writeKept on op).kept rfl
  | dropKept on => exact (h.dropKept on).kept rfl
  | close =>
    obtain ⟨rejected, late, hc, hsame⟩ := h.close
    refine ⟨_, hc.cleared, rfl, fun _ => hc.exchange.tracing.quiet, fun _ hb => ?_⟩
    obtain ⟨hr, hl⟩ := hsame hb
    exact ⟨rfl, hr, hl⟩

theorem Orderly.act (h : s.Orderly b []) (m : Move) : ∃ b', Kept b b' m (m.act s).1 := by
  cases m with
  | step st => exact h.answer st
  | begin name spec body => exact (h.begin name spec body).kept rfl

theorem Settled.play (h : s.Settled b) (m : Move) :
    ∃ b', (s.play m).1.Settled b' ∧ b'.free.length = b.free.length + m.spans ∧
      (m.isDirect = false → ∀ line ∈ (s.play m).2.reports, line.isSuppressed = false) ∧
      (m.isDirect = false → b.logged = [] →
        b'.logged = [] ∧ b'.rejected = b.rejected ∧ b'.late = b.late) := by
  obtain ⟨b', hkept⟩ := Orderly.act h m
  have hs := hkept.settled
  exact ⟨b', ⟨hs.exchange, hs.logs, hs.logged⟩, hkept.free, hkept.quiet, hkept.counts⟩

theorem Settled.playAll (h : s.Settled b) (moves : List Move) :
    ∃ b', (s.playAll moves).1.Settled b' ∧
      b'.free.length = b.free.length + (moves.map Move.spans).sum ∧
      ((∀ m ∈ moves, m.isDirect = false) → b.logged = [] →
        b'.rejected = b.rejected ∧ b'.late = b.late) := by
  induction moves generalizing s b with
  | nil => exact ⟨b, h, rfl, fun _ _ => ⟨rfl, rfl⟩⟩
  | cons m moves ih =>
    obtain ⟨b', hplay, hfree, -, hcounts⟩ := h.play m
    obtain ⟨b'', hall, hfree', hcounts'⟩ := ih hplay
    refine ⟨b'', hall, ?_, fun hm hb => ?_⟩
    · rw [hfree', hfree, List.map_cons, List.sum_cons, Nat.add_assoc]
    · obtain ⟨hb', hr, hl⟩ := hcounts (hm m List.mem_cons_self) hb
      obtain ⟨hr', hl'⟩ := hcounts' (fun m' hm' => hm m' (List.mem_cons_of_mem m hm')) hb'
      exact ⟨hr'.trans hr, hl'.trans hl⟩

/-! ## One span for each call -/

theorem settled_fresh (recorder : Recorder) (config : Config) (ambient : Bool) :
    (fresh recorder config ambient).Settled
      { rejected := recorder.rejected, late := recorder.late
        free := List.range recorder.records.length } where
  exchange :=
    { tracing :=
        { traced := rfl
          shapes := rfl
          accounts := fun i hi => by cases hi
          held := fun k => rfl
          apart := fun i j c d hc => by cases hc
          spans := by
            show recorder.records.length = 0 + (List.range recorder.records.length).length
            rw [List.length_range, Nat.zero_add]
          free := fun span hspan => ⟨List.mem_range.1 hspan, fun i c hc => by cases hc⟩
          rejected := rfl
          late := rfl
          quiet := fun line hline => by cases hline }
      idle := fun i c hc => by cases hc
      names := fun e he => by cases he }
  logs := rfl
  logged := fun span hspan => by cases hspan

-- The record of the span of a call.
def spanOf? (s : Session) (call : Nat) : Option SpanRecord :=
  (s.exchange.tracedCall? call).bind fun c => s.recorder.records[c.span]?

theorem Settled.length_calls (h : s.Settled b) :
    s.exchange.calls.length = s.exchange.tracedCalls.length := by
  have hshapes := congrArg List.length h.exchange.tracing.shapes
  rw [List.length_map, List.length_map, List.length_map] at hshapes
  exact hshapes.symm

/-- The span of a call has been finished once when nobody holds the call, and never more often. -/
theorem Settled.finishCount (h : s.Settled b) {i : Nat} (hi : i < s.exchange.calls.length) :
    ∃ record, s.spanOf? i = some record ∧ record.finishCount ≤ 1 ∧
      ((∀ p, (i, p) ∉ s.holders) → record.finishCount = 1) := by
  have ht := h.exchange.tracing
  obtain ⟨c, hc, o, events, -, -, -, hcall, hrecord⟩ := ht.accounts i (h.length_calls ▸ hi)
  have hc' : s.exchange.tracedCall? i = some c := hc
  have hrecord' : s.recorder.records[c.span]? = _ := hrecord
  have hcount := o.finishCount_run events
  rw [← hcall] at hcount
  refine ⟨_, by unfold spanOf?; rw [hc', Option.bind_some, hrecord'], ?_, fun hfree => ?_⟩
  · rw [hcount]
    split <;> omega
  · -- Without holders there are no parties, and then the log of the call has ended.
    have hnone (p : Party) : c.call.has p = false := by
      have hheld := ht.held (i, p)
      have hzero : (s.holders).count (i, p) = 0 := List.count_eq_zero.2 (hfree p)
      have hsame : (s.cleared.exchange.holds ++ ([] ++ s.cleared.holds)).count (i, p) =
          s.holders.count (i, p) := rfl
      rw [hsame, hzero, Tracing.has, hc] at hheld
      cases hp : c.call.has p with
      | false => rfl
      | true => simp [hp] at hheld
    have hsound : c.call.Sound := by
      rw [hcall]
      exact Call.sound_run o.sound_started events
    rw [hcount, hsound.finished_of_released (Call.held_of_has hnone)]
    rfl

/--
The span of a call in a session is what a legal run of the call leaves, whoever its parties are and
whatever else goes on.
-/
theorem spanOf?_of_run (recorder : Recorder) (config : Config) (ambient : Bool)
    (moves : List Move) :
    let s := ((fresh recorder config ambient).playAll moves).1
    ∀ i < s.exchange.calls.length, ∃ (o : CallStart Message) (events : List (CallEvent Message)),
      o.config = s.exchange.config ∧ o.started.call.Legal events ∧
        s.spanOf? i = (o.after events).records[o.started.span]? := by
  intro s i hi
  obtain ⟨b, hs, -⟩ := (settled_fresh recorder config ambient).playAll moves
  obtain ⟨c, hc, o, events, hconfig, hlegal, -, -, hrecord⟩ :=
    hs.exchange.tracing.accounts i (hs.length_calls ▸ hi)
  have hc' : s.exchange.tracedCall? i = some c := hc
  have hrecord' : s.recorder.records[c.span]? = _ := hrecord
  refine ⟨o, events, hconfig, hlegal, ?_⟩
  unfold spanOf?
  rw [hc', Option.bind_some, hrecord', o.record_after]

/-- Besides the spans of calls there are those that were started past the calls. -/
theorem Settled.length_records (h : s.Settled b) :
    s.recorder.records.length = s.exchange.calls.length + b.free.length := by
  rw [h.length_calls]
  exact h.exchange.tracing.spans

/-- At the end of a session the span of each call has been finished once. -/
theorem Settled.finishCount_close (h : s.Settled b) {i : Nat}
    (hi : i < (s.play (.step .close)).1.exchange.calls.length) :
    ∃ record, (s.play (.step .close)).1.spanOf? i = some record ∧ record.finishCount = 1 := by
  obtain ⟨b', hended, -⟩ := h.play (.step .close)
  obtain ⟨record, hrecord, -, hone⟩ := hended.finishCount hi
  have hholders : (s.play (.step .close)).1.holders = [] := Orderly.holders_close h
  refine ⟨record, hrecord, hone fun p hp => ?_⟩
  rw [hholders] at hp
  cases hp

end Session

end CallTrace
