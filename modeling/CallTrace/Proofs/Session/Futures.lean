import CallTrace.Proofs.Session.HandsOn
import CallTrace.Proofs.Session.Spans
import CallTrace.Proofs.Session.Transparency
import CallTrace.Session.Future

/-!
# One span for each call

Which calls a caller starts with each of its moves: a call starts with the first poll of its future,
and the calls that its continuation makes start on the way.  The spans of the session are accounted
for by them, one for each call and one for each span that is asked for by name.
-/

namespace CallTrace

/-! ## The calls that a move starts -/

/-- Whether a step runs the continuation of a call. -/
def Step.runs : Step → Bool
  | .call .. | .poll _ => true
  | _ => false

/-- The calls that a move starts in a session, in their order. -/
inductive Move.Starts (s : Session) : Move → List CallSpec → Prop
  | begin {name : String} {spec : CallSpec} {body : Seen → Continuation} {x y : Exchange}
      {call : Nat} {seen : Seen} {specs : List CallSpec} {r : Option Return}
      (hstart : s.exchange.startCall none none spec = (x, call, seen))
      (h : x.Runs call (body seen) specs y r) : Starts s (.begin name spec body) (spec :: specs)
  | call {name : String} {spec : CallSpec} {actions : List Action} {specs : List CallSpec}
      (h : Starts s (.begin name spec (Action.continuation spec.kind spec.type actions)) specs) :
      Starts s (.step (.call name spec actions)) specs
  | poll {name : String} {call : Nat} {rest : Suspended} {y : Exchange} {specs : List CallSpec}
      {r : Option Return} (hf : s.waiting.find? name = some (call, rest))
      (h : s.exchange.Resumes call rest specs y r) : Starts s (.step (.poll name)) specs
  | absent {name : String} (hf : s.waiting.find? name = none) : Starts s (.step (.poll name)) []
  | other {st : Step} (hst : st.runs = false) : Starts s (.step st) []

namespace Session

-- At the end of a session no call starts.
theorem growsBy_close (s : Session) : s.exchange.GrowsBy s.close.exchange [] := by
  have hcalls : s.exchange.GrowsBy s.closeCalls.exchange [] := by
    unfold closeCalls releaseCall
    rw [foldl_exchange (fun x (e : String × (Nat × Suspended)) => x.abandon e.2.1 e.2.2)]
    refine Exchange.growsBy_foldl (fun x e => ?_) _ _
    exact x.growsBy_abandon e.2.1 e.2.2
  have hresponses (t : Session) : t.exchange.GrowsBy t.closeResponses.exchange [] := by
    unfold closeResponses releaseResponse
    rw [foldl_exchange (fun x (e : String × (Nat × Source)) => x.dropSource e.2.2)]
    refine Exchange.growsBy_foldl (fun x e => ?_) _ _
    exact .refl x
  have hlogs (t : Session) : t.exchange.GrowsBy t.closeLogs.exchange [] :=
    Exchange.growsBy_of_calls t.unseen_closeLogs.calls
  have hstreams (t : Session) : t.exchange.GrowsBy t.closeStreams.exchange [] := by
    unfold closeStreams
    refine Exchange.growsBy_foldl (fun x e => ?_) _ _
    exact .refl x
  have hwriters (t : Session) : t.exchange.GrowsBy t.closeWriters.exchange [] := by
    unfold closeWriters
    refine Exchange.growsBy_foldl (fun x e => ?_) _ _
    exact Exchange.growsBy_nil.2 (x.shapes_releaseWriter e.2)
  exact hcalls.trans ((hresponses _).trans ((hlogs _).trans ((hstreams _).trans (hwriters _))))

-- A step that runs no continuation starts no call.
theorem growsBy_answer (s : Session) {st : Step} (h : st.runs = false) :
    s.exchange.GrowsBy (s.answer st).1.exchange [] := by
  cases st with
  | call name spec actions => cases h
  | poll name => cases h
  | dropCall name =>
    simp only [answer, dropCall]
    cases s.waiting.find? name with
    | none => exact .refl _
    | some held => exact s.exchange.growsBy_abandon held.1 held.2
  | next name | drain name =>
    simp only [answer, pollResponse]
    cases s.responses.find? name with
    | none => exact .refl _
    | some response =>
      dsimp only
      split
      · exact .refl _
      · split <;> exact .refl _
  | streamHint name =>
    simp only [answer]
    cases s.responses.find? name <;> exact .refl _
  | dropStream name =>
    simp only [answer, dropStream]
    cases s.responses.find? name <;> exact .refl _
  | unwrapStream name =>
    simp only [answer, unwrapStream]
    cases s.responses.find? name <;> exact .refl _
  | receive name | closeReceiver name =>
    simp only [answer, onOutlet]
    split
    · exact .refl _
    · split
      · exact .refl _
      · exact s.exchange.growsBy_update _ fun _ => rfl
  | pollKept name =>
    simp only [answer, pollKept]
    cases s.exchange.keptStreams.find? name <;> exact .refl _
  | writeKept name op =>
    simp only [answer, writeKept]
    cases s.exchange.keptWriters.find? name with
    | none => exact .refl _
    | some call =>
      have hwritten := s.exchange.growsBy_writeOnce call op
      dsimp only
      generalize s.exchange.writeOnce call op = written at hwritten ⊢
      rcases written with ⟨x, _ | result⟩ <;> exact hwritten
  | dropKept name =>
    have hstream : s.exchange.GrowsBy (s.dropKeptStream name).1.exchange [] := by
      unfold dropKeptStream
      cases s.exchange.keptStreams.find? name <;> exact .refl _
    have hwriter (t : Session) : t.exchange.GrowsBy (t.dropKeptWriter name).1.exchange [] := by
      unfold dropKeptWriter
      cases t.exchange.keptWriters.find? name with
      | none => exact .refl _
      | some call => exact Exchange.growsBy_nil.2 (Exchange.shapes_releaseWriter _ call)
    exact hstream.trans (hwriter _)
  | close => exact s.growsBy_close
  | _ => exact Exchange.growsBy_of_calls (s.unseen_answer _ rfl).calls

/-- A move starts the calls on its way and no others. -/
theorem starts_act (s : Session) (m : Move) :
    ∃ specs, m.Starts s specs ∧ s.exchange.GrowsBy (m.act s).1.exchange specs := by
  have hbegin (name : String) (spec : CallSpec) (body : Seen → Continuation) :
      ∃ specs, (Move.begin name spec body).Starts s specs ∧
        s.exchange.GrowsBy (s.begin name spec body).1.exchange specs := by
    obtain ⟨x, call, seen, specs, y, r, hstart, hruns, hgrows, -⟩ := s.begin_runs name spec body
    exact ⟨spec :: specs, .begin hstart hruns, hgrows⟩
  cases m with
  | begin name spec body => exact hbegin name spec body
  | step st =>
    by_cases hst : st.runs = false
    · exact ⟨[], .other hst, s.growsBy_answer hst⟩
    · cases st with
      | call name spec actions =>
        obtain ⟨specs, hstarts, hgrows⟩ :=
          hbegin name spec (Action.continuation spec.kind spec.type actions)
        exact ⟨specs, .call hstarts, hgrows⟩
      | poll name =>
        cases hf : s.waiting.find? name with
        | none =>
          have hsame : (s.resume name).1 = s := by
            unfold resume
            rw [hf]
          exact ⟨[], .absent hf, Exchange.growsBy_of_calls (congrArg (·.exchange.calls) hsame)⟩
        | some held =>
          obtain ⟨call, rest⟩ := held
          obtain ⟨specs, y, r, hresumes, hgrows, -⟩ := resume_resumes hf
          exact ⟨specs, .poll hf hresumes, hgrows⟩
      | _ => exact absurd rfl hst

/--
One session has the calls and the spans of another one, and past these the calls of these specs with
a span for each, and so many spans that were asked for by name.
-/
structure Gains (s t : Session) (specs : List CallSpec) (named : Nat) : Prop where
  calls : s.exchange.GrowsBy t.exchange specs
  spans : t.recorder.records.length = s.recorder.records.length + specs.length + named

variable {b b' : Baseline} {s t : Session}

theorem Settled.gains (h : s.Settled b) (h' : t.Settled b') {specs : List CallSpec} {named : Nat}
    (hgrows : s.exchange.GrowsBy t.exchange specs)
    (hfree : b'.free.length = b.free.length + named) : s.Gains t specs named where
  calls := hgrows
  spans := by
    have hlength := congrArg List.length hgrows
    simp only [List.length_append, List.length_map] at hlength
    rw [h.length_records, h'.length_records, hlength, hfree]
    omega

-- What was on record of the last step is cleared.
theorem Settled.record_done (h : s.Settled b) :
    (s.record fun s => (s, .done)).1.Settled b := ⟨h.exchange, h.logs, h.logged⟩

end Session

/-! ## The moves of a caller -/

namespace CallerMove

def spans : CallerMove → Nat
  | move m => m.spans
  | make .. | poll _ | drop _ => 0

def isDirect : CallerMove → Bool
  | move m => m.isDirect
  | make .. | poll _ | drop _ => false

/--
The calls that a move of a caller starts: none when a call is made or its future let go, and with
the first poll of the future the call itself.
-/
inductive Starts (c : Caller) : CallerMove → List CallSpec → Prop
  | make (name : String) (spec : CallSpec) (body : Seen → Continuation) :
      Starts c (.make name spec body) []
  | first {name : String} {future : Future} {specs : List CallSpec}
      (hf : c.unpolled.find? name = some future)
      (h : (Move.begin name future.spec future.body).Starts c.session.cleared specs) :
      Starts c (.poll name) specs
  | again {name : String} {specs : List CallSpec} (hf : c.unpolled.find? name = none)
      (h : (Move.step (.poll name)).Starts c.session.cleared specs) : Starts c (.poll name) specs
  | drop (name : String) : Starts c (.drop name) []
  | move {m : Move} {specs : List CallSpec} (h : m.Starts c.session.cleared specs) :
      Starts c (.move m) specs

end CallerMove

namespace Caller

variable {b : Baseline} {c : Caller}

theorem starts_play (c : Caller) (m : CallerMove) :
    ∃ specs, m.Starts c specs ∧
      c.session.exchange.GrowsBy (c.play m).1.session.exchange specs := by
  cases m with
  | make name spec body => exact ⟨[], .make name spec body, .refl _⟩
  | poll name =>
    simp only [play, turn]
    cases hf : c.unpolled.find? name with
    | none =>
      obtain ⟨specs, hstarts, hgrows⟩ := c.session.cleared.starts_act (.step (.poll name))
      exact ⟨specs, .again hf hstarts, hgrows⟩
    | some future =>
      obtain ⟨specs, hstarts, hgrows⟩ :=
        c.session.cleared.starts_act (.begin name future.spec future.body)
      exact ⟨specs, .first hf hstarts, hgrows⟩
  | drop name =>
    refine ⟨[], .drop name, ?_⟩
    simp only [play, turn]
    cases c.unpolled.find? name with
    | none =>
      have hdropped : (Step.dropCall name).runs = false := rfl
      exact c.session.cleared.growsBy_answer hdropped
    | some future => exact .refl _
  | move m =>
    obtain ⟨specs, hstarts, hgrows⟩ := c.session.cleared.starts_act m
    exact ⟨specs, .move hstarts, hgrows⟩

theorem settled_play (h : c.session.Settled b) (m : CallerMove) :
    ∃ b', (c.play m).1.session.Settled b' ∧ b'.free.length = b.free.length + m.spans ∧
      (m.isDirect = false → ∀ line ∈ (c.play m).2.reports, line.isSuppressed = false) ∧
      (m.isDirect = false → b.logged = [] →
        b'.logged = [] ∧ b'.rejected = b.rejected ∧ b'.late = b.late) := by
  have hdone : ∃ b', (c.session.record fun s => (s, .done)).1.Settled b' ∧
      b'.free.length = b.free.length + 0 ∧
      (false = false → ∀ line ∈ (c.session.record fun s => (s, .done)).2.reports,
        line.isSuppressed = false) ∧
      (false = false → b.logged = [] →
        b'.logged = [] ∧ b'.rejected = b.rejected ∧ b'.late = b.late) :=
    ⟨b, h.record_done, rfl, fun _ line hline => (by cases hline), fun _ hb => ⟨hb, rfl, rfl⟩⟩
  cases m with
  | make name spec body => exact hdone
  | poll name =>
    simp only [play, turn]
    cases c.unpolled.find? name with
    | none => exact h.play (.step (.poll name))
    | some future => exact h.play (.begin name future.spec future.body)
  | drop name =>
    simp only [play, turn]
    cases c.unpolled.find? name with
    | none => exact h.play (.step (.dropCall name))
    | some future => exact hdone
  | move m => exact h.play m

theorem settled_playAll (h : c.session.Settled b) (moves : List CallerMove) :
    ∃ b', (c.playAll moves).1.session.Settled b' ∧
      b'.free.length = b.free.length + (moves.map CallerMove.spans).sum ∧
      ((∀ m ∈ moves, m.isDirect = false) → b.logged = [] →
        b'.rejected = b.rejected ∧ b'.late = b.late) := by
  induction moves generalizing c b with
  | nil => exact ⟨b, h, rfl, fun _ _ => ⟨rfl, rfl⟩⟩
  | cons m moves ih =>
    obtain ⟨b', hplay, hfree, -, hcounts⟩ := settled_play h m
    obtain ⟨b'', hall, hfree', hcounts'⟩ := ih hplay
    refine ⟨b'', hall, ?_, fun hm hb => ?_⟩
    · rw [hfree', hfree, List.map_cons, List.sum_cons, Nat.add_assoc]
    · obtain ⟨hb', hr, hl⟩ := hcounts (hm m List.mem_cons_self) hb
      obtain ⟨hr', hl'⟩ := hcounts' (fun m' hm' => hm m' (List.mem_cons_of_mem m hm')) hb'
      exact ⟨hr'.trans hr, hl'.trans hl⟩

theorem gains_play (h : c.session.Settled b) (m : CallerMove) :
    ∃ specs, m.Starts c specs ∧ c.session.Gains (c.play m).1.session specs m.spans := by
  obtain ⟨specs, hstarts, hgrows⟩ := c.starts_play m
  obtain ⟨b', hplay, hfree, -⟩ := settled_play h m
  exact ⟨specs, hstarts, h.gains hplay hgrows hfree⟩

-- A call that is made starts with the first poll of its future, and its span with it.
theorem gains_first (h : c.session.Settled b) (name : String) (spec : CallSpec)
    (body : Seen → Continuation) :
    ∃ specs, c.session.Gains
      ((c.play (.make name spec body)).1.play (.poll name)).1.session (spec :: specs) 0 := by
  let made := (c.play (.make name spec body)).1
  have hmade : made.session.Settled b := h.record_done
  have hfuture : made.unpolled.find? name = some (c.session.future spec body) :=
    c.unpolled.find?_set name _
  obtain ⟨specs, hstarts, hgains⟩ := gains_play hmade (.poll name)
  cases hstarts with
  | again hf _ =>
    rw [hfuture] at hf
    cases hf
  | first hf hbegin =>
    rw [hfuture] at hf
    cases hf
    cases hbegin with
    | begin hstart hruns => exact ⟨_, hgains.calls, hgains.spans⟩

-- A call whose future is let go before has left nothing.
theorem gains_unpolled (h : c.session.Settled b) (name : String) (spec : CallSpec)
    (body : Seen → Continuation) :
    c.session.Gains ((c.play (.make name spec body)).1.play (.drop name)).1.session [] 0 := by
  let made := (c.play (.make name spec body)).1
  have hmade : made.session.Settled b := h.record_done
  obtain ⟨specs, hstarts, hgains⟩ := gains_play hmade (.drop name)
  cases hstarts with
  | drop => exact ⟨hgains.calls, hgains.spans⟩

/-! ## One span for each call -/

/--
Whatever is done to a session, every call in it has one span and shares it with no other call, and
no other spans are started than those asked for by name.  A call starts with the first poll of its
future, and calls that its continuation makes start on the way; a call whose future is let go before
its first poll starts no span.  The span is finished at most once, and once as soon as nobody holds
the call, as at the end of the session.  No call reports a second end, and unless somebody uses
spans and logs past the calls, nothing is done to a span that has ended.
-/
theorem one_span_for_each_polled_call (recorder : Recorder) (config : Config) (ambient : Bool)
    (moves : List CallerMove) :
    let c := ((fresh recorder config ambient).playAll moves).1
    let s := c.session
    let ended := (s.play (.step .close)).1
    s.recorder.records.length =
        recorder.records.length + (moves.map CallerMove.spans).sum + s.exchange.calls.length ∧
      (∀ i j d e, s.exchange.tracedCall? i = some d → s.exchange.tracedCall? j = some e →
        d.span = e.span → i = j) ∧
      (∀ i < s.exchange.calls.length, ∃ record, s.spanOf? i = some record ∧
        record.finishCount ≤ 1 ∧ ((∀ p, (i, p) ∉ s.holders) → record.finishCount = 1)) ∧
      (∀ i < ended.exchange.calls.length, ∃ record, ended.spanOf? i = some record ∧
        record.finishCount = 1) ∧
      (∀ m : CallerMove, m.isDirect = false →
        ∀ line ∈ (c.play m).2.reports, line.isSuppressed = false) ∧
      ((∀ m ∈ moves, m.isDirect = false) →
        s.recorder.rejected = recorder.rejected ∧ s.recorder.late = recorder.late) ∧
      (∀ m : CallerMove, ∃ specs, m.Starts c specs ∧ s.Gains (c.play m).1.session specs m.spans) ∧
      (∀ name spec body,
        (∃ specs, s.Gains ((c.play (.make name spec body)).1.play (.poll name)).1.session
          (spec :: specs) 0) ∧
        s.Gains ((c.play (.make name spec body)).1.play (.drop name)).1.session [] 0) := by
  intro c s ended
  have hfresh := Session.settled_fresh recorder config ambient
  obtain ⟨b, hs, hfree, hcounts⟩ := settled_playAll (c := fresh recorder config ambient) hfresh
    moves
  refine ⟨?_, hs.exchange.tracing.apart, fun i hi => hs.finishCount hi,
    fun i hi => hs.finishCount_close hi, fun m hm => ?_, fun hm => ?_, gains_play hs,
    fun name spec body => ⟨gains_first hs name spec body, gains_unpolled hs name spec body⟩⟩
  · have hlength : s.recorder.records.length = s.exchange.calls.length + b.free.length :=
      hs.length_records
    have hnamed : b.free.length = recorder.records.length + (moves.map CallerMove.spans).sum := by
      rw [hfree, List.length_range]
    omega
  · obtain ⟨b', -, -, hquiet, -⟩ := settled_play hs m
    exact hquiet hm
  · obtain ⟨hr, hl⟩ := hcounts hm rfl
    exact ⟨hs.exchange.tracing.rejected.trans hr, hs.exchange.tracing.late.trans hl⟩

/-- A call that is made and then dropped before its first poll has no span. -/
theorem unpolled_call_has_no_span :
    ¬∀ (recorder : Recorder) (config : Config) (ambient : Bool) (spec : CallSpec)
      (body : Seen → Continuation),
      let c := ((fresh recorder config ambient).playAll [.make "call" spec body, .drop "call"]).1
      c.session.recorder.records.length = recorder.records.length + 1 := by
  intro h
  have hone := h { ids := .odd 0 0 } {} true
    { kind := .client, type := .unary, method := "/say", requests := .single .unit }
    fun _ => .resolve (.reply .unit .empty)
  cases hone

end Caller

end CallTrace
