import CallTrace.Proofs.Session.AlikeRun
import CallTrace.Proofs.Session.HandsOn
import CallTrace.Proofs.Stream

/-!
# Transparency

The parties of calls see no difference between a session in which calls are traced and one in which
they are not, as long as the continuations take no notice of the headers of spans.  Two sessions are
played side by side: their exchanges look alike before every move, so a move of a party gets the
same answer in both, and what is done to the recorder changes nothing that a party can see.
-/

namespace CallTrace

namespace Session

/-- The parties of the calls in one session see what those in the other see. -/
structure Alike (names : List String) (s s' : Session) : Prop where
  exchange : s.exchange.Alike names s'.exchange
  waiting : Table.Rel (fun a b => a.1 = b.1 ∧ a.2.Alike names b.2) s.waiting s'.waiting
  responses : Table.Rel (fun a b => a.2.Alike b.2) s.responses s'.responses

/-- Both sessions go on alike and give the same answer. -/
structure Agree (names : List String) (r r' : Session × Answer) : Prop where
  left : r.1.Alike names r'.1
  answer : r.2 = r'.2

variable {names : List String} {s s' : Session}

theorem Alike.of_exchange (h : s.Alike names s') {x y : Exchange} (hxy : x.Alike names y) :
    ({ s with exchange := x } : Session).Alike names { s' with exchange := y } :=
  { h with exchange := hxy }

/-! ## Calls that wait -/

theorem Alike.releaseCall (h : s.Alike names s') (i : Nat) {rest rest' : Suspended}
    (hrest : rest.Alike names rest') :
    (s.releaseCall (i, rest)).Alike names (s'.releaseCall (i, rest')) :=
  h.of_exchange (h.exchange.abandon i hrest)

theorem Alike.suspend (h : s.Alike names s') (name : String) (i : Nat) {rest rest' : Suspended}
    (hrest : rest.Alike names rest') :
    (s.suspend name (i, rest)).Alike names (s'.suspend name (i, rest')) := by
  have hold := h.waiting.find? name
  have hkept : ({ s with waiting := s.waiting.set name (i, rest) } : Session).Alike names
      { s' with waiting := s'.waiting.set name (i, rest') } :=
    { h with waiting := h.waiting.set name ⟨rfl, hrest⟩ }
  unfold Session.suspend
  dsimp only
  generalize s.waiting.find? name = old at hold ⊢
  generalize s'.waiting.find? name = old' at hold ⊢
  cases hold with
  | none => exact hkept
  | @some a b hab =>
    obtain ⟨j, rest⟩ := a
    obtain ⟨j', rest'⟩ := b
    obtain ⟨hj, hab⟩ := hab
    cases hj
    exact hkept.releaseCall j hab

theorem Alike.dropCall (h : s.Alike names s') (name : String) :
    Agree names (s.dropCall name) (s'.dropCall name) := by
  have hheld := h.waiting.find? name
  have herased : ({ s with waiting := s.waiting.erase name } : Session).Alike names
      { s' with waiting := s'.waiting.erase name } :=
    { h with waiting := h.waiting.erase name }
  unfold Session.dropCall
  generalize s.waiting.find? name = held at hheld ⊢
  generalize s'.waiting.find? name = held' at hheld ⊢
  cases hheld with
  | none => exact ⟨h, rfl⟩
  | @some a b hab =>
    obtain ⟨i, rest⟩ := a
    obtain ⟨i', rest'⟩ := b
    obtain ⟨hi, hab⟩ := hab
    cases hi
    exact ⟨herased.releaseCall i hab, rfl⟩

/-! ## Response streams -/

theorem Alike.releaseResponse (h : s.Alike names s') (a b : Source) :
    (s.releaseResponse a).Alike names (s'.releaseResponse b) :=
  h.of_exchange (h.exchange.dropSource a b)

theorem Alike.keepResponse (h : s.Alike names s') (name : String) {a b : Nat × Source}
    (hab : a.2.Alike b.2) : (s.keepResponse name a).Alike names (s'.keepResponse name b) := by
  have hold := h.responses.find? name
  have hkept : ({ s with responses := s.responses.set name a } : Session).Alike names
      { s' with responses := s'.responses.set name b } :=
    { h with responses := h.responses.set name hab }
  unfold Session.keepResponse
  dsimp only
  generalize s.responses.find? name = old at hold ⊢
  generalize s'.responses.find? name = old' at hold ⊢
  cases hold with
  | none => exact hkept
  | some hold => exact hkept.releaseResponse _ _

theorem Alike.dropStream (h : s.Alike names s') (name : String) :
    Agree names (s.dropStream name) (s'.dropStream name) := by
  have hheld := h.responses.find? name
  have herased : ({ s with responses := s.responses.erase name } : Session).Alike names
      { s' with responses := s'.responses.erase name } :=
    { h with responses := h.responses.erase name }
  unfold Session.dropStream
  generalize s.responses.find? name = held at hheld ⊢
  generalize s'.responses.find? name = held' at hheld ⊢
  cases hheld with
  | none => exact ⟨h, rfl⟩
  | some _ => exact ⟨herased.releaseResponse _ _, rfl⟩

theorem Alike.pollResponse (h : s.Alike names s') (name : String) (all : Bool) :
    Agree names (s.pollResponse name all) (s'.pollResponse name all) := by
  have hheld := h.responses.find? name
  unfold Session.pollResponse
  generalize s.responses.find? name = held at hheld ⊢
  generalize s'.responses.find? name = held' at hheld ⊢
  cases hheld with
  | none => exact ⟨h, rfl⟩
  | @some a b hab =>
    obtain ⟨i, source⟩ := a
    obtain ⟨i', source'⟩ := b
    dsimp only at hab ⊢
    -- Both streams have equally many answers left.
    have hsize : source.size = source'.size := by
      rw [Source.size_eq, Source.size_eq, hab]
    rw [hsize]
    generalize (if all = true then source'.size + 1 else 1) = n
    obtain ⟨hleft, hright, hstream, hanswers⟩ :=
      Tracing.pollWhile_alike h.exchange.left h.exchange.right hab n
    generalize s.exchange.toTracing.pollWhile source n = polled at hleft hstream hanswers ⊢
    generalize s'.exchange.toTracing.pollWhile source' n = polled' at hright hstream hanswers ⊢
    obtain ⟨t, source, answers⟩ := polled
    obtain ⟨u, source', answers'⟩ := polled'
    cases hanswers
    have hkept : ({ s with
        exchange := { s.exchange with toTracing := t }
        responses := s.responses.set name (i, source) } : Session).Alike names
        { s' with
          exchange := { s'.exchange with toTracing := u }
          responses := s'.responses.set name (i', source') } :=
      { exchange := h.exchange.of_tracing hleft hright
        waiting := h.waiting
        responses := h.responses.set name hstream }
    dsimp only
    split
    · exact ⟨hkept, rfl⟩
    · cases answers with
      | nil => exact ⟨hkept, rfl⟩
      | cons answer _ => exact ⟨hkept, rfl⟩

theorem Alike.unwrapStream (h : s.Alike names s') (name : String) :
    Agree names (s.unwrapStream name) (s'.unwrapStream name) := by
  have hheld := h.responses.find? name
  unfold Session.unwrapStream
  generalize s.responses.find? name = held at hheld ⊢
  generalize s'.responses.find? name = held' at hheld ⊢
  cases hheld with
  | none => exact ⟨h, rfl⟩
  | @some a b hab =>
    obtain ⟨i, source⟩ := a
    obtain ⟨i', source'⟩ := b
    dsimp only at hab ⊢
    have hinner : (s.exchange.toTracing.unwatch source).2.Alike
        (s'.exchange.toTracing.unwatch source').2 := by
      unfold Source.Alike
      rw [Tracing.answers_unwatch, Tracing.answers_unwatch]
      exact hab
    have hleft := h.exchange.left.unwatch source
    have hright := h.exchange.right.unwatch source'
    generalize s.exchange.toTracing.unwatch source = inner at hinner hleft ⊢
    generalize s'.exchange.toTracing.unwatch source' = inner' at hinner hright ⊢
    obtain ⟨-, hanswer⟩ := Tracing.poll_alike inner.1 inner'.1 hinner
    refine ⟨?_, congrArg Answer.polled hanswer⟩
    exact
      { exchange := h.exchange.of_tracing ((hleft.poll _).dropSource _)
          ((hright.poll _).dropSource _)
        waiting := h.waiting
        responses := h.responses.erase name }

/-! ## Runs of calls -/

theorem Alike.conclude (h : s.Alike names s') (name : String) (i : Nat) {r r' : Exchange × Progress}
    (hx : r.1.Alike names r'.1) (hprogress : r.2.Alike names r'.2) :
    Agree names (s.conclude name i r) (s'.conclude name i r') := by
  obtain ⟨x, progress⟩ := r
  obtain ⟨y, progress'⟩ := r'
  dsimp only at hx hprogress
  cases hprogress with
  | waiting hrest => exact ⟨(h.of_exchange hx).suspend name i hrest, rfl⟩
  | ended r =>
    obtain ⟨hsettled, hresult, hresponse⟩ := hx.settle i r
    unfold Session.conclude
    dsimp only
    generalize x.settle i r = settled at hsettled hresult hresponse ⊢
    generalize y.settle i r = settled' at hsettled hresult hresponse ⊢
    obtain ⟨x', result, response⟩ := settled
    obtain ⟨y', result', response'⟩ := settled'
    cases hresult
    cases hresponse with
    | none => exact ⟨h.of_exchange hsettled, rfl⟩
    | @some a b hab =>
      have hpair : ((i, a) : Nat × Source).2.Alike ((i, b) : Nat × Source).2 := hab
      exact ⟨(h.of_exchange hsettled).keepResponse name hpair, rfl⟩

theorem Alike.begin (h : s.Alike names s') (name : String) {spec spec' : CallSpec}
    (hspec : spec.Alike names spec') {body body' : Seen → Continuation}
    (hbody : ∀ a b : Seen, a.Alike names b → (body a).Alike names (body' b)) :
    Agree names (s.begin name spec body) (s'.begin name spec' body') := by
  obtain ⟨hstarted, hcall, hseen⟩ := h.exchange.startCall none none none hspec
  unfold Session.begin
  generalize s.exchange.startCall none none spec = started at hstarted hcall hseen ⊢
  generalize s'.exchange.startCall none none spec' = started' at hstarted hcall hseen ⊢
  obtain ⟨x, i, seen⟩ := started
  obtain ⟨y, i', seen'⟩ := started'
  cases hcall
  obtain ⟨hran, hprogress⟩ := hstarted.run i (hbody seen seen' hseen)
  exact h.conclude name i hran hprogress

theorem Alike.resume (h : s.Alike names s') (name : String) :
    Agree names (s.resume name) (s'.resume name) := by
  have hheld := h.waiting.find? name
  have herased : ({ s with waiting := s.waiting.erase name } : Session).Alike names
      { s' with waiting := s'.waiting.erase name } :=
    { h with waiting := h.waiting.erase name }
  unfold Session.resume
  generalize s.waiting.find? name = held at hheld ⊢
  generalize s'.waiting.find? name = held' at hheld ⊢
  cases hheld with
  | none => exact ⟨h, rfl⟩
  | @some a b hab =>
    obtain ⟨i, rest⟩ := a
    obtain ⟨i', rest'⟩ := b
    obtain ⟨hi, hab⟩ := hab
    cases hi
    obtain ⟨hran, hprogress⟩ := h.exchange.resume i hab
    exact herased.conclude name i hran hprogress

/-! ## Sinks and what outlives its call -/

theorem Alike.onOutlet (h : s.Alike names s') (name : String)
    (f : Outlet Message → Outlet Message × Answer) :
    Agree names (s.onOutlet name f) (s'.onOutlet name f) := by
  unfold Session.onOutlet
  rw [h.exchange.outletNames]
  cases s'.exchange.outletNames.find? name with
  | none => exact ⟨h, rfl⟩
  | some i =>
    dsimp only
    rw [h.exchange.outlet? i]
    cases s'.exchange.calls[i]?.bind CallState.outlet with
    | none => exact ⟨h, rfl⟩
    | some outlet => exact ⟨h.of_exchange (h.exchange.updateOutlet i fun _ => _), rfl⟩

theorem Alike.pollKept (h : s.Alike names s') (name : String) :
    Agree names (s.pollKept name) (s'.pollKept name) := by
  have hheld := h.exchange.keptStreams.find? name
  unfold Session.pollKept
  generalize s.exchange.keptStreams.find? name = held at hheld ⊢
  generalize s'.exchange.keptStreams.find? name = held' at hheld ⊢
  cases hheld with
  | none => exact ⟨h, rfl⟩
  | some hab =>
    obtain ⟨hpolled, hleft, hanswer⟩ := h.exchange.poll hab
    refine ⟨h.of_exchange ?_, congrArg Answer.polled hanswer⟩
    exact { hpolled with keptStreams := hpolled.keptStreams.set name hleft }

theorem Alike.writeKept (h : s.Alike names s') (name : String) (op : SinkOp Message) :
    Agree names (s.writeKept name op) (s'.writeKept name op) := by
  unfold Session.writeKept
  rw [h.exchange.keptWriters]
  cases s'.exchange.keptWriters.find? name with
  | none => exact ⟨h, rfl⟩
  | some i =>
    obtain ⟨hwritten, hresult⟩ := h.exchange.writeOnce i op
    dsimp only
    generalize s.exchange.writeOnce i op = written at hwritten hresult ⊢
    generalize s'.exchange.writeOnce i op = written' at hwritten hresult ⊢
    obtain ⟨x, result⟩ := written
    obtain ⟨y, result'⟩ := written'
    cases hresult
    cases result with
    | none => exact ⟨h.of_exchange hwritten, rfl⟩
    | some result => exact ⟨h.of_exchange hwritten, rfl⟩

theorem Alike.dropKeptStream (h : s.Alike names s') (name : String) :
    (s.dropKeptStream name).1.Alike names (s'.dropKeptStream name).1 ∧
      (s.dropKeptStream name).2 = (s'.dropKeptStream name).2 := by
  have hheld := h.exchange.keptStreams.find? name
  have herased : ({ s.exchange with
      keptStreams := s.exchange.keptStreams.erase name } : Exchange).Alike names
      { s'.exchange with keptStreams := s'.exchange.keptStreams.erase name } :=
    { h.exchange with keptStreams := h.exchange.keptStreams.erase name }
  unfold Session.dropKeptStream
  generalize s.exchange.keptStreams.find? name = held at hheld ⊢
  generalize s'.exchange.keptStreams.find? name = held' at hheld ⊢
  cases hheld with
  | none => exact ⟨h, rfl⟩
  | some _ => exact ⟨h.of_exchange (herased.dropSource _ _), rfl⟩

theorem Alike.dropKeptWriter (h : s.Alike names s') (name : String) :
    (s.dropKeptWriter name).1.Alike names (s'.dropKeptWriter name).1 ∧
      (s.dropKeptWriter name).2 = (s'.dropKeptWriter name).2 := by
  have herased : ({ s.exchange with
      keptWriters := s.exchange.keptWriters.erase name } : Exchange).Alike names
      { s'.exchange with keptWriters := s'.exchange.keptWriters.erase name } :=
    { h.exchange with keptWriters := congrArg (·.erase name) h.exchange.keptWriters }
  unfold Session.dropKeptWriter
  rw [h.exchange.keptWriters] at herased ⊢
  cases s'.exchange.keptWriters.find? name with
  | none => exact ⟨h, rfl⟩
  | some i => exact ⟨h.of_exchange (herased.releaseWriter i), rfl⟩

theorem Alike.dropKept (h : s.Alike names s') (name : String) :
    Agree names (s.dropKept name) (s'.dropKept name) := by
  obtain ⟨hstream, hanswer⟩ := h.dropKeptStream name
  obtain ⟨hwriter, hanswer'⟩ := hstream.dropKeptWriter name
  refine ⟨hwriter, ?_⟩
  unfold Session.dropKept
  dsimp only
  rw [hanswer, hanswer']

/-! ## What no party sees -/

/-- The second session came from the first, and nothing happened to a party. -/
structure Unseen (s t : Session) : Prop where
  traced : t.exchange.traced = s.exchange.traced
  propagator : t.recorder.propagator = s.recorder.propagator
  calls : t.exchange.calls = s.exchange.calls
  keptStreams : t.exchange.keptStreams = s.exchange.keptStreams
  keptWriters : t.exchange.keptWriters = s.exchange.keptWriters
  outletNames : t.exchange.outletNames = s.exchange.outletNames
  notes : t.exchange.notes = s.exchange.notes
  waiting : t.waiting = s.waiting
  responses : t.responses = s.responses

variable {t t' : Session}

theorem Unseen.refl (s : Session) : Unseen s s := ⟨rfl, rfl, rfl, rfl, rfl, rfl, rfl, rfl, rfl⟩

theorem Unseen.fits (h : Unseen s t) (hs : s.exchange.toTracing.Fits names) :
    t.exchange.toTracing.Fits names := by
  intro htraced name hname
  have hfields : t.recorder.propagator.fields = s.recorder.propagator.fields :=
    congrArg Propagator.fields h.propagator
  apply hs (h.traced ▸ htraced)
  show name ∈ s.recorder.propagator.fields
  rw [← hfields]
  exact hname

theorem Alike.unseen (h : s.Alike names s') (ht : Unseen s t) (ht' : Unseen s' t') :
    t.Alike names t' where
  exchange :=
    { left := ht.fits h.exchange.left
      right := ht'.fits h.exchange.right
      calls := by rw [ht.calls, ht'.calls]; exact h.exchange.calls
      keptStreams := by rw [ht.keptStreams, ht'.keptStreams]; exact h.exchange.keptStreams
      keptWriters := by rw [ht.keptWriters, ht'.keptWriters]; exact h.exchange.keptWriters
      outletNames := by rw [ht.outletNames, ht'.outletNames]; exact h.exchange.outletNames
      notes := by rw [ht.notes, ht'.notes]; exact h.exchange.notes }
  waiting := by rw [ht.waiting, ht'.waiting]; exact h.waiting
  responses := by rw [ht.responses, ht'.responses]; exact h.responses

theorem Unseen.withRecorder (h : Unseen s t) (f : Recorder → Recorder)
    (hf : (f t.recorder).propagator = t.recorder.propagator) : Unseen s (t.withRecorder f) :=
  { h with propagator := hf.trans h.propagator }

theorem Unseen.perform (h : Unseen s t) (span : Nat) (effects : List Effect) :
    Unseen s (t.perform span effects) :=
  { h with
    propagator :=
      (Recorder.sameSetup_perform t.recorder span effects).propagator.trans h.propagator }

theorem Unseen.setLogs (h : Unseen s t) (logs : Table OpenLog) :
    Unseen s ({ t with logs } : Session) :=
  { h with }

theorem unseen_onSpan (s : Session) (name : String) (op : SpanOp) :
    Unseen s (s.onSpan name op).1 := by
  unfold Session.onSpan
  cases s.exchange.spanNames.find? name with
  | none => exact .refl s
  | some span =>
    exact (Unseen.refl s).withRecorder (fun r => r.apply span op)
      (Recorder.sameSetup_apply s.recorder span op).propagator

theorem unseen_onLog (s : Session) (name : String) (f : CallLog → CallLog × List Effect) :
    Unseen s (s.onLog name f).1 := by
  unfold Session.onLog
  cases s.logs.find? name with
  | none => exact .refl s
  | some l => exact ((Unseen.refl s).setLogs _).perform _ _

theorem unseen_startSpan (s : Session) (as name : String) (parent : Parent)
    (tags : List (String × TagValue)) : Unseen s (s.startSpan as name parent tags).1 := by
  unfold Session.startSpan
  dsimp only
  split
  · exact .refl s
  · exact { Unseen.refl s with }

theorem unseen_openLog (s : Session) (as name : String) (config : Config)
    (fallback : Option Error) : Unseen s (s.openLog as name config fallback).1 := by
  have hstarted : Unseen s (s.withRecorder fun _ => (s.recorder.start { name }).1) :=
    (Unseen.refl s).withRecorder _ rfl
  unfold Session.openLog
  dsimp only
  split
  · exact .refl s
  · have hopened := hstarted.setLogs
    cases s.logs.find? as with
    | none => exact (hopened _).perform _ _
    | some l => exact ((hopened _).perform _ _).perform _ _

theorem unseen_closeLogs (s : Session) : Unseen s s.closeLogs := by
  have hfold (logs : List (String × OpenLog)) (t : Session) (ht : Unseen s t) :
      Unseen s (logs.foldl (fun t e => t.releaseLog e.2) t) := by
    induction logs generalizing t with
    | nil => exact ht
    | cons e logs ih => exact ih _ (ht.perform _ _)
  exact hfold _ _ ((Unseen.refl s).setLogs {})

/-! ## The end of a session -/

theorem Alike.closeCalls (h : s.Alike names s') : s.closeCalls.Alike names s'.closeCalls := by
  unfold Session.closeCalls
  refine List.rel_foldl (P := Session.Alike names) ?_ ?_ h.waiting.sorted
  · rintro s s' h ⟨_, i, rest⟩ ⟨_, i', rest'⟩ ⟨hi, hrest⟩
    cases hi
    exact h.releaseCall i hrest
  · exact { h with waiting := Table.rel_empty }

theorem Alike.closeResponses (h : s.Alike names s') :
    s.closeResponses.Alike names s'.closeResponses := by
  unfold Session.closeResponses
  refine List.rel_foldl (P := Session.Alike names) ?_ ?_ h.responses.sorted
  · intro s s' h a b _
    exact h.releaseResponse a.2.2 b.2.2
  · exact { h with responses := Table.rel_empty }

theorem Alike.closeLogs (h : s.Alike names s') : s.closeLogs.Alike names s'.closeLogs :=
  h.unseen (unseen_closeLogs s) (unseen_closeLogs s')

theorem Alike.closeStreams (h : s.Alike names s') : s.closeStreams.Alike names s'.closeStreams := by
  apply h.of_exchange
  refine List.rel_foldl (P := Exchange.Alike names) ?_ ?_ h.exchange.keptStreams.sorted
  · intro x y hxy a b _
    exact hxy.dropSource a.2 b.2
  · exact { h.exchange with keptStreams := Table.rel_empty }

theorem Alike.closeWriters (h : s.Alike names s') : s.closeWriters.Alike names s'.closeWriters := by
  have hfold (held : List (String × Nat)) {x y : Exchange} (hxy : x.Alike names y) :
      (held.foldl (fun x e => x.releaseWriter e.2) x).Alike names
        (held.foldl (fun y e => y.releaseWriter e.2) y) := by
    induction held generalizing x y with
    | nil => exact hxy
    | cons e held ih => exact ih (hxy.releaseWriter e.2)
  apply h.of_exchange
  rw [h.exchange.keptWriters]
  exact hfold _ { h.exchange with keptWriters := rfl }

theorem Alike.close (h : s.Alike names s') : s.close.Alike names s'.close :=
  h.closeCalls.closeResponses.closeLogs.closeStreams.closeWriters

end Session

/-! ## Moves -/

/-- Whether a step is taken by a party of calls, and not by somebody who looks after the tracer. -/
def Step.isParty : Step → Bool
  | .call .. | .poll _ | .dropCall _ | .next _ | .drain _ | .streamHint _ | .dropStream _
  | .unwrapStream _ | .receive _ | .closeReceiver _ | .pollKept _ | .writeKept .. | .dropKept _
  | .close => true
  | _ => false

namespace Move

def isParty : Move → Bool
  | step st => st.isParty
  | begin .. => true

/-- The same move; a continuation that is started is the same as far as its parties can tell. -/
inductive Alike (names : List String) : Move → Move → Prop
  | step (st : Step) : Alike names (.step st) (.step st)
  | begin (name : String) {spec spec' : CallSpec} {body body' : Seen → Continuation}
      (hspec : spec.Alike names spec')
      (hbody : ∀ a b : Seen, a.Alike names b → (body a).Alike names (body' b)) :
      Alike names (.begin name spec body) (.begin name spec' body')

end Move

/-- What two entries show of a move: the same notes, and to a party the same answer. -/
structure Entry.Alike (names : List String) (m : Move) (e e' : Entry) : Prop where
  notes : List.Forall₂ (Note.Alike names) e.notes e'.notes
  answer : m.isParty = true → e.answer = e'.answer

namespace Session

variable {names : List String} {s s' : Session}

-- What is done to the tracer does not reach the parties.
theorem unseen_answer (s : Session) (st : Step) (h : st.isParty = false) :
    Unseen s (s.answer st).1 := by
  cases st with
  | setActive parent => exact { Unseen.refl s with }
  | failInject kind => exact { Unseen.refl s with }
  | failExtract kind => exact { Unseen.refl s with }
  | resetFailures => exact { Unseen.refl s with }
  | reset => exact (Unseen.refl s).withRecorder Recorder.reset rfl
  | find name => exact .refl s
  | single => exact .refl s
  | finished => exact .refl s
  | recorderOutline => exact .refl s
  | extract format => exact .refl s
  | terminated on => exact .refl s
  | start as name parent tags => exact s.unseen_startSpan as name parent tags
  | tag on key value => exact s.unseen_onSpan on _
  | log on fields => exact s.unseen_onSpan on _
  | finishSpan on => exact s.unseen_onSpan on _
  | spanOutline on =>
    simp only [Session.answer]
    split <;> exact .refl s
  | inject parent format =>
    simp only [Session.answer]
    split
    · exact .refl s
    · exact { Unseen.refl s with }
  | carrier entries => exact { Unseen.refl s with }
  | openLog as name config fallback => exact s.unseen_openLog as name config fallback
  | request on m => exact s.unseen_onLog on _
  | response on m => exact s.unseen_onLog on _
  | stage on stage => exact s.unseen_onLog on _
  | finish on => exact s.unseen_onLog on _
  | fault on status => exact s.unseen_onLog on _
  | setupFault on e => exact s.unseen_onLog on _
  | logContext on =>
    simp only [Session.answer]
    split <;> exact .refl s
  | logOutline on =>
    simp only [Session.answer]
    split <;> exact .refl s
  | dropLog on =>
    simp only [Session.answer]
    split
    · exact ((Unseen.refl s).setLogs _).perform _ _
    · exact .refl s
  | _ => cases h

theorem Alike.streamHint (h : s.Alike names s') (name : String) :
    Agree names (s.answer (.streamHint name)) (s'.answer (.streamHint name)) := by
  have hheld := h.responses.find? name
  simp only [Session.answer]
  generalize s.responses.find? name = held at hheld ⊢
  generalize s'.responses.find? name = held' at hheld ⊢
  cases hheld with
  | none => exact ⟨h, rfl⟩
  | @some a b hab =>
    refine ⟨h, ?_⟩
    show Answer.size a.2.size = Answer.size b.2.size
    rw [Source.size_eq, Source.size_eq, hab]

-- A party gets the same answer in both sessions.
theorem Alike.answer (h : s.Alike names s') (st : Step) (hst : st.isParty = true) :
    Agree names (s.answer st) (s'.answer st) := by
  cases st with
  | call name spec actions =>
    exact h.begin name ⟨rfl, rfl⟩ fun _ _ hseen => Action.alike_continuation hseen _ _ actions
  | poll on => exact h.resume on
  | dropCall on => exact h.dropCall on
  | next on => exact h.pollResponse on false
  | drain on => exact h.pollResponse on true
  | streamHint on => exact h.streamHint on
  | dropStream on => exact h.dropStream on
  | unwrapStream on => exact h.unwrapStream on
  | receive on => exact h.onOutlet on fun o => (o.receive.1, .received o.receive.2)
  | closeReceiver on => exact h.onOutlet on fun o => (o.close, .done)
  | pollKept on => exact h.pollKept on
  | writeKept on op => exact h.writeKept on op
  | dropKept on => exact h.dropKept on
  | close => exact ⟨h.close, rfl⟩
  | _ => cases hst

theorem Alike.act (h : s.Alike names s') {m m' : Move} (hm : m.Alike names m') :
    (m.act s).1.Alike names (m'.act s').1 ∧
      (m.isParty = true → (m.act s).2 = (m'.act s').2) := by
  cases hm with
  | begin name hspec hbody =>
    obtain ⟨hbegun, hanswer⟩ := h.begin name hspec hbody
    exact ⟨hbegun, fun _ => hanswer⟩
  | step st =>
    by_cases hst : st.isParty = true
    · obtain ⟨hstep, hanswer⟩ := h.answer st hst
      exact ⟨hstep, fun _ => hanswer⟩
    · have hst' : st.isParty = false := Bool.eq_false_iff.2 hst
      exact ⟨h.unseen (s.unseen_answer st hst') (s'.unseen_answer st hst'),
        fun hparty => absurd hparty hst⟩

theorem Alike.play (h : s.Alike names s') {m m' : Move} (hm : m.Alike names m') :
    (s.play m).1.Alike names (s'.play m').1 ∧ (s.play m).2.Alike names m (s'.play m').2 := by
  -- Every move starts with nothing on record.
  have hcleared : ({ s with
      exchange := { s.exchange with notes := [], reports := [] } } : Session).Alike names
      { s' with exchange := { s'.exchange with notes := [], reports := [] } } :=
    h.of_exchange { h.exchange with notes := .nil }
  obtain ⟨hact, hanswer⟩ := hcleared.act hm
  exact ⟨{ hact with }, hact.exchange.notes, hanswer⟩

theorem Alike.playAll (h : s.Alike names s') {moves moves' : List Move}
    (hmoves : List.Forall₂ (Move.Alike names) moves moves') (k : Nat) {m : Move}
    (hm : moves[k]? = some m) :
    ∃ e e', (s.playAll moves).2[k]? = some e ∧ (s'.playAll moves').2[k]? = some e' ∧
      e.Alike names m e' := by
  induction hmoves generalizing s s' k with
  | nil => cases hm
  | cons hfirst _ ih =>
    obtain ⟨hplayed, hentry⟩ := h.play hfirst
    cases k with
    | zero =>
      cases hm
      exact ⟨_, _, rfl, rfl, hentry⟩
    | succ k => exact ih hplayed k hm

/-! ## Transparency -/

end Session

end CallTrace
