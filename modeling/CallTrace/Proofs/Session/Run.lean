import CallTrace.Proofs.Session.Exchange
import CallTrace.Session.Continuation

/-!
# Holds in a run

A continuation that runs is a loose hold on its call.  A run keeps the order up to where it stops:
if it waits, the calls that wait with it are loose as well; if it ends, settling the call gives the
hold of the continuation up, and the caller may get a response stream for it.
-/

namespace CallTrace

/-- The holds of a call that waits: its own and those of the calls that it waits for. -/
def Suspended.holds (call : Nat) : Suspended → List Hold
  | .paused _ => [(call, .continuation)]
  | .writing _ _ => [(call, .continuation)]
  | .awaiting nested body _ => (call, .continuation) :: body.holds nested

def Progress.holds (call : Nat) : Progress → List Hold
  | .waiting rest => rest.holds call
  | .ended _ => [(call, .continuation)]

namespace Exchange

variable {b : Baseline} {x : Exchange} {loose : List Hold}

-- The call of a continuation is there, and its shape is known to the tracing.
theorem Orderly.of_continuation {i : Nat} (h : x.Orderly b ((i, .continuation) :: loose)) :
    ∃ s, x.calls[i]? = some s ∧
      ∀ traced, x.tracedCall? i = some traced → traced.shape = s.shape := by
  obtain ⟨traced, htraced, -, -⟩ := h.tracing_cons.of_mem List.mem_cons_self
  have hget : (x.tracedCalls.map (Option.map TracedCall.shape))[i]? = some (some traced.shape) := by
    rw [List.getElem?_map, Option.map_eq_some_iff]
    exact ⟨some traced, Option.join_eq_some_iff.1 htraced, rfl⟩
  rw [h.tracing.shapes, List.getElem?_map, List.getElem?_map] at hget
  cases hs : x.calls[i]? with
  | none => simp [hs] at hget
  | some s =>
    refine ⟨s, rfl, fun traced' htraced' => ?_⟩
    rw [htraced] at htraced'
    cases htraced'
    rw [hs] at hget
    exact (Option.some.inj (Option.some.inj hget)).symm

/-! ## Ends -/

theorem Orderly.abandonOne {i : Nat} (h : x.Orderly b ((i, .continuation) :: loose)) :
    (x.abandonOne i).Orderly b loose := by
  have hd := h.dropHeld i
  exact hd.leave (fun _ hs => idle_dropHeld hs) hd.tracing_cons.abandoned fun _ hj => hj

-- A call that waits goes with all calls that it waits for.
theorem Orderly.abandon {i : Nat} {rest : Suspended}
    (h : x.Orderly b (rest.holds i ++ loose)) : (x.abandon i rest).Orderly b loose := by
  induction rest generalizing x i loose with
  | paused next => exact Orderly.abandonOne h
  | writing ticket next => exact Orderly.abandonOne h
  | awaiting nested body next ih =>
    have hbody : (x.abandon nested body).Orderly b ((i, .continuation) :: loose) :=
      ih (h.of_count fun k => List.perm_middle.count_eq k)
    exact hbody.abandonOne

-- The end of a continuation that hands its caller no stream.
theorem Orderly.settleOne {i : Nat} (h : x.Orderly b ((i, .continuation) :: loose))
    {outcome : Outcome Message} (ho : outcome ≠ .stream) :
    ((x.dropHeld i).tell i (.resolved outcome)).Orderly b loose := by
  have hd := h.dropHeld i
  exact hd.leave (fun _ hs => idle_dropHeld hs) (hd.tracing_cons.resolved ho) fun _ hj => hj

-- The stream that a client's continuation hands to its caller.
theorem Orderly.settleStream {i : Nat} {answers : Source}
    (h : x.Orderly b ((i, .continuation) :: (answers.holds ++ loose)))
    (hkind : ∀ s, x.calls[i]? = some s → s.kind = .client) :
    (x.settleStream i answers).1.Orderly b ((x.settleStream i answers).2.holds ++ loose) := by
  have hd := h.dropHeld i
  have hclient (traced : TracedCall) (ht : (x.dropHeld i).tracedCall? i = some traced) :
      traced.call.kind = .client := by
    obtain ⟨s', hs', hshape'⟩ := hd.of_continuation
    obtain ⟨s, hs, -⟩ := h.of_continuation
    have hsame := congrArg (fun shapes => shapes[i]?) (shapes_dropHeld x i)
    simp only [List.getElem?_map, hs, hs', Option.map_some, Option.some.injEq] at hsame
    have htraced := (hshape' traced ht).trans hsame
    exact (congrArg Prod.fst htraced).trans (hkind s hs)
  have hresolved := hd.tracing_cons.resolved_stream hclient
  have hleft : ((x.dropHeld i).tell i (.resolved .stream)).Orderly b
      ((i, .reader) :: (answers.holds ++ loose)) :=
    hd.leave (fun _ hs => idle_dropHeld hs)
      (hresolved.of_count fun k => List.perm_middle.count_eq k)
      fun _ hj => List.mem_cons_of_mem _ hj
  unfold Exchange.settleStream
  dsimp only
  have hwatch : ((x.dropHeld i).tell i (.resolved .stream)).watch i .responses answers =
      .watched i .responses answers := by
    unfold Tracing.watch
    rw [if_pos hleft.tracing.traced]
  rw [hwatch]
  exact hleft

theorem client_of_returned {i : Nat} {r : Return}
    (hr : (∃ answers metadata, x.returned i r = .stream answers metadata) ∨
      ∃ metadata, x.returned i r = .echo metadata) :
    ∀ s, x.calls[i]? = some s → s.kind = .client := by
  intro s hs
  have hfits : (r.ofType s.kind s.type).fits s.kind s.type = true := r.fits_ofType
  unfold returned at hr
  simp only [hs] at hr
  rcases hr with ⟨answers, metadata, hr⟩ | ⟨metadata, hr⟩ <;>
  · rw [hr] at hfits
    simp only [Return.fits, Bool.and_eq_true, beq_iff_eq] at hfits
    exact hfits.2

theorem Orderly.settle {i : Nat} (h : x.Orderly b ((i, .continuation) :: loose)) (r : Return) :
    (x.settle i r).1.Orderly b (((x.settle i r).2.2.map Source.holds).getD [] ++ loose) := by
  have hclient := client_of_returned (x := x) (i := i) (r := r)
  unfold Exchange.settle
  cases hr : x.returned i r with
  | reply m metadata => exact h.settleOne (by simp)
  | done => exact h.settleOne (by simp)
  | fault s => exact h.settleOne (by simp)
  | stream answers metadata =>
    have hscript : x.Orderly b ((i, .continuation) :: (Source.script answers).holds ++ loose) := h
    exact hscript.settleStream (hclient (.inl ⟨_, _, hr⟩))
  | echo metadata =>
    have hk := hclient (.inr ⟨_, hr⟩)
    have htaken := h.takeRequests i
    have hkind : ∀ s, (x.takeRequests i).1.calls[i]? = some s → s.kind = .client := by
      intro s hs
      unfold Exchange.takeRequests at hs
      rw [calls_update, if_pos rfl] at hs
      obtain ⟨s', hs', rfl⟩ := Option.map_eq_some_iff.1 hs
      exact hk s' hs'
    dsimp only
    generalize x.takeRequests i = taken at htaken hkind ⊢
    obtain ⟨x', source⟩ := taken
    have hsource : (source.map Source.holds).getD [] = (source.getD (.script [])).holds := by
      cases source <;> rfl
    rw [hsource] at htaken
    exact Orderly.settleStream (htaken.of_count fun k => (List.perm_middle.count_eq k).symm) hkind

theorem Orderly.settleNested {i : Nat} (h : x.Orderly b ((i, .continuation) :: loose))
    (r : Return) : (x.settleNested i r).1.Orderly b loose := by
  have hs := h.settle r
  unfold Exchange.settleNested
  generalize x.settle i r = settled at hs ⊢
  rcases settled with ⟨x', result, _ | response⟩
  · exact hs
  · exact Orderly.dropSource hs

/-! ## Runs -/

theorem Orderly.note (h : x.Orderly b loose) (n : Note) : (x.note n).Orderly b loose :=
  ⟨h.tracing, h.idle, h.names⟩

theorem Orderly.run {k : Continuation} {i : Nat}
    (h : x.Orderly b ((i, .continuation) :: loose)) :
    (x.run i k).1.Orderly b ((x.run i k).2.holds i ++ loose) := by
  induction k generalizing x i loose with
  | resolve r => exact h
  | pause next => exact h
  | note n next ih => exact ih (h.note n)
  | noteCounts next ih => exact ih (h.note _)
  | hint next ih => exact ih _ h
  | pull next ih =>
    have hp := h.pull i
    unfold Exchange.run
    generalize x.pull i = pulled at hp ⊢
    rcases pulled with ⟨x', _ | (_ | a | _)⟩
    · exact ih none hp
    · exact hp
    · exact ih (some (.item a)) hp
    · exact ih (some .ended) hp
  | holdsWriter next ih => exact ih _ h
  | write op next ih =>
    have hw := h.writeHeld i op
    unfold Exchange.run
    generalize x.writeHeld i op = written at hw ⊢
    rcases written with ⟨x', _ | (ticket | a)⟩
    · exact ih none hw
    · exact hw
    · exact ih (some a) hw
  | dropRequests next ih => exact ih (h.dropRequests i)
  | dropWriter next ih => exact ih (h.dropWriter i)
  | keepRequests name next ih => exact ih (h.keepRequests i name)
  | keepWriter name next ih => exact ih (h.keepWriter i name)
  | call spec body next ihbody ihnext =>
    have hstart := h.startCall (some i) none spec
    unfold Exchange.run
    generalize x.startCall (some i) none spec = begun at hstart ⊢
    obtain ⟨x', nested, seen⟩ := begun
    have hbody := ihbody seen hstart
    dsimp only at hbody ⊢
    generalize x'.run nested (body seen) = out at hbody ⊢
    rcases out with ⟨x'', rest | r⟩
    · -- The call waits with the calls that its body waits for.
      exact hbody.of_count fun k => (List.perm_middle.count_eq k).symm
    · have hsettled := Orderly.settleNested hbody r
      dsimp only
      generalize x''.settleNested nested r = settled at hsettled ⊢
      obtain ⟨y, result, written⟩ := settled
      exact ihnext result written hsettled

theorem Orderly.resume {rest : Suspended} {i : Nat}
    (h : x.Orderly b (rest.holds i ++ loose)) :
    (x.resume i rest).1.Orderly b ((x.resume i rest).2.holds i ++ loose) := by
  induction rest generalizing x i loose with
  | paused next => exact Orderly.run h
  | writing ticket next =>
    have ha := h.attemptWrite i ticket
    unfold Exchange.resume
    generalize x.attemptWrite i ticket = attempted at ha ⊢
    rcases attempted with ⟨x', ticket' | a⟩
    · exact ha
    · exact Orderly.run ha
  | awaiting nested body next ih =>
    have hbody := ih (h.of_count fun k => List.perm_middle.count_eq k)
    unfold Exchange.resume
    generalize x.resume nested body = out at hbody ⊢
    rcases out with ⟨x', rest | r⟩
    · exact hbody.of_count fun k => (List.perm_middle.count_eq k).symm
    · have hsettled := Orderly.settleNested hbody r
      dsimp only
      generalize x'.settleNested nested r = settled at hsettled ⊢
      obtain ⟨y, result, written⟩ := settled
      exact hsettled.run

end Exchange

end CallTrace
