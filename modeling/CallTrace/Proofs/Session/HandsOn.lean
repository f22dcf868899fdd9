import CallTrace.Proofs.Session.Alike
import CallTrace.Proofs.Session.BigStep
import CallTrace.Session.Move

/-!
# What is handed on

An exchange stands between the parties of its calls, and whether or not it traces them it hands on
what it is given: the request of a call to its continuation, the answers of streams and sinks to
whoever polls or writes, and what the continuation returns to the caller.
-/

namespace CallTrace

/-! ## What a continuation is handed -/

namespace Exchange

def outlet? (x : Exchange) (i : Nat) : Option (Outlet Message) :=
  x.calls[i]?.bind CallState.outlet

end Exchange

namespace Exchange

end Exchange

/-! ## Sessions -/

/-- What the caller of a call of this shape is told once its continuation waits or has ended. -/
inductive Answer.Tells (shape : Shape) : Option Return → Answer → Prop
  | suspended : Tells shape none .suspended
  | ended {r : Return} {result : CallResult}
      (h : r.fits shape.1 shape.2 = true → result = r.result) :
      Tells shape (some r) (.ended result)

namespace Session

theorem tells_conclude (s : Session) (name : String) {call : Nat} {shape : Shape} {x : Exchange}
    (hi : (x.calls.map CallState.shape)[call]? = some shape) (progress : Progress) :
    (s.conclude name call (x, progress)).2.Tells shape progress.return? := by
  cases progress with
  | waiting rest => exact .suspended
  | ended r =>
    have hresult : r.fits shape.1 shape.2 = true → (x.settle call r).2.1 = r.result :=
      fun hr => Exchange.result_settle_of_fits hi hr
    unfold conclude
    dsimp only
    generalize x.settle call r = settled at hresult ⊢
    rcases settled with ⟨x', result, _ | source⟩ <;> exact .ended hresult

theorem exchange_conclude (s : Session) (name : String) (call : Nat) (x : Exchange)
    (progress : Progress) :
    x.GrowsBy (s.conclude name call (x, progress)).1.exchange [] := by
  cases progress with
  | waiting rest =>
    unfold conclude suspend
    dsimp only
    split
    · exact .refl x
    · exact x.growsBy_abandon _ _
  | ended r =>
    have hsettled := x.growsBy_settle call r
    unfold conclude
    dsimp only
    generalize x.settle call r = settled at hsettled ⊢
    rcases settled with ⟨x', result, _ | source⟩
    · exact hsettled
    · unfold keepResponse
      dsimp only
      split <;> exact hsettled

/-- A call that begins runs its continuation, and its caller is told how far that has come. -/
theorem begin_runs (s : Session) (name : String) (spec : CallSpec)
    (body : Seen → Continuation) :
    ∃ x call seen specs y r, s.exchange.startCall none none spec = (x, call, seen) ∧
      x.Runs call (body seen) specs y r ∧
      s.exchange.GrowsBy (s.begin name spec body).1.exchange (spec :: specs) ∧
      (s.begin name spec body).2.Tells spec.shape r := by
  obtain ⟨hstarted, hshape⟩ := s.exchange.startCall_grows none none spec
  unfold begin
  rcases hstart : s.exchange.startCall none none spec with ⟨x, call, seen⟩
  rw [hstart] at hstarted hshape
  obtain ⟨specs, hruns⟩ := x.runs_run call (body seen)
  have hconcluded := s.exchange_conclude name call (x.run call (body seen)).1
    (x.run call (body seen)).2
  refine ⟨x, call, seen, specs, _, _, rfl, hruns, ?_,
    s.tells_conclude name (hruns.growsBy.shape hshape) _⟩
  have hall := hstarted.trans (hruns.growsBy.trans hconcluded)
  rw [List.append_nil] at hall
  exact hall

theorem resume_resumes {s : Session} {name : String} {call : Nat} {rest : Suspended}
    (h : s.waiting.find? name = some (call, rest)) :
    ∃ specs y r, s.exchange.Resumes call rest specs y r ∧
      s.exchange.GrowsBy (s.resume name).1.exchange specs ∧
      ∀ c, s.exchange.calls[call]? = some c → (s.resume name).2.Tells c.shape r := by
  obtain ⟨specs, hresumes⟩ := s.exchange.resumes_resume call rest
  have hconcluded := ({ s with waiting := s.waiting.erase name } : Session).exchange_conclude name
    call (s.exchange.resume call rest).1 (s.exchange.resume call rest).2
  unfold resume
  rw [h]
  refine ⟨specs, _, _, hresumes, ?_, fun c hc =>
    tells_conclude _ name (hresumes.growsBy.shape (Exchange.shape_of_call hc)) _⟩
  have hall := hresumes.growsBy.trans hconcluded
  rw [List.append_nil] at hall
  exact hall

end Session

end CallTrace
