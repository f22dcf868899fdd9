import CallTrace.Proofs.Session.Alike
import CallTrace.Session.Action

/-!
# Continuations that look alike

Two continuations look alike if they take the same steps whatever the answers are, and go on alike
in the calls that they make.  A continuation that looks at neither its span nor the headers of spans
looks like itself.  Run in exchanges that look alike, such continuations end or wait alike.
-/

namespace CallTrace

/-- The same continuation, as far as its parties can tell. -/
inductive Continuation.Alike (names : List String) : Continuation → Continuation → Prop
  | resolve (r : Return) : Alike names (.resolve r) (.resolve r)
  | pause {c d : Continuation} (h : Alike names c d) : Alike names (.pause c) (.pause d)
  | note {n m : Note} {c d : Continuation} (hn : n.Alike names m) (h : Alike names c d) :
      Alike names (.note n c) (.note m d)
  | noteCounts {c d : Continuation} (h : Alike names c d) :
      Alike names (.noteCounts c) (.noteCounts d)
  | hint {c d : Option Nat → Continuation} (h : ∀ size, Alike names (c size) (d size)) :
      Alike names (.hint c) (.hint d)
  | pull {c d : Option (Polled (Delivery Message)) → Continuation}
      (h : ∀ answer, Alike names (c answer) (d answer)) : Alike names (.pull c) (.pull d)
  | holdsWriter {c d : Bool → Continuation} (h : ∀ held, Alike names (c held) (d held)) :
      Alike names (.holdsWriter c) (.holdsWriter d)
  | write (op : SinkOp Message) {c d : Option (Except Status Unit) → Continuation}
      (h : ∀ answer, Alike names (c answer) (d answer)) : Alike names (.write op c) (.write op d)
  | dropRequests {c d : Continuation} (h : Alike names c d) :
      Alike names (.dropRequests c) (.dropRequests d)
  | dropWriter {c d : Continuation} (h : Alike names c d) :
      Alike names (.dropWriter c) (.dropWriter d)
  | keepRequests (name : String) {c d : Continuation} (h : Alike names c d) :
      Alike names (.keepRequests name c) (.keepRequests name d)
  | keepWriter (name : String) {c d : Continuation} (h : Alike names c d) :
      Alike names (.keepWriter name c) (.keepWriter name d)
  | call {spec spec' : CallSpec} {body body' : Seen → Continuation}
      {c d : CallResult → List Message → Continuation} (hspec : spec.Alike names spec')
      (hbody : ∀ a b : Seen, a.Alike names b → Alike names (body a) (body' b))
      (h : ∀ result written, Alike names (c result written) (d result written)) :
      Alike names (.call spec body c) (.call spec' body' d)

/-- The same wait, as far as the parties can tell. -/
inductive Suspended.Alike (names : List String) : Suspended → Suspended → Prop
  | paused {c d : Continuation} (h : c.Alike names d) : Alike names (.paused c) (.paused d)
  | writing (ticket : OutletTicket Message) {c d : Option (Except Status Unit) → Continuation}
      (h : ∀ answer, (c answer).Alike names (d answer)) :
      Alike names (.writing ticket c) (.writing ticket d)
  | awaiting (call : Nat) {body body' : Suspended}
      {c d : CallResult → List Message → Continuation} (hbody : Alike names body body')
      (h : ∀ result written, (c result written).Alike names (d result written)) :
      Alike names (.awaiting call body c) (.awaiting call body' d)

inductive Progress.Alike (names : List String) : Progress → Progress → Prop
  | waiting {rest rest' : Suspended} (h : rest.Alike names rest') :
      Alike names (.waiting rest) (.waiting rest')
  | ended (r : Return) : Alike names (.ended r) (.ended r)

namespace Exchange

variable {names : List String} {x y : Exchange}

/-! ## The end of a call -/

theorem Alike.returned (h : x.Alike names y) (i : Nat) (r : Return) :
    x.returned i r = y.returned i r := by
  have hcall := h.call? i
  unfold Exchange.returned
  generalize x.calls[i]? = c at hcall ⊢
  generalize y.calls[i]? = d at hcall ⊢
  cases hcall with
  | none => rfl
  | some hcd =>
    show r.ofType _ _ = r.ofType _ _
    rw [hcd.kind, hcd.type]

theorem Alike.settleStream (h : x.Alike names y) (i : Nat) {a b : Source} (hab : a.Alike b) :
    (x.settleStream i a).1.Alike names (y.settleStream i b).1 ∧
      (x.settleStream i a).2.Alike (y.settleStream i b).2 := by
  refine ⟨(h.dropHeld i).tell i _, ?_⟩
  unfold Exchange.settleStream Source.Alike
  dsimp only
  rw [Tracing.answers_watch, Tracing.answers_watch]
  exact hab

theorem Alike.settle (h : x.Alike names y) (i : Nat) (r : Return) :
    (x.settle i r).1.Alike names (y.settle i r).1 ∧
      (x.settle i r).2.1 = (y.settle i r).2.1 ∧
      Option.Rel Source.Alike (x.settle i r).2.2 (y.settle i r).2.2 := by
  have hleft := h.dropHeld i
  unfold Exchange.settle
  rw [h.returned i r]
  cases y.returned i r with
  | reply m metadata => exact ⟨hleft.tell i _, rfl, .none⟩
  | done => exact ⟨hleft.tell i _, rfl, .none⟩
  | fault s => exact ⟨hleft.tell i _, rfl, .none⟩
  | stream answers metadata =>
    have hscript : (Source.script answers).Alike (.script answers) := rfl
    obtain ⟨hsettled, hresponse⟩ := h.settleStream i hscript
    exact ⟨hsettled, rfl, .some hresponse⟩
  | echo metadata =>
    obtain ⟨htaken, hsource⟩ := h.takeRequests i
    have hechoed : ((x.takeRequests i).2.getD (.script [])).Alike
        ((y.takeRequests i).2.getD (.script [])) := by
      generalize (x.takeRequests i).2 = a at hsource ⊢
      generalize (y.takeRequests i).2 = b at hsource ⊢
      cases hsource with
      | none => rfl
      | some hab => exact hab
    obtain ⟨hsettled, hresponse⟩ := htaken.settleStream i hechoed
    exact ⟨hsettled, rfl, .some hresponse⟩

theorem Alike.written (h : x.Alike names y) (i : Nat) : x.written i = y.written i := by
  unfold Exchange.written
  rw [h.outlet? i]

theorem Alike.settleNested (h : x.Alike names y) (i : Nat) (r : Return) :
    (x.settleNested i r).1.Alike names (y.settleNested i r).1 ∧
      (x.settleNested i r).2 = (y.settleNested i r).2 := by
  obtain ⟨hsettled, hresult, hresponse⟩ := h.settle i r
  unfold Exchange.settleNested
  generalize x.settle i r = settled at hsettled hresult hresponse ⊢
  generalize y.settle i r = settled' at hsettled hresult hresponse ⊢
  obtain ⟨x', result, response⟩ := settled
  obtain ⟨y', result', response'⟩ := settled'
  cases hresult
  cases hresponse with
  | none => exact ⟨hsettled, congrArg (result, ·) (hsettled.written i)⟩
  | some hab => exact ⟨hsettled.dropSource _ _, congrArg (result, ·) (hsettled.written i)⟩

theorem Alike.abandonOne (h : x.Alike names y) (i : Nat) :
    (x.abandonOne i).Alike names (y.abandonOne i) := (h.dropHeld i).tell i .abandoned

theorem Alike.abandon (h : x.Alike names y) (i : Nat) {rest rest' : Suspended}
    (hrest : rest.Alike names rest') : (x.abandon i rest).Alike names (y.abandon i rest') := by
  induction hrest generalizing i with
  | paused _ => exact h.abandonOne i
  | writing ticket _ => exact h.abandonOne i
  | awaiting call _ _ ih => exact (ih call).abandonOne i

/-! ## Runs -/

theorem Alike.hint (h : x.Alike names y) (i : Nat) :
    (x.requests? i).map Source.size = (y.requests? i).map Source.size := by
  have hrequests := h.requests? i
  generalize x.requests? i = a at hrequests ⊢
  generalize y.requests? i = b at hrequests ⊢
  cases hrequests with
  | none => rfl
  | some hab =>
    show some _ = some _
    rw [Source.size_eq, Source.size_eq, hab]

-- A nested call that has ended gives its caller the same result on both sides.
theorem Alike.settleNested_run (h : x.Alike names y) (i j : Nat) (r : Return)
    {c d : CallResult → List Message → Continuation}
    (hrun : ∀ result written {x y : Exchange}, x.Alike names y →
      (x.run i (c result written)).1.Alike names (y.run i (d result written)).1 ∧
        (x.run i (c result written)).2.Alike names (y.run i (d result written)).2) :
    ((x.settleNested j r).1.run i (c (x.settleNested j r).2.1 (x.settleNested j r).2.2)).1.Alike
        names
        ((y.settleNested j r).1.run i
          (d (y.settleNested j r).2.1 (y.settleNested j r).2.2)).1 ∧
      ((x.settleNested j r).1.run i
          (c (x.settleNested j r).2.1 (x.settleNested j r).2.2)).2.Alike names
        ((y.settleNested j r).1.run i
          (d (y.settleNested j r).2.1 (y.settleNested j r).2.2)).2 := by
  obtain ⟨hsettled, hresult⟩ := h.settleNested j r
  rw [hresult]
  exact hrun _ _ hsettled

theorem Alike.run (h : x.Alike names y) (i : Nat) {c d : Continuation} (hc : c.Alike names d) :
    (x.run i c).1.Alike names (y.run i d).1 ∧ (x.run i c).2.Alike names (y.run i d).2 := by
  induction hc generalizing x y i with
  | resolve r => exact ⟨h, .ended r⟩
  | pause hnext _ => exact ⟨h, .waiting (.paused hnext)⟩
  | note hn _ ih => exact ih (h.note hn) i
  | noteCounts _ ih => exact ih (h.note (.counts _ _)) i
  | hint _ ih =>
    unfold Exchange.run
    rw [h.hint i]
    exact ih _ h i
  | pull hnext ih =>
    obtain ⟨hpulled, hanswer⟩ := h.pull i
    unfold Exchange.run
    generalize x.pull i = pulled at hpulled hanswer ⊢
    generalize y.pull i = pulled' at hpulled hanswer ⊢
    obtain ⟨x', answer⟩ := pulled
    obtain ⟨y', answer'⟩ := pulled'
    cases hanswer
    rcases answer with _ | _ | _ | _
    · exact ih _ hpulled i
    · exact ⟨hpulled, .waiting (.paused (.pull hnext))⟩
    · exact ih _ hpulled i
    · exact ih _ hpulled i
  | holdsWriter _ ih =>
    unfold Exchange.run
    rw [h.holdsWriter i]
    exact ih _ h i
  | write op hnext ih =>
    obtain ⟨hwritten, hanswer⟩ := h.writeHeld i op
    unfold Exchange.run
    generalize x.writeHeld i op = written at hwritten hanswer ⊢
    generalize y.writeHeld i op = written' at hwritten hanswer ⊢
    obtain ⟨x', answer⟩ := written
    obtain ⟨y', answer'⟩ := written'
    cases hanswer
    rcases answer with _ | ticket | answer
    · exact ih _ hwritten i
    · exact ⟨hwritten, .waiting (.writing ticket hnext)⟩
    · exact ih _ hwritten i
  | dropRequests _ ih => exact ih (h.dropRequests i) i
  | dropWriter _ ih => exact ih (h.dropWriter i) i
  | keepRequests name _ ih => exact ih (h.keepRequests i name) i
  | keepWriter name _ ih => exact ih (h.keepWriter i name) i
  | @call spec spec' body body' c d hspec _ hnext ihbody ih =>
    obtain ⟨hstarted, hcall, hseen⟩ := h.startCall (some i) none none hspec
    unfold Exchange.run
    generalize x.startCall (some i) none spec = started at hstarted hcall hseen ⊢
    generalize y.startCall (some i) none spec' = started' at hstarted hcall hseen ⊢
    obtain ⟨x', nested, seen⟩ := started
    obtain ⟨y', nested', seen'⟩ := started'
    cases hcall
    obtain ⟨hran, hprogress⟩ := ihbody seen seen' hseen hstarted nested
    dsimp only at hran hprogress ⊢
    generalize x'.run nested (body seen) = ran at hran hprogress ⊢
    generalize y'.run nested (body' seen') = ran' at hran hprogress ⊢
    obtain ⟨x'', progress⟩ := ran
    obtain ⟨y'', progress'⟩ := ran'
    cases hprogress with
    | waiting hrest => exact ⟨hran, .waiting (.awaiting nested hrest hnext)⟩
    | ended r =>
      exact hran.settleNested_run i nested r fun result written _ _ hxy => ih result written hxy i

theorem Alike.resume (h : x.Alike names y) (i : Nat) {rest rest' : Suspended}
    (hrest : rest.Alike names rest') :
    (x.resume i rest).1.Alike names (y.resume i rest').1 ∧
      (x.resume i rest).2.Alike names (y.resume i rest').2 := by
  induction hrest generalizing i with
  | paused hc => exact h.run i hc
  | writing ticket hnext =>
    obtain ⟨hattempted, hresult⟩ := h.attemptWrite i ticket
    unfold Exchange.resume
    generalize x.attemptWrite i ticket = attempted at hattempted hresult ⊢
    generalize y.attemptWrite i ticket = attempted' at hattempted hresult ⊢
    obtain ⟨x', result⟩ := attempted
    obtain ⟨y', result'⟩ := attempted'
    cases hresult
    cases result with
    | waiting ticket => exact ⟨hattempted, .waiting (.writing ticket hnext)⟩
    | answered answer => exact hattempted.run i (hnext (some answer))
  | @awaiting nested body body' c d _ hnext ih =>
    obtain ⟨hran, hprogress⟩ := ih nested
    unfold Exchange.resume
    generalize x.resume nested body = ran at hran hprogress ⊢
    generalize y.resume nested body' = ran' at hran hprogress ⊢
    obtain ⟨x', progress⟩ := ran
    obtain ⟨y', progress'⟩ := ran'
    cases hprogress with
    | waiting hrest => exact ⟨hran, .waiting (.awaiting nested hrest hnext)⟩
    | ended r =>
      exact hran.settleNested_run i nested r fun result written _ _ hxy =>
        hxy.run i (hnext result written)

end Exchange

/-! ## Actions -/

namespace Action

variable {names : List String}

/-- The same scene, but for headers of spans and for the span itself. -/
structure Scene.Alike (names : List String) (a b : Scene) : Prop where
  kind : a.kind = b.kind
  type : a.type = b.type
  seen : a.seen.Alike names b.seen

variable {scene scene' : Scene} {next next' : Continuation}

theorem Scene.Alike.returning (h : scene.Alike names scene') (spec : ReturnSpec) :
    scene.returning spec = scene'.returning spec := by
  unfold Scene.returning
  rw [h.kind, h.type]

theorem Scene.Alike.returningRequest (h : scene.Alike names scene') :
    scene.returningRequest = scene'.returningRequest := by
  unfold Scene.returningRequest
  rw [h.kind, h.type, h.seen.message, h.returning]

theorem Scene.Alike.returningServed (h : scene.Alike names scene') (result : CallResult)
    (written : List Message) :
    scene.returningServed result written = scene'.returningServed result written := by
  unfold Scene.returningServed
  rw [h.type]

theorem Scene.alike_of_seen {a b : Seen} (h : a.Alike names b) (kind : SpanKind)
    (type : MethodType) : Scene.Alike names ⟨kind, type, a⟩ ⟨kind, type, b⟩ := ⟨rfl, rfl, h⟩

theorem Scene.alike_callSpec (scene scene' : Scene) (spec : CallSpec) :
    (scene.callSpec spec).Alike names (scene'.callSpec spec) := by
  unfold Scene.callSpec
  split <;> exact ⟨rfl, rfl⟩

theorem Scene.Alike.serverSpec (h : scene.Alike names scene') (method : String)
    (peer : Option Peer) :
    (scene.serverSpec method peer).Alike names (scene'.serverSpec method peer) := by
  unfold Scene.serverSpec
  rw [h.type]
  exact ⟨rfl, rfl⟩

theorem alike_orStop (policy : FaultPolicy) (fault : Option Status)
    (h : next.Alike names next') :
    (orStop policy fault next).Alike names (orStop policy fault next') := by
  unfold orStop
  split
  · exact .resolve _
  · exact h

theorem alike_pullUpTo (policy : FaultPolicy) (h : next.Alike names next') (n : Nat) :
    (pullUpTo policy next n).Alike names (pullUpTo policy next' n) := by
  induction n with
  | zero => exact h
  | succ n ih =>
    refine .pull fun answer => .note (.same _) ?_
    split
    · exact alike_orStop policy _ ih
    · exact h

theorem alike_echoUpTo (h : next.Alike names next') (n : Nat) :
    (echoUpTo next n).Alike names (echoUpTo next' n) := by
  induction n with
  | zero => exact h
  | succ n ih =>
    refine .pull fun answer => .note (.same _) ?_
    split
    · refine .write _ fun answer => ?_
      split
      · exact ih
      · exact .resolve _
      · exact h
    · exact .resolve _
    · exact h

theorem alike_echoAll (h : next.Alike names next') :
    (echoAll next).Alike names (echoAll next') := by
  refine .hint fun size => ?_
  cases size with
  | none => exact .note (.same _) h
  | some size =>
    refine .holdsWriter fun held => ?_
    cases held with
    | false => exact .note (.same _) h
    | true => exact alike_echoUpTo h (size + 1)

theorem alike_writeOne (name : String) (op : SinkOp Message) (policy : FaultPolicy)
    (h : next.Alike names next') :
    (writeOne name op policy next).Alike names (writeOne name op policy next') :=
  .write op fun _ => .note (.same _) (alike_orStop policy _ h)

mutual

-- An action takes no notice of the span, but for the parents of the calls it makes.
theorem alike_plan {names : List String} {scene scene' : Scene} {next next' : Continuation}
    (h : scene.Alike names scene') (hnext : next.Alike names next') :
    (action : Action) → (plan scene next action).Alike names (plan scene' next' action)
  | pause => .pause hnext
  | counts => .noteCounts hnext
  | hint => .hint fun _ => .note (.same _) hnext
  | pull policy => .pull fun _ => .note (.same _) (alike_orStop policy _ hnext)
  | pullAll policy => .hint fun _ => alike_pullUpTo policy hnext _
  | echo => alike_echoAll hnext
  | write m policy => alike_writeOne _ _ policy hnext
  | complete policy => alike_writeOne _ _ policy hnext
  | dropStream => .dropRequests hnext
  | dropWriter => .dropWriter hnext
  | keepStream name => .keepRequests name hnext
  | keepWriter name => .keepWriter name hnext
  | call spec body =>
    .call (Scene.alike_callSpec scene scene' spec)
      (fun _ _ hseen =>
        .note (.seen hseen) (alike_planAll (Scene.alike_of_seen hseen spec.kind spec.type) body))
      (fun _ _ => .note (.same _) hnext)
  | serve method peer body => by
    unfold plan
    rw [h.type]
    refine .note (.same _) (.call (h.serverSpec method peer) (fun _ _ hseen => ?_) ?_)
    · exact .note (.seen hseen) (alike_planAll (Scene.alike_of_seen hseen .server _) body)
    · intro result written
      rw [h.returningServed]
      exact .note (.same _) (.resolve _)
  | .return spec => by
    unfold plan
    rw [h.returning]
    exact .resolve _
  | returnEcho => by
    unfold plan
    rw [h.returningRequest]
    exact .resolve _

theorem alike_planAll {names : List String} {scene scene' : Scene}
    (h : scene.Alike names scene') :
    (actions : List Action) → (planAll scene actions).Alike names (planAll scene' actions)
  | [] => by
    unfold planAll
    rw [h.returning]
    exact .resolve _
  | action :: rest => alike_plan h (alike_planAll h rest) action

end

theorem alike_continuation {a b : Seen} (h : a.Alike names b) (kind : SpanKind)
    (type : MethodType) (actions : List Action) :
    (continuation kind type actions a).Alike names (continuation kind type actions b) :=
  .note (.seen h) (alike_planAll (Scene.alike_of_seen h kind type) actions)

end Action

end CallTrace
