import CallTrace.Proofs.Session.Redaction
import CallTrace.Session.Action

/-!
# Redacted continuations

A continuation is redacted to what it does on redacted answers, if that does not depend on what
the answers hold: it takes the same steps whatever the messages are, but may pass them on.  It runs
in an exchange as its redaction does in the redacted exchange.
-/

namespace CallTrace

/-- Takes the same steps on any answers as the other does on the redacted ones. -/
inductive Continuation.RedactsTo : Continuation → Continuation → Prop
  | resolve (r : Return) : RedactsTo (.resolve r) (.resolve r.redacted)
  | pause {c d : Continuation} (h : RedactsTo c d) : RedactsTo (.pause c) (.pause d)
  | note (n : Note) {c d : Continuation} (h : RedactsTo c d) :
      RedactsTo (.note n c) (.note n.redacted d)
  | noteCounts {c d : Continuation} (h : RedactsTo c d) : RedactsTo (.noteCounts c) (.noteCounts d)
  | hint {c d : Option Nat → Continuation} (h : ∀ size, RedactsTo (c size) (d size)) :
      RedactsTo (.hint c) (.hint d)
  | pull {c d : Option (Polled (Delivery Message)) → Continuation}
      (h : ∀ answer, RedactsTo (c answer) (d (answer.map Polled.redacted))) :
      RedactsTo (.pull c) (.pull d)
  | holdsWriter {c d : Bool → Continuation} (h : ∀ held, RedactsTo (c held) (d held)) :
      RedactsTo (.holdsWriter c) (.holdsWriter d)
  | write (op : SinkOp Message) {c d : Option (Except Status Unit) → Continuation}
      (h : ∀ answer, RedactsTo (c answer) (d answer)) :
      RedactsTo (.write op c) (.write (op.map Message.redacted) d)
  | dropRequests {c d : Continuation} (h : RedactsTo c d) :
      RedactsTo (.dropRequests c) (.dropRequests d)
  | dropWriter {c d : Continuation} (h : RedactsTo c d) : RedactsTo (.dropWriter c) (.dropWriter d)
  | keepRequests (name : String) {c d : Continuation} (h : RedactsTo c d) :
      RedactsTo (.keepRequests name c) (.keepRequests name d)
  | keepWriter (name : String) {c d : Continuation} (h : RedactsTo c d) :
      RedactsTo (.keepWriter name c) (.keepWriter name d)
  | call (spec : CallSpec) {body body' : Seen → Continuation}
      {c d : CallResult → List Message → Continuation}
      (hbody : ∀ seen, RedactsTo (body seen) (body' seen.redacted))
      (h : ∀ result written,
        RedactsTo (c result written) (d result.redacted (written.map Message.redacted))) :
      RedactsTo (.call spec body c) (.call spec.redacted body' d)

inductive Suspended.RedactsTo : Suspended → Suspended → Prop
  | paused {c d : Continuation} (h : c.RedactsTo d) : RedactsTo (.paused c) (.paused d)
  | writing (ticket : OutletTicket Message) {c d : Option (Except Status Unit) → Continuation}
      (h : ∀ answer, (c answer).RedactsTo (d answer)) :
      RedactsTo (.writing ticket c) (.writing (ticket.map Message.redacted) d)
  | awaiting (call : Nat) {body body' : Suspended}
      {c d : CallResult → List Message → Continuation} (hbody : RedactsTo body body')
      (h : ∀ result written,
        (c result written).RedactsTo (d result.redacted (written.map Message.redacted))) :
      RedactsTo (.awaiting call body c) (.awaiting call body' d)

inductive Progress.RedactsTo : Progress → Progress → Prop
  | waiting {rest rest' : Suspended} (h : rest.RedactsTo rest') :
      RedactsTo (.waiting rest) (.waiting rest')
  | ended (r : Return) : RedactsTo (.ended r) (.ended r.redacted)

namespace Exchange

/-- What a run gives is redacted to what the other run gives. -/
structure RunRedactsTo (run run' : Exchange × Progress) : Prop where
  exchange : run.1.RedactsTo run'.1
  progress : run.2.RedactsTo run'.2

namespace RedactsTo

variable {x y : Exchange}

theorem abandon (h : x.RedactsTo y) (i : Nat) {rest rest' : Suspended}
    (hrest : rest.RedactsTo rest') : (x.abandon i rest).RedactsTo (y.abandon i rest') := by
  induction hrest generalizing i with
  | paused _ => exact h.abandonOne i
  | writing ticket _ => exact h.abandonOne i
  | awaiting call _ _ ih => exact (ih call).abandonOne i

theorem hint (h : x.RedactsTo y) (i : Nat) :
    (y.requests? i).map Source.size = (x.requests? i).map Source.size := by
  rw [h.requests?, Option.map_map]
  congr 1
  exact funext Source.size_redacted

-- A nested call that has ended gives its caller the same result, but for what its messages hold.
theorem settleNested_run (h : x.RedactsTo y) (i j : Nat) (r : Return)
    {c d : CallResult → List Message → Continuation}
    (hrun : ∀ result written {x y : Exchange}, x.RedactsTo y →
      RunRedactsTo (x.run i (c result written))
        (y.run i (d result.redacted (written.map Message.redacted)))) :
    RunRedactsTo
      ((x.settleNested j r).1.run i (c (x.settleNested j r).2.1 (x.settleNested j r).2.2))
      ((y.settleNested j r.redacted).1.run i
        (d (y.settleNested j r.redacted).2.1 (y.settleNested j r.redacted).2.2)) := by
  obtain ⟨x', y', ⟨result, written⟩, hx, hy, hxy⟩ := (h.settleNested j r).split
  rw [hx, hy]
  exact hrun result written hxy

/-- A continuation runs as its redaction does in the redacted exchange. -/
theorem run (h : x.RedactsTo y) (i : Nat) {c d : Continuation} (hc : c.RedactsTo d) :
    RunRedactsTo (x.run i c) (y.run i d) := by
  induction hc generalizing x y i with
  | resolve r => exact ⟨h, .ended r⟩
  | pause hnext _ => exact ⟨h, .waiting (.paused hnext)⟩
  | note n _ ih => exact ih (h.note n) i
  | noteCounts _ ih =>
    have hcounts : y.recorder.counts = x.recorder.counts :=
      congrArg (fun t : Tracing => t.recorder.counts) h.tracing
    unfold Exchange.run
    rw [hcounts]
    exact ih (h.note (.counts _)) i
  | hint _ ih =>
    unfold Exchange.run
    rw [h.hint i]
    exact ih _ h i
  | pull hnext ih =>
    obtain ⟨x', y', answer, hx, hy, hxy⟩ := (h.pull i).split
    unfold Exchange.run
    rw [hx, hy]
    rcases answer with _ | _ | _ | _
    · exact ih none hxy i
    · exact ⟨hxy, .waiting (.paused (.pull hnext))⟩
    · exact ih (some (.item _)) hxy i
    · exact ih (some .ended) hxy i
  | holdsWriter _ ih =>
    unfold Exchange.run
    rw [h.holdsWriter i]
    exact ih _ h i
  | write op hnext ih =>
    obtain ⟨x', y', answer, hx, hy, hxy⟩ := (h.writeHeld i op).split
    unfold Exchange.run
    rw [hx, hy]
    rcases answer with _ | ticket | answer
    · exact ih none hxy i
    · exact ⟨hxy, .waiting (.writing ticket hnext)⟩
    · exact ih (some answer) hxy i
  | dropRequests _ ih => exact ih (h.dropRequests i) i
  | dropWriter _ ih => exact ih (h.dropWriter i) i
  | keepRequests name _ ih => exact ih (h.keepRequests i name) i
  | keepWriter name _ ih => exact ih (h.keepWriter i name) i
  | @call spec body body' c d _ hnext ihbody ih =>
    obtain ⟨x', y', ⟨nested, seen⟩, hx, hy, hxy⟩ := (h.startCall (some i) none spec).split
    obtain ⟨hran, hprogress⟩ := ihbody seen hxy nested
    unfold Exchange.run
    rw [hx, hy]
    dsimp only [Prod.map_apply, id_eq]
    generalize x'.run nested (body seen) = ran at hran hprogress ⊢
    generalize y'.run nested (body' seen.redacted) = ran' at hran hprogress ⊢
    obtain ⟨x'', progress⟩ := ran
    obtain ⟨y'', progress'⟩ := ran'
    cases hprogress with
    | waiting hrest => exact ⟨hran, .waiting (.awaiting nested hrest hnext)⟩
    | ended r =>
      exact hran.settleNested_run i nested r fun result written _ _ hxy => ih result written hxy i

theorem resume (h : x.RedactsTo y) (i : Nat) {rest rest' : Suspended}
    (hrest : rest.RedactsTo rest') : RunRedactsTo (x.resume i rest) (y.resume i rest') := by
  induction hrest generalizing i with
  | paused hc => exact h.run i hc
  | writing ticket hnext =>
    obtain ⟨x', y', result, hx, hy, hxy⟩ := (h.attemptWrite i ticket).split
    unfold Exchange.resume
    rw [hx, hy]
    cases result with
    | waiting ticket => exact ⟨hxy, .waiting (.writing ticket hnext)⟩
    | answered answer => exact hxy.run i (hnext (some answer))
  | @awaiting nested body body' c d _ hnext ih =>
    obtain ⟨hran, hprogress⟩ := ih nested
    unfold Exchange.resume
    generalize x.resume nested body = ran at hran hprogress ⊢
    generalize y.resume nested body' = ran' at hran hprogress ⊢
    obtain ⟨x', progress⟩ := ran
    obtain ⟨y', progress'⟩ := ran'
    cases hprogress with
    | waiting hrest => exact ⟨hran, .waiting (.awaiting nested hrest hnext)⟩
    | ended r =>
      exact hran.settleNested_run i nested r fun result written _ _ hxy =>
        hxy.run i (hnext result written)

end RedactsTo

end Exchange

/-! ## Actions -/

def ReturnSpec.redacted (spec : ReturnSpec) : ReturnSpec :=
  { spec with
    message := spec.message.map Message.redacted
    answers := spec.answers.map Script.redacted }

namespace Action

mutual

def redacted : Action → Action
  | write m policy => .write m.redacted policy
  | call spec body => .call spec.redacted (redactedAll body)
  | serve method peer body => .serve method peer (redactedAll body)
  | .return spec => .return spec.redacted
  | pause => .pause
  | counts => .counts
  | hint => .hint
  | pull policy => .pull policy
  | pullAll policy => .pullAll policy
  | echo => .echo
  | complete policy => .complete policy
  | dropStream => .dropStream
  | dropWriter => .dropWriter
  | keepStream name => .keepStream name
  | keepWriter name => .keepWriter name
  | returnEcho => .returnEcho

def redactedAll : List Action → List Action
  | [] => []
  | action :: rest => action.redacted :: redactedAll rest

end

namespace Scene

variable (scene : Scene)

def redacted : Scene := { scene with seen := scene.seen.redacted }

theorem returning_redacted (spec : ReturnSpec) :
    scene.redacted.returning spec.redacted = (scene.returning spec).redacted := by
  obtain ⟨kind, type, seen⟩ := scene
  obtain ⟨fault, message, answers, metadata⟩ := spec
  cases fault with
  | some s => rfl
  | none => cases kind <;> cases type <;> cases message <;> cases answers <;> rfl

theorem returningRequest_redacted :
    scene.redacted.returningRequest = scene.returningRequest.redacted := by
  obtain ⟨kind, type, metadata, context, message⟩ := scene
  cases kind <;> cases type <;> cases message <;> rfl

theorem returningServed_redacted (result : CallResult) (written : List Message) :
    scene.redacted.returningServed result.redacted (written.map Message.redacted) =
      (scene.returningServed result written).redacted := by
  have hmessages : ((written.map Message.redacted).map fun m => .item (.ok m)) =
      Script.redacted (written.map fun m => .item (.ok m)) := by
    rw [Script.redacted, List.map_map, List.map_map]
    rfl
  have hfailed (s : Status) :
      Script.redacted (written.map fun m => .item (.ok m)) ++ [.item (.error s)] =
        Script.redacted ((written.map fun m => .item (.ok m)) ++ [.item (.error s)]) := by
    unfold Script.redacted
    rw [List.map_append]
    rfl
  unfold returningServed
  dsimp only
  rw [hmessages]
  cases result with
  | fault s =>
    dsimp only [CallResult.redacted]
    rw [hfailed, show scene.redacted.type = scene.type from rfl]
    split <;> rfl
  | _ => rfl

theorem callSpec_redacted (spec : CallSpec) :
    scene.redacted.callSpec spec.redacted = (scene.callSpec spec).redacted := by
  unfold callSpec
  rw [show spec.redacted.parent = spec.parent from rfl]
  split <;> rfl

theorem serverSpec_redacted (method : String) (peer : Option Peer) :
    scene.redacted.serverSpec method peer = (scene.serverSpec method peer).redacted := by
  unfold serverSpec
  rw [show scene.redacted.type = scene.type from rfl]
  cases scene.type.streamsResponses <;> rfl

end Scene

variable {scene : Scene} {c d : Continuation}

theorem redacts_orStop (policy : FaultPolicy) (fault : Option Status) (h : c.RedactsTo d) :
    (orStop policy fault c).RedactsTo (orStop policy fault d) := by
  unfold orStop
  split
  · exact .resolve (.fault _)
  · exact h

theorem pulledFault?_redacted (answer : Option (Polled (Delivery Message))) :
    pulledFault? (answer.map Polled.redacted) = pulledFault? answer := by
  rcases answer with _ | _ | (s | m) | _ <;> rfl

theorem redacts_pullOne (policy : FaultPolicy) (h : c.RedactsTo d) :
    (pullOne policy c).RedactsTo (pullOne policy d) := by
  refine .pull fun answer => .note (.pulled answer) ?_
  rw [pulledFault?_redacted]
  exact redacts_orStop policy _ h

theorem redacts_pullUpTo (policy : FaultPolicy) (h : c.RedactsTo d) (n : Nat) :
    (pullUpTo policy c n).RedactsTo (pullUpTo policy d n) := by
  induction n with
  | zero => exact h
  | succ n ih =>
    refine .pull fun answer => .note (.pulled answer) ?_
    rcases answer with _ | _ | (s | m) | _
    · exact h
    · exact h
    · exact redacts_orStop policy (some s) ih
    · exact redacts_orStop policy none ih
    · exact h

theorem redacts_echoUpTo (h : c.RedactsTo d) (n : Nat) :
    (echoUpTo c n).RedactsTo (echoUpTo d n) := by
  induction n with
  | zero => exact h
  | succ n ih =>
    refine .pull fun answer => .note (.pulled answer) ?_
    rcases answer with _ | _ | (s | m) | _
    · exact h
    · exact h
    · exact .resolve (.fault s)
    · -- The message is written, but not looked at.
      refine .write (.write m) fun answer => ?_
      split
      · exact ih
      · exact .resolve (.fault _)
      · exact h
    · exact h

theorem redacts_echoAll (h : c.RedactsTo d) : (echoAll c).RedactsTo (echoAll d) := by
  refine .hint fun size => ?_
  cases size with
  | none => exact .note (.pulled none) h
  | some size =>
    refine .holdsWriter fun held => ?_
    cases held with
    | false => exact .note (.wrote "echo" none) h
    | true => exact redacts_echoUpTo h (size + 1)

theorem redacts_writeOne (name : String) (op : SinkOp Message) (policy : FaultPolicy)
    (h : c.RedactsTo d) :
    (writeOne name op policy c).RedactsTo (writeOne name (op.map Message.redacted) policy d) :=
  .write op fun _ => .note (.wrote _ _) (redacts_orStop policy _ h)

mutual

-- An action takes no notice of what messages hold.
theorem redacts_plan {scene : Scene} {c d : Continuation} (h : c.RedactsTo d) :
    (action : Action) →
      (plan scene c action).RedactsTo (plan scene.redacted d action.redacted)
  | pause => .pause h
  | counts => .noteCounts h
  | hint => .hint fun size => .note (.hint size) h
  | pull policy => redacts_pullOne policy h
  | pullAll policy => .hint fun size => redacts_pullUpTo policy h (size.getD 0 + 1)
  | echo => redacts_echoAll h
  | write m policy => redacts_writeOne "write" (.write m) policy h
  | complete policy => redacts_writeOne "complete" .complete policy h
  | dropStream => .dropRequests h
  | dropWriter => .dropWriter h
  | keepStream name => .keepRequests name h
  | keepWriter name => .keepWriter name h
  | call spec body => by
    unfold redacted plan
    rw [scene.callSpec_redacted]
    refine .call (scene.callSpec spec) (fun seen => .note (.seen seen) ?_) fun result _ => ?_
    · exact redacts_planAll body
    · exact .note (.called result) h
  | serve method peer body => by
    unfold redacted plan
    rw [scene.serverSpec_redacted]
    refine .note .serving (.call (scene.serverSpec method peer)
      (fun seen => .note (.seen seen) ?_) fun result written => .note (.served result) ?_)
    · exact redacts_planAll body
    · rw [scene.returningServed_redacted]
      exact .resolve _
  | .return spec => by
    unfold redacted plan
    rw [scene.returning_redacted]
    exact .resolve _
  | returnEcho => by
    unfold redacted plan
    rw [scene.returningRequest_redacted]
    exact .resolve _

theorem redacts_planAll {scene : Scene} :
    (actions : List Action) →
      (planAll scene actions).RedactsTo (planAll scene.redacted (redactedAll actions))
  | [] => by
    unfold redactedAll planAll
    rw [show scene.redacted.returning {} = (scene.returning {}).redacted from
      scene.returning_redacted {}]
    exact .resolve _
  | action :: rest => redacts_plan (redacts_planAll rest) action

end

theorem redacts_continuation (kind : SpanKind) (type : MethodType) (actions : List Action)
    (seen : Seen) :
    (continuation kind type actions seen).RedactsTo
      (continuation kind type (redactedAll actions) seen.redacted) :=
  .note (.seen seen) (redacts_planAll actions)

end Action

end CallTrace
