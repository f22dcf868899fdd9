import CallTrace.Proofs.Session.Run
import CallTrace.Session.State

/-!
# Runs as a relation

A run of a continuation in big steps, as a relation between the exchange before and the one after:
the run goes through the continuation with the answers that the exchange gives it, starts the calls
on its way, and ends with a return or waits.  The calls that an exchange has grown by are those that
the runs in it have started.
-/

namespace CallTrace

def CallSpec.shape (spec : CallSpec) : Shape := (spec.kind, spec.type)

def Progress.return? : Progress → Option Return
  | .waiting _ => none
  | .ended r => some r

namespace Exchange

variable {x y z : Exchange}

/-! ## Which calls there are -/

/-- One exchange has the calls of another and after them calls that were made so. -/
def GrowsBy (x y : Exchange) (specs : List CallSpec) : Prop :=
  y.calls.map CallState.shape = x.calls.map CallState.shape ++ specs.map CallSpec.shape

theorem growsBy_nil :
    x.GrowsBy y [] ↔ y.calls.map CallState.shape = x.calls.map CallState.shape := by
  simp [GrowsBy]

theorem GrowsBy.refl (x : Exchange) : x.GrowsBy x [] := growsBy_nil.2 rfl

theorem GrowsBy.trans {specs more : List CallSpec} (h : x.GrowsBy y specs)
    (h' : y.GrowsBy z more) : x.GrowsBy z (specs ++ more) := by
  unfold GrowsBy at *
  rw [h', h, List.map_append, List.append_assoc]

theorem growsBy_of_calls (h : y.calls = x.calls) : x.GrowsBy y [] :=
  growsBy_nil.2 (congrArg (List.map CallState.shape) h)

theorem growsBy_foldl {α : Type} {f : Exchange → α → Exchange}
    (h : ∀ (x : Exchange) (a : α), x.GrowsBy (f x a) []) (items : List α) (x : Exchange) :
    x.GrowsBy (items.foldl f x) [] := by
  induction items generalizing x with
  | nil => exact .refl x
  | cons a items ih => exact (h x a).trans (ih (f x a))

-- Growth by an operation, when it is known what the operation gives.
theorem GrowsBy.of_eq {α : Type} {out : Exchange × α} {a : α} {specs : List CallSpec}
    (h : x.GrowsBy out.1 specs) (hout : out = (y, a)) : x.GrowsBy y specs := by
  rw [hout] at h
  exact h

-- What was there keeps its number and its shape.
theorem GrowsBy.shape {specs : List CallSpec} (h : x.GrowsBy y specs) {i : Nat} {shape : Shape}
    (hi : (x.calls.map CallState.shape)[i]? = some shape) :
    (y.calls.map CallState.shape)[i]? = some shape := by
  obtain ⟨hlt, -⟩ := List.getElem?_eq_some_iff.1 hi
  unfold GrowsBy at h
  rw [h, List.getElem?_append_left hlt, hi]

section Operations

variable (x : Exchange) (i : Nat)

theorem growsBy_update {change : CallState → CallState} (h : ∀ s, (change s).shape = s.shape) :
    x.GrowsBy (x.update i change) [] := growsBy_nil.2 (shapes_update i h)

theorem growsBy_pull : x.GrowsBy (x.pull i).1 [] := by
  have htaken := growsBy_nil.2 (x.shapes_takeRequests i)
  unfold Exchange.pull
  generalize x.takeRequests i = taken at htaken ⊢
  rcases taken with ⟨x', _ | source⟩
  · exact htaken
  · exact htaken.trans (growsBy_update (x'.poll source).1 i fun _ => rfl)

theorem growsBy_keepStream (name : String) (source : Source) :
    x.GrowsBy (x.keepStream name source) [] := by
  unfold Exchange.keepStream
  cases x.keptStreams.find? name <;> exact GrowsBy.refl x

theorem growsBy_keepRequests (name : String) : x.GrowsBy (x.keepRequests i name) [] := by
  have htaken := growsBy_nil.2 (x.shapes_takeRequests i)
  unfold Exchange.keepRequests
  generalize x.takeRequests i = taken at htaken ⊢
  rcases taken with ⟨x', _ | source⟩
  · exact htaken
  · exact htaken.trans (x'.growsBy_keepStream name source)

theorem growsBy_startWrite (op : SinkOp Message) : x.GrowsBy (x.startWrite i op).1 [] := by
  unfold Exchange.startWrite
  dsimp only
  split
  · exact GrowsBy.refl x
  · exact growsBy_update (x.tell i _) i fun _ => rfl

theorem growsBy_attemptWrite (ticket : OutletTicket Message) :
    x.GrowsBy (x.attemptWrite i ticket).1 [] := by
  unfold Exchange.attemptWrite
  split
  · exact GrowsBy.refl x
  · exact x.growsBy_update i fun _ => rfl

theorem growsBy_writeOnce (op : SinkOp Message) : x.GrowsBy (x.writeOnce i op).1 [] := by
  have hstarted := x.growsBy_startWrite i op
  unfold Exchange.writeOnce
  generalize x.startWrite i op = begun at hstarted ⊢
  rcases begun with ⟨x', _ | ticket⟩
  · exact hstarted
  · exact hstarted.trans (x'.growsBy_attemptWrite i ticket)

theorem growsBy_writeHeld (op : SinkOp Message) : x.GrowsBy (x.writeHeld i op).1 [] := by
  unfold Exchange.writeHeld
  split
  · exact x.growsBy_writeOnce i op
  · exact GrowsBy.refl x

theorem growsBy_keepWriterOf (name : String) : x.GrowsBy (x.keepWriterOf name i) [] := by
  unfold Exchange.keepWriterOf
  cases x.keptWriters.find? name with
  | none => exact GrowsBy.refl x
  | some old => exact growsBy_nil.2 (shapes_releaseWriter _ old)

theorem growsBy_keepWriter (name : String) : x.GrowsBy (x.keepWriter i name) [] := by
  have htaken := growsBy_nil.2 (x.shapes_takeWriter i)
  unfold Exchange.keepWriter
  generalize x.takeWriter i = taken at htaken ⊢
  rcases taken with ⟨x', _ | _⟩
  · exact htaken
  · exact htaken.trans (x'.growsBy_keepWriterOf i name)

theorem growsBy_settle (r : Return) : x.GrowsBy (x.settle i r).1 [] := by
  have hheld (y : Exchange) : y.GrowsBy (y.dropHeld i) [] := growsBy_nil.2 (y.shapes_dropHeld i)
  unfold Exchange.settle
  split
  · exact hheld x
  · exact hheld x
  · exact hheld x
  · exact hheld x
  · exact (growsBy_nil.2 (x.shapes_takeRequests i)).trans (hheld _)

theorem growsBy_settleNested (r : Return) : x.GrowsBy (x.settleNested i r).1 [] := by
  have hsettled := x.growsBy_settle i r
  unfold Exchange.settleNested
  generalize x.settle i r = settled at hsettled ⊢
  rcases settled with ⟨x', result, _ | response⟩ <;> exact hsettled

theorem growsBy_abandon (rest : Suspended) : x.GrowsBy (x.abandon i rest) [] := by
  have hone (y : Exchange) (j : Nat) : y.GrowsBy (y.abandonOne j) [] :=
    growsBy_nil.2 (y.shapes_dropHeld j)
  induction rest generalizing i with
  | paused next => exact hone x i
  | writing ticket next => exact hone x i
  | awaiting nested body next ih => exact (ih nested).trans (hone _ i)

theorem growsBy_takeRequest (caller : Option Nat) (spec : CallSpec) :
    x.GrowsBy (x.takeRequest caller spec).1 [] := by
  unfold Exchange.takeRequest
  split
  · exact GrowsBy.refl x
  · exact GrowsBy.refl x
  · split
    · exact GrowsBy.refl x
    · rename_i id _ _
      split
      · exact growsBy_nil.2 (x.shapes_takeRequests id)
      · exact GrowsBy.refl x

theorem growsBy_nameOutlet (name : String) : x.GrowsBy (x.nameOutlet name i) [] := by
  unfold Exchange.nameOutlet
  cases x.outletNames.find? name with
  | none => exact GrowsBy.refl x
  | some old => exact x.growsBy_update old fun _ => rfl

end Operations

-- A call that starts comes after all others.
theorem growsBy_startOn (x : Exchange) (parent : Option SpanContext) (spec : CallSpec)
    (request : CallRequest) : x.GrowsBy (x.startOn parent spec request).1 [spec] := by
  have hnew (t : Tracing) (metadata : Metadata) : x.GrowsBy
      { x with
        toTracing := t
        calls := x.calls ++ [spec.state t x.calls.length metadata request] } [spec] :=
    List.map_append
  unfold Exchange.startOn
  dsimp only
  split
  · exact (hnew _ _).trans (growsBy_nameOutlet _ _ _)
  · exact hnew _ _

theorem startCall_grows (x : Exchange) (caller : Option Nat) (enclosing : Option SpanContext)
    (spec : CallSpec) :
    x.GrowsBy (x.startCall caller enclosing spec).1 [spec] ∧
      ((x.startCall caller enclosing spec).1.calls.map
        CallState.shape)[(x.startCall caller enclosing spec).2.1]? = some spec.shape := by
  have htaken := x.growsBy_takeRequest caller spec
  have hstarted := (x.takeRequest caller spec).1.growsBy_startOn
    (x.parentContext? enclosing spec.parent) spec ((x.takeRequest caller spec).2.ofType spec.type)
  refine ⟨htaken.trans hstarted, ?_⟩
  have hnumber : (x.startCall caller enclosing spec).2.1 =
      ((x.takeRequest caller spec).1.calls.map CallState.shape).length := by
    rw [List.length_map]
    rfl
  have hlast : (x.startCall caller enclosing spec).1.calls.map CallState.shape =
      (x.takeRequest caller spec).1.calls.map CallState.shape ++ [spec.shape] := hstarted
  rw [hnumber, hlast, List.getElem?_concat_length]

/-! ## What calls end with -/

theorem result_settle (x : Exchange) (i : Nat) (r : Return) :
    (x.settle i r).2.1 = (x.returned i r).result := by
  unfold Exchange.settle
  cases x.returned i r <;> rfl

theorem returned_of_fits {i : Nat} {r : Return} {shape : Shape}
    (hi : (x.calls.map CallState.shape)[i]? = some shape)
    (hr : r.fits shape.1 shape.2 = true) : x.returned i r = r := by
  rw [List.getElem?_map] at hi
  obtain ⟨c, hc, rfl⟩ := Option.map_eq_some_iff.1 hi
  unfold returned
  rw [hc]
  exact Return.ofType_of_fits hr

theorem shape_of_call {i : Nat} {c : CallState} (h : x.calls[i]? = some c) :
    (x.calls.map CallState.shape)[i]? = some c.shape := by
  rw [List.getElem?_map, h]
  rfl

/-- The caller gets what the continuation returned. -/
theorem result_settle_of_fits {i : Nat} {r : Return} {shape : Shape}
    (hi : (x.calls.map CallState.shape)[i]? = some shape)
    (hr : r.fits shape.1 shape.2 = true) : (x.settle i r).2.1 = r.result := by
  rw [result_settle, returned_of_fits hi hr]

-- So does the continuation that has made the call.
theorem result_settleNested_of_fits {i : Nat} {r : Return} {shape : Shape}
    (hi : (x.calls.map CallState.shape)[i]? = some shape)
    (hr : r.fits shape.1 shape.2 = true) : (x.settleNested i r).2.1 = r.result := by
  have hresult := result_settle_of_fits hi hr
  unfold settleNested
  generalize x.settle i r = settled at hresult ⊢
  rcases settled with ⟨x', result, _ | response⟩ <;> exact hresult

/-! ## Runs -/

/--
The continuation of a call runs from one exchange to another.  On its way it makes calls of these
specs; at its end there is a return, or none where it waits.  A call on the way that comes to its
end gives what its own continuation returned.
-/
inductive Runs : Exchange → Nat → Continuation → List CallSpec → Exchange → Option Return → Prop
  | resolve (x : Exchange) (i : Nat) (r : Return) : Runs x i (.resolve r) [] x (some r)
  | pause (x : Exchange) (i : Nat) (next : Continuation) : Runs x i (.pause next) [] x none
  | note {x y : Exchange} {i : Nat} {specs : List CallSpec} {r : Option Return} {n : Note}
      {next : Continuation} (h : Runs (x.note n) i next specs y r) :
      Runs x i (.note n next) specs y r
  | noteCounts {x y : Exchange} {i : Nat} {specs : List CallSpec} {r : Option Return}
      {next : Continuation} (h : Runs (x.note (.counts x.recorder.counts)) i next specs y r) :
      Runs x i (.noteCounts next) specs y r
  | hint {x y : Exchange} {i : Nat} {specs : List CallSpec} {r : Option Return}
      {next : Option Nat → Continuation}
      (h : Runs x i (next ((x.requests? i).map Source.size)) specs y r) :
      Runs x i (.hint next) specs y r
  | pulling {x y : Exchange} {i : Nat} {next : Option (Polled (Delivery Message)) → Continuation}
      (hpull : x.pull i = (y, some .pending)) : Runs x i (.pull next) [] y none
  | pulled {x y z : Exchange} {i : Nat} {specs : List CallSpec} {r : Option Return}
      {next : Option (Polled (Delivery Message)) → Continuation}
      {answer : Option (Polled (Delivery Message))} (hpull : x.pull i = (y, answer))
      (hanswer : answer ≠ some .pending) (h : Runs y i (next answer) specs z r) :
      Runs x i (.pull next) specs z r
  | holdsWriter {x y : Exchange} {i : Nat} {specs : List CallSpec} {r : Option Return}
      {next : Bool → Continuation} (h : Runs x i (next (x.holdsWriter i)) specs y r) :
      Runs x i (.holdsWriter next) specs y r
  | writing {x y : Exchange} {i : Nat} {op : SinkOp Message}
      {next : Option (Except Status Unit) → Continuation} {ticket : OutletTicket Message}
      (hwrite : x.writeHeld i op = (y, some (.waiting ticket))) :
      Runs x i (.write op next) [] y none
  | unwritten {x y z : Exchange} {i : Nat} {specs : List CallSpec} {r : Option Return}
      {op : SinkOp Message} {next : Option (Except Status Unit) → Continuation}
      (hwrite : x.writeHeld i op = (y, none)) (h : Runs y i (next none) specs z r) :
      Runs x i (.write op next) specs z r
  | written {x y z : Exchange} {i : Nat} {specs : List CallSpec} {r : Option Return}
      {op : SinkOp Message} {next : Option (Except Status Unit) → Continuation}
      {answer : Except Status Unit} (hwrite : x.writeHeld i op = (y, some (.answered answer)))
      (h : Runs y i (next (some answer)) specs z r) : Runs x i (.write op next) specs z r
  | dropRequests {x y : Exchange} {i : Nat} {specs : List CallSpec} {r : Option Return}
      {next : Continuation} (h : Runs (x.dropRequests i) i next specs y r) :
      Runs x i (.dropRequests next) specs y r
  | dropWriter {x y : Exchange} {i : Nat} {specs : List CallSpec} {r : Option Return}
      {next : Continuation} (h : Runs (x.dropWriter i) i next specs y r) :
      Runs x i (.dropWriter next) specs y r
  | keepRequests {x y : Exchange} {i : Nat} {specs : List CallSpec} {r : Option Return}
      {name : String} {next : Continuation} (h : Runs (x.keepRequests i name) i next specs y r) :
      Runs x i (.keepRequests name next) specs y r
  | keepWriter {x y : Exchange} {i : Nat} {specs : List CallSpec} {r : Option Return}
      {name : String} {next : Continuation} (h : Runs (x.keepWriter i name) i next specs y r) :
      Runs x i (.keepWriter name next) specs y r
  | calling {x y z : Exchange} {i nested : Nat} {spec : CallSpec} {seen : Seen}
      {body : Seen → Continuation} {next : CallResult → List Message → Continuation}
      {specs : List CallSpec} (hstart : x.startCall (some i) none spec = (y, nested, seen))
      (h : Runs y nested (body seen) specs z none) :
      Runs x i (.call spec body next) (spec :: specs) z none
  | called {x y y' z z' : Exchange} {i nested : Nat} {spec : CallSpec} {seen : Seen}
      {body : Seen → Continuation} {next : CallResult → List Message → Continuation}
      {inner specs : List CallSpec} {returned : Return} {result : CallResult}
      {written : List Message} {r : Option Return}
      (hstart : x.startCall (some i) none spec = (y, nested, seen))
      (hbody : Runs y nested (body seen) inner y' (some returned))
      (hsettle : y'.settleNested nested returned = (z, result, written))
      (hresult : returned.fits spec.kind spec.type = true → result = returned.result)
      (h : Runs z i (next result written) specs z' r) :
      Runs x i (.call spec body next) (spec :: (inner ++ specs)) z' r

-- The calls of a run, its own and those in them, come after all others.
theorem Runs.growsBy {i : Nat} {k : Continuation} {specs : List CallSpec} {r : Option Return}
    (h : x.Runs i k specs y r) : x.GrowsBy y specs := by
  induction h with
  | resolve x i r => exact .refl x
  | pause x i next => exact .refl x
  | note _ ih => exact ih
  | noteCounts _ ih => exact ih
  | hint _ ih => exact ih
  | pulling hpull => exact (growsBy_pull _ _).of_eq hpull
  | pulled hpull _ _ ih => exact ((growsBy_pull _ _).of_eq hpull).trans ih
  | holdsWriter _ ih => exact ih
  | writing hwrite => exact (growsBy_writeHeld _ _ _).of_eq hwrite
  | unwritten hwrite _ ih => exact ((growsBy_writeHeld _ _ _).of_eq hwrite).trans ih
  | written hwrite _ ih => exact ((growsBy_writeHeld _ _ _).of_eq hwrite).trans ih
  | dropRequests _ ih => exact (growsBy_nil.2 (shapes_dropRequests _ _)).trans ih
  | dropWriter _ ih => exact (growsBy_nil.2 (shapes_dropWriter _ _)).trans ih
  | keepRequests _ ih => exact (growsBy_keepRequests _ _ _).trans ih
  | keepWriter _ ih => exact (growsBy_keepWriter _ _ _).trans ih
  | calling hstart _ ih =>
    have hstarted := (startCall_grows _ _ _ _).1.of_eq hstart
    exact hstarted.trans ih
  | called hstart _ hsettle _ _ ihbody ih =>
    have hstarted := (startCall_grows _ _ _ _).1.of_eq hstart
    have hsettled := (growsBy_settleNested _ _ _).of_eq hsettle
    exact hstarted.trans (ihbody.trans (hsettled.trans ih))

/-- What is run takes such a way. -/
theorem runs_run (x : Exchange) (i : Nat) (k : Continuation) :
    ∃ specs, x.Runs i k specs (x.run i k).1 (x.run i k).2.return? := by
  induction k generalizing x i with
  | resolve r => exact ⟨[], .resolve x i r⟩
  | pause next => exact ⟨[], .pause x i next⟩
  | note n next ih =>
    obtain ⟨specs, hruns⟩ := ih (x.note n) i
    exact ⟨specs, .note hruns⟩
  | noteCounts next ih =>
    obtain ⟨specs, hruns⟩ := ih (x.note (.counts x.recorder.counts)) i
    exact ⟨specs, .noteCounts hruns⟩
  | hint next ih =>
    obtain ⟨specs, hruns⟩ := ih ((x.requests? i).map Source.size) x i
    exact ⟨specs, .hint hruns⟩
  | pull next ih =>
    unfold run
    cases hpull : x.pull i with
    | mk y answer =>
      have hgoes (hanswer : answer ≠ some .pending) : ∃ specs, x.Runs i (.pull next) specs
          (y.run i (next answer)).1 (y.run i (next answer)).2.return? := by
        obtain ⟨specs, hruns⟩ := ih answer y i
        exact ⟨specs, .pulled hpull hanswer hruns⟩
      rcases answer with _ | (_ | a | _)
      · exact hgoes (by simp)
      · exact ⟨[], .pulling hpull⟩
      · exact hgoes (by simp)
      · exact hgoes (by simp)
  | holdsWriter next ih =>
    obtain ⟨specs, hruns⟩ := ih (x.holdsWriter i) x i
    exact ⟨specs, .holdsWriter hruns⟩
  | write op next ih =>
    unfold run
    cases hwrite : x.writeHeld i op with
    | mk y result =>
      rcases result with _ | (ticket | answer)
      · obtain ⟨specs, hruns⟩ := ih none y i
        exact ⟨specs, .unwritten hwrite hruns⟩
      · exact ⟨[], .writing hwrite⟩
      · obtain ⟨specs, hruns⟩ := ih (some answer) y i
        exact ⟨specs, .written hwrite hruns⟩
  | dropRequests next ih =>
    obtain ⟨specs, hruns⟩ := ih (x.dropRequests i) i
    exact ⟨specs, .dropRequests hruns⟩
  | dropWriter next ih =>
    obtain ⟨specs, hruns⟩ := ih (x.dropWriter i) i
    exact ⟨specs, .dropWriter hruns⟩
  | keepRequests name next ih =>
    obtain ⟨specs, hruns⟩ := ih (x.keepRequests i name) i
    exact ⟨specs, .keepRequests hruns⟩
  | keepWriter name next ih =>
    obtain ⟨specs, hruns⟩ := ih (x.keepWriter i name) i
    exact ⟨specs, .keepWriter hruns⟩
  | call spec body next ihbody ihnext =>
    have hshape := (x.startCall_grows (some i) none spec).2
    unfold run
    rcases hstart : x.startCall (some i) none spec with ⟨y, nested, seen⟩
    rw [hstart] at hshape
    obtain ⟨inner, hbody⟩ := ihbody seen y nested
    dsimp only
    generalize y.run nested (body seen) = out at hbody ⊢
    rcases out with ⟨y', rest | returned⟩
    · exact ⟨spec :: inner, .calling hstart hbody⟩
    · dsimp only
      rcases hsettle : y'.settleNested nested returned with ⟨z, result, written⟩
      obtain ⟨specs, hruns⟩ := ihnext result written z i
      refine ⟨spec :: (inner ++ specs), .called hstart hbody hsettle (fun hr => ?_) hruns⟩
      have hresult := result_settleNested_of_fits (hbody.growsBy.shape hshape) hr
      rw [hsettle] at hresult
      exact hresult

/-- A continuation that waits goes on from one exchange to another. -/
inductive Resumes :
    Exchange → Nat → Suspended → List CallSpec → Exchange → Option Return → Prop
  | paused {x y : Exchange} {i : Nat} {next : Continuation} {specs : List CallSpec}
      {r : Option Return} (h : x.Runs i next specs y r) : Resumes x i (.paused next) specs y r
  | writing {x y : Exchange} {i : Nat} {ticket ticket' : OutletTicket Message}
      {next : Option (Except Status Unit) → Continuation}
      (hattempt : x.attemptWrite i ticket = (y, .waiting ticket')) :
      Resumes x i (.writing ticket next) [] y none
  | written {x y z : Exchange} {i : Nat} {ticket : OutletTicket Message}
      {next : Option (Except Status Unit) → Continuation} {answer : Except Status Unit}
      {specs : List CallSpec} {r : Option Return}
      (hattempt : x.attemptWrite i ticket = (y, .answered answer))
      (h : y.Runs i (next (some answer)) specs z r) : Resumes x i (.writing ticket next) specs z r
  | calling {x y : Exchange} {i nested : Nat} {body : Suspended}
      {next : CallResult → List Message → Continuation} {specs : List CallSpec}
      (h : Resumes x nested body specs y none) :
      Resumes x i (.awaiting nested body next) specs y none
  | called {x y z z' : Exchange} {i nested : Nat} {body : Suspended}
      {next : CallResult → List Message → Continuation} {inner specs : List CallSpec}
      {returned : Return} {result : CallResult} {written : List Message} {r : Option Return}
      (hbody : Resumes x nested body inner y (some returned))
      (hsettle : y.settleNested nested returned = (z, result, written))
      (hresult : ∀ c, x.calls[nested]? = some c →
        returned.fits c.kind c.type = true → result = returned.result)
      (h : z.Runs i (next result written) specs z' r) :
      Resumes x i (.awaiting nested body next) (inner ++ specs) z' r

theorem Resumes.growsBy {i : Nat} {rest : Suspended} {specs : List CallSpec} {r : Option Return}
    (h : x.Resumes i rest specs y r) : x.GrowsBy y specs := by
  induction h with
  | paused hruns => exact hruns.growsBy
  | writing hattempt => exact (growsBy_attemptWrite _ _ _).of_eq hattempt
  | written hattempt hruns =>
    exact ((growsBy_attemptWrite _ _ _).of_eq hattempt).trans hruns.growsBy
  | calling _ ih => exact ih
  | called _ hsettle _ hruns ih =>
    have hsettled := (growsBy_settleNested _ _ _).of_eq hsettle
    exact ih.trans (hsettled.trans hruns.growsBy)

theorem resumes_resume (x : Exchange) (i : Nat) (rest : Suspended) :
    ∃ specs, x.Resumes i rest specs (x.resume i rest).1 (x.resume i rest).2.return? := by
  induction rest generalizing i with
  | paused next =>
    obtain ⟨specs, hruns⟩ := x.runs_run i next
    exact ⟨specs, .paused hruns⟩
  | writing ticket next =>
    unfold resume
    rcases hattempt : x.attemptWrite i ticket with ⟨y, ticket' | answer⟩
    · exact ⟨[], .writing hattempt⟩
    · obtain ⟨specs, hruns⟩ := y.runs_run i (next (some answer))
      exact ⟨specs, .written hattempt hruns⟩
  | awaiting nested body next ih =>
    obtain ⟨inner, hbody⟩ := ih nested
    unfold resume
    generalize x.resume nested body = out at hbody ⊢
    rcases out with ⟨y, rest | returned⟩
    · exact ⟨inner, .calling hbody⟩
    · dsimp only
      rcases hsettle : y.settleNested nested returned with ⟨z, result, written⟩
      obtain ⟨specs, hruns⟩ := z.runs_run i (next result written)
      refine ⟨inner ++ specs, .called hbody hsettle (fun c hc hr => ?_) hruns⟩
      have hresult := result_settleNested_of_fits (hbody.growsBy.shape (shape_of_call hc)) hr
      rw [hsettle] at hresult
      exact hresult

end Exchange

end CallTrace
