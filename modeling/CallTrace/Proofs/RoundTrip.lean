import CallTrace.Proofs.Headers
import CallTrace.Proofs.Propagation

/-!
# Reading what was injected

Extraction undoes injection.  Each format is followed from the context to the texts of its headers,
through a carrier, and back.  Trace context headers lose the parent of a span, B3 headers the vendor
state and all flags but one.
-/

namespace CallTrace

/-! ## The texts of the headers -/

theorem isVisible_ofList {cs : List Char}
    (h : ∀ c ∈ cs, c = '\t' ∨ (32 ≤ c.toNat ∧ c.toNat ≤ 126)) : IsVisible (String.ofList cs) := by
  unfold IsVisible
  rwa [String.toList_ofList]

theorem Id.isVisible_text {n : Nat} (id : Id n) : IsVisible id.text :=
  isVisible_ofList (id.forall_mem_digits (by decide))

theorem SpanContext.isVisible_traceparent (ctx : SpanContext) : IsVisible ctx.traceparent :=
  isVisible_ofList (Traceparent.forall_mem_chars (by decide) (by decide) ctx)

-- A traceparent decides all but the state.
theorem TraceContext.read_of_traceparent {get? : String → Option String} {ctx : SpanContext}
    (h : get? traceparent = some ctx.traceparent) (htrace : ctx.traceId ≠ .zero)
    (hspan : ctx.spanId ≠ .zero) : TraceContext.read get? =
      .ok (some { ctx with parent := none, state := (get? tracestate).filter (· ≠ "") }) := by
  have hctx := ctx.ofTraceparent_traceparent
  rw [if_neg htrace, if_neg hspan] at hctx
  unfold TraceContext.read
  simp only [h, hctx]
  cases (get? tracestate).filter (· ≠ "") <;> rfl

-- Flags of which all but the sampled bit are clear.
def TraceFlags.ofSampled (sampled : Bool) : TraceFlags := if sampled then ⟨1⟩ else ⟨0⟩

theorem TraceFlags.sampled_ofSampled (sampled : Bool) : (ofSampled sampled).sampled = sampled := by
  cases sampled <;> decide

theorem TraceFlags.withSampled_sampledOnly (sampled : Bool) :
    sampledOnly.withSampled sampled = ofSampled sampled := by
  cases sampled <;> rfl

namespace B3

/-- What B3 headers carry of a context: the identifiers and whether it is sampled. -/
def carried (ctx : SpanContext) : SpanContext :=
  { ctx with flags := .ofSampled ctx.sampled, state := none }

-- The parent that digits name, if there are any.
def parentOf : Option (List Char) → Except ContextError (Option SpanId)
  | none => .ok none
  | some digits => (require .invalidSpanId (Id.ofDigits? digits)).map some

theorem parentOf_digits {parent : Option SpanId} (h : parent ≠ some .zero) :
    parentOf (parent.map Id.digits) = .ok parent := by
  cases parent with
  | none => rfl
  | some id =>
    have hid : id ≠ .zero := fun hid => h (congrArg some hid)
    rw [Option.map_some, parentOf, Id.ofDigits?_digits, if_neg hid]
    rfl

-- What is written of a parent hides what there was; without one, that is read.
theorem parentOf_or {parent : Option SpanId} (h : parent ≠ some .zero) (old : Option String) :
    parentOf (((parent.map Id.text).or old).map String.toList) =
      parent.elim (parentOf (old.map String.toList)) fun id => .ok (some id) := by
  cases parent with
  | none => rfl
  | some id =>
    have hdigits := parentOf_digits h
    rw [Option.map_some] at hdigits
    simpa [Id.text] using hdigits

-- Trace, span and parent are read in this order, and then no flag but the sampled bit is set.
theorem identity_eq (trace span : List Char) (parent : Option (List Char)) (sampled : Bool) :
    identity trace span parent sampled =
      (require .invalidTraceId (Id.ofDigits? (widen trace))).bind fun traceId =>
        (require .invalidSpanId (Id.ofDigits? span)).bind fun spanId =>
          (parentOf parent).map fun parent =>
            { traceId, spanId, parent, flags := .ofSampled sampled } := by
  unfold identity
  cases Id.ofDigits? (n := 16) (widen trace) with
  | none => rfl
  | some traceId =>
    cases Id.ofDigits? (n := 8) span with
    | none => rfl
    | some spanId =>
      simp only [← TraceFlags.withSampled_sampledOnly]
      rcases parent with _ | digits
      · rfl
      · simp only [parentOf]
        cases Id.ofDigits? (n := 8) digits <;> rfl

-- The identifiers of a span read back; what its parent reads as is left open.
theorem identity_digits {trace : TraceId} {span : SpanId} (htrace : trace ≠ .zero)
    (hspan : span ≠ .zero) (parent : Option (List Char)) (sampled : Bool) :
    identity trace.digits span.digits parent sampled = (parentOf parent).map fun parent =>
      { traceId := trace, spanId := span, parent, flags := .ofSampled sampled } := by
  have hwiden : widen trace.digits = trace.digits := if_neg (by simp)
  rw [identity_eq, hwiden, Id.ofDigits?_digits, if_neg htrace, Id.ofDigits?_digits, if_neg hspan]
  rfl

def stateDigit (ctx : SpanContext) : Char := if ctx.sampled then '1' else '0'

theorem isSampledState_stateDigit (ctx : SpanContext) :
    isSampledState [stateDigit ctx] = ctx.sampled := by
  unfold stateDigit
  cases ctx.sampled <;> decide

/-- The fields of the single header. -/
def fieldsOf (ctx : SpanContext) : List (List Char) :=
  [ctx.traceId.digits, ctx.spanId.digits, [stateDigit ctx]] ++ ctx.parent.toList.map Id.digits

theorem forall_mem_fieldsOf {p : Char → Prop} (h : ∀ d < 16, p (Hex.digit d)) (ctx : SpanContext) :
    ∀ field ∈ fieldsOf ctx, ∀ c ∈ field, p c := by
  have hstate : p (stateDigit ctx) := by
    unfold stateDigit
    split
    · exact h 1 (by decide)
    · exact h 0 (by decide)
  intro field hfield
  simp only [fieldsOf, List.cons_append, List.nil_append, List.mem_cons, List.mem_map,
    Option.mem_toList] at hfield
  rcases hfield with rfl | rfl | rfl | ⟨id, -, rfl⟩
  · exact Id.forall_mem_digits h _
  · exact Id.forall_mem_digits h _
  · simpa using hstate
  · exact Id.forall_mem_digits h _

-- The two forms as lists of headers with their texts.
theorem headers_single (ctx : SpanContext) :
    headers .single ctx = [(single, String.ofList (Fields.join '-' (fieldsOf ctx)))] := by
  have hstate : (if ctx.sampled then "1" else "0").toList = [stateDigit ctx] := by
    unfold stateDigit
    cases ctx.sampled <;> rfl
  have hdash : "-".toList = ['-'] := rfl
  have hvalue (s : String) (cs : List Char) (h : s.toList = cs) :
      (single, s) = (single, String.ofList cs) := by
    rw [← h, String.ofList_toList]
  unfold headers fieldsOf
  cases ctx.parent with
  | none =>
    refine congrArg (fun e => [e]) (hvalue _ _ ?_)
    simp [Id.text, hstate, hdash, Fields.join]
  | some parent =>
    refine congrArg (fun e => [e]) (hvalue _ _ ?_)
    simp [Id.text, hstate, hdash, Fields.join]

theorem headers_multi (ctx : SpanContext) :
    headers .multi ctx =
      [(traceId, ctx.traceId.text), (spanId, ctx.spanId.text),
        (sampled, String.ofList [stateDigit ctx])] ++
        ctx.parent.toList.map fun parent => (parentSpanId, parent.text) := by
  unfold headers stateDigit
  cases ctx.parent <;> cases ctx.sampled <;> rfl

-- The single header carries all that the format knows.
theorem ofSingle_fieldsOf {ctx : SpanContext} (htrace : ctx.traceId ≠ .zero)
    (hspan : ctx.spanId ≠ .zero) (hparent : ctx.parent ≠ some .zero) :
    ofSingle (String.ofList (Fields.join '-' (fieldsOf ctx))) = .ok (some (carried ctx)) := by
  have hblank : ∀ c ∈ Fields.join '-' (fieldsOf ctx), isBlank c = false :=
    Fields.forall_mem_join (by decide) (forall_mem_fieldsOf (by decide) ctx)
  have hdash : ∀ field ∈ fieldsOf ctx, '-' ∉ field := by
    have hne : ∀ field ∈ fieldsOf ctx, ∀ c ∈ field, c ≠ '-' :=
      forall_mem_fieldsOf (by decide) ctx
    exact fun field hfield hmem => hne field hfield '-' hmem rfl
  have hfields : ofFields (fieldsOf ctx) = (identity ctx.traceId.digits ctx.spanId.digits
      (ctx.parent.map Id.digits) (isSampledState [stateDigit ctx])).map some := by
    unfold fieldsOf
    cases ctx.parent <;> rfl
  rw [ofSingle, String.toList_ofList, trim_of_none hblank,
    Fields.split_join (by simp [fieldsOf]) hdash, hfields, isSampledState_stateDigit,
    identity_digits htrace hspan, parentOf_digits hparent]
  rfl

/-- Several headers that carry a context; the parent, the debug flag and the single header are as
they are found. -/
theorem read_of_multi {get? : String → Option String} {ctx : SpanContext}
    (htrace : ctx.traceId ≠ .zero) (hspan : ctx.spanId ≠ .zero) (hsingle : get? single = none)
    (htraceId : get? traceId = some ctx.traceId.text) (hspanId : get? spanId = some ctx.spanId.text)
    (hsampled : get? sampled = some (String.ofList [stateDigit ctx])) :
    B3.read get? = (parentOf ((get? parentSpanId).map String.toList)).map fun parent =>
      some { traceId := ctx.traceId, spanId := ctx.spanId, parent
             flags := .ofSampled (get? flags == some "1" || ctx.sampled) } := by
  unfold B3.read
  simp only [hsingle, htraceId, hspanId, hsampled, Option.all_some, Id.text, String.toList_ofList,
    isSampledState_stateDigit]
  rw [identity_digits htrace hspan]
  cases parentOf ((get? parentSpanId).map String.toList) <;> rfl

end B3

/-! ## Headers of a context in a carrier -/

namespace Propagator

open HeaderCarrier

theorem isHeaderName_of_mem {p : Propagator} {name : String} (h : name ∈ p.fields) :
    IsHeaderName name := by
  have hall : ∀ name ∈ p.fields, IsHeaderName name := by
    cases p with
    | w3c => decide
    | b3 encoding => cases encoding <;> decide
  exact hall name h

variable (p : Propagator) (ctx : SpanContext)

theorem isHeaderName_headers : ∀ e ∈ p.headers ctx, IsHeaderName e.1 := fun _ he =>
  isHeaderName_of_mem (p.names_headers ctx (List.mem_map_of_mem he))

theorem nodup_headers : ((p.headers ctx).map (·.1)).Nodup := by
  cases p with
  | w3c =>
    unfold headers TraceContext.headers
    cases ctx.state <;> simp [TraceContext.traceparent, TraceContext.tracestate]
  | b3 encoding =>
    unfold headers B3.headers
    cases encoding <;> cases ctx.parent <;>
      simp [B3.traceId, B3.spanId, B3.sampled, B3.parentSpanId]

-- Only the vendor state can be a text that metadata does not take.
theorem isVisible_headers (h : p = w3c → ∀ state, ctx.state = some state → IsVisible state) :
    ∀ e ∈ p.headers ctx, IsVisible e.2 := by
  intro e he
  cases p with
  | w3c =>
    simp only [headers, TraceContext.headers, List.mem_cons] at he
    rcases he with rfl | he
    · exact ctx.isVisible_traceparent
    · cases hstate : ctx.state with
      | none => simp [hstate] at he
      | some state =>
        simp only [hstate, List.mem_singleton] at he
        rw [he]
        exact h rfl state hstate
  | b3 encoding =>
    cases encoding with
    | single =>
      rw [headers, B3.headers_single, List.mem_singleton] at he
      rw [he]
      exact isVisible_ofList
        (Fields.forall_mem_join (by decide) (B3.forall_mem_fieldsOf (by decide) ctx))
    | multi =>
      simp only [headers, B3.headers_multi, List.cons_append, List.nil_append, List.mem_cons,
        List.mem_map] at he
      rcases he with rfl | rfl | rfl | ⟨parent, -, rfl⟩
      · exact ctx.traceId.isVisible_text
      · exact ctx.spanId.isVisible_text
      · unfold B3.stateDigit
        cases ctx.sampled <;> exact isVisible_ofList (by simp)
      · exact parent.isVisible_text

section

variable {κ : Type} [Readable κ] [Writable κ] [HeaderCarrier κ] (c : κ)

theorem inject_ok_of_visible
    (h : p = w3c → ∀ state, ctx.state = some state → IsVisible state) :
    (p.inject ctx c).2 = .ok () :=
  (writeAll_ok_iff c (p.isHeaderName_headers ctx)).2 fun e he =>
    accepts_of_visible (p.isVisible_headers ctx h e he)

variable {p ctx}

theorem get?_inject_of_mem (hok : (p.inject ctx c).2 = .ok ()) {name value : String}
    (h : (name, value) ∈ p.headers ctx) : get? (p.inject ctx c).1 name = shown κ value :=
  get?_writeAll_of_mem c (p.isHeaderName_headers ctx) (p.nodup_headers ctx) hok h

theorem get?_inject_of_not_mem {k : String} (hk : IsHeaderName k)
    (h : k ∉ (p.headers ctx).map (·.1)) : get? (p.inject ctx c).1 k = get? c k :=
  get?_writeAll_of_not_mem c (p.isHeaderName_headers ctx) hk h

/-! ## What a carrier reads as after an injection -/

-- The traceparent is written first and is never refused.
theorem read_inject_w3c (htrace : ctx.traceId ≠ .zero) (hspan : ctx.spanId ≠ .zero) :
    w3c.read (get? (w3c.inject ctx c).1) = .ok (some
      { ctx with
        parent := none
        state := (get? (w3c.inject ctx c).1 TraceContext.tracestate).filter (· ≠ "") }) := by
  have hvisible := ctx.isVisible_traceparent
  have hnew : TraceContext.traceparent ∉ (w3c.headers ctx).tail.map (·.1) :=
    (List.nodup_cons.1 (w3c.nodup_headers ctx)).1
  have htraceparent : get? (w3c.inject ctx c).1 TraceContext.traceparent = some ctx.traceparent :=
    (get?_writeAll_head c (w3c.isHeaderName_headers ctx) (accepts_of_visible hvisible) hnew).trans
      (shown_of_visible hvisible)
  exact TraceContext.read_of_traceparent htraceparent htrace hspan

theorem tracestate_inject (hok : (w3c.inject ctx c).2 = .ok ()) :
    get? (w3c.inject ctx c).1 TraceContext.tracestate =
      match ctx.state with
      | some state => shown κ state
      | none => get? c TraceContext.tracestate := by
  cases hstate : ctx.state with
  | some state =>
    refine get?_inject_of_mem c hok ?_
    simp [headers, TraceContext.headers, hstate]
  | none =>
    refine get?_inject_of_not_mem c (isHeaderName_of_mem (p := w3c) (by decide)) ?_
    simp [headers, TraceContext.headers, hstate, TraceContext.traceparent, TraceContext.tracestate]

theorem inject_b3_ok (encoding : B3.Encoding) : ((b3 encoding).inject ctx c).2 = .ok () :=
  inject_ok_of_visible _ ctx c (by simp)

theorem get?_inject_b3 {encoding : B3.Encoding} {name value : String}
    (h : (name, value) ∈ (b3 encoding).headers ctx) :
    get? ((b3 encoding).inject ctx c).1 name = some value := by
  have hvisible : IsVisible value :=
    (b3 encoding).isVisible_headers ctx (by simp) (name, value) h
  rw [get?_inject_of_mem c (inject_b3_ok c encoding) h, shown_of_visible hvisible]

-- What the carrier held before does not matter when the single header is written.
theorem read_inject_single (htrace : ctx.traceId ≠ .zero) (hspan : ctx.spanId ≠ .zero)
    (hparent : ctx.parent ≠ some .zero) (reader : B3.Encoding) :
    (b3 reader).read (get? ((b3 .single).inject ctx c).1) = .ok (some (B3.carried ctx)) := by
  have hmem : (B3.single, String.ofList (Fields.join '-' (B3.fieldsOf ctx))) ∈
      (b3 .single).headers ctx := by
    rw [headers, B3.headers_single]
    exact List.mem_singleton_self _
  show B3.read _ = _
  rw [B3.read, get?_inject_b3 c hmem]
  exact B3.ofSingle_fieldsOf htrace hspan hparent

-- The single header and the debug flag are not among the several headers.
theorem unwritten_inject_multi (ctx : SpanContext) {k : String} (h : k = B3.single ∨ k = B3.flags) :
    get? ((b3 .multi).inject ctx c).1 k = get? c k := by
  have hk : IsHeaderName k := by rcases h with rfl | rfl <;> decide
  refine get?_inject_of_not_mem c hk fun hmem => ?_
  rw [headers, B3.headers_multi] at hmem
  rcases h with rfl | rfl <;>
    simp [B3.single, B3.flags, B3.traceId, B3.spanId, B3.sampled, B3.parentSpanId] at hmem

theorem parent_inject_multi :
    get? ((b3 .multi).inject ctx c).1 B3.parentSpanId =
      (ctx.parent.map Id.text).or (get? c B3.parentSpanId) := by
  cases hparent : ctx.parent with
  | some parent =>
    refine get?_inject_b3 c ?_
    rw [headers, B3.headers_multi, hparent]
    simp
  | none =>
    refine get?_inject_of_not_mem c (by decide) ?_
    rw [headers, B3.headers_multi, hparent]
    simp [B3.parentSpanId, B3.traceId, B3.spanId, B3.sampled]

/-- Several headers are read in the light of what the carrier held of the single header, of the
debug flag and, for a context without parent, of a parent. -/
theorem read_inject_multi (htrace : ctx.traceId ≠ .zero) (hspan : ctx.spanId ≠ .zero)
    (reader : B3.Encoding) : (b3 reader).read (get? ((b3 .multi).inject ctx c).1) =
      match get? c B3.single with
      | some value => B3.ofSingle value
      | none =>
        (B3.parentOf (((ctx.parent.map Id.text).or (get? c B3.parentSpanId)).map
          String.toList)).map fun parent => some
            { traceId := ctx.traceId, spanId := ctx.spanId, parent
              flags := .ofSampled (get? c B3.flags == some "1" || ctx.sampled) } := by
  have hsingle := unwritten_inject_multi c ctx (.inl rfl)
  have hflags := unwritten_inject_multi c ctx (.inr rfl)
  show B3.read _ = _
  cases hold : get? c B3.single with
  | some value =>
    rw [hold] at hsingle
    rw [B3.read, hsingle]
  | none =>
    rw [hold] at hsingle
    have hmem : ∀ e ∈ [(B3.traceId, ctx.traceId.text), (B3.spanId, ctx.spanId.text),
        (B3.sampled, String.ofList [B3.stateDigit ctx])], e ∈ (b3 .multi).headers ctx := by
      intro e he
      rw [headers, B3.headers_multi]
      exact List.mem_append_left _ he
    rw [B3.read_of_multi htrace hspan hsingle (get?_inject_b3 c (hmem _ (by simp)))
      (get?_inject_b3 c (hmem _ (by simp))) (get?_inject_b3 c (hmem _ (by simp))),
      parent_inject_multi, hflags]

omit [Writable κ] [HeaderCarrier κ] in
theorem extract_ok_iff {p : Propagator} {seen : Option SpanContext} :
    p.extract c = .ok seen ↔ p.read (get? c) = .ok seen := by
  unfold extract
  cases p.read (get? c) with
  | error e =>
    show Except.error (Error.ofContext e) = .ok seen ↔ _
    simp
  | ok ctx =>
    show Except.ok ctx = .ok seen ↔ _
    simp

omit [Writable κ] [HeaderCarrier κ] in
theorem extract_error_iff {p : Propagator} {error : Error} :
    p.extract c = .error error ↔ ∃ e, p.read (get? c) = .error e ∧ error = .ofContext e := by
  unfold extract
  cases p.read (get? c) with
  | error e =>
    show Except.error (Error.ofContext e) = .error error ↔ _
    simp [eq_comm]
  | ok ctx =>
    show Except.ok ctx = .error error ↔ _
    simp

omit [Writable κ] [HeaderCarrier κ] in
theorem extract_ofContext_iff {p : Propagator} {e : ContextError} :
    p.extract c = .error (.ofContext e) ↔ p.read (get? c) = .error e := by
  rw [extract_error_iff]
  constructor
  · rintro ⟨e', hread, he⟩
    have hcause : some (Cause.context e) = some (Cause.context e') := congrArg Error.cause he
    cases hcause
    exact hread
  · exact fun h => ⟨e, h, rfl⟩

end

/-- What one propagator injects into the carrier is taken, and another extracts it as the context
that is seen. -/
structure Recovers {κ : Type} [Readable κ] [Writable κ] (writer reader : Propagator) (carrier : κ)
    (ctx seen : SpanContext) : Prop where
  injected : (writer.inject ctx carrier).2 = .ok ()
  extracted : reader.extract (writer.inject ctx carrier).1 = .ok (some seen)

section

variable (κ : Type) [Readable κ] [Writable κ] [HeaderCarrier κ] {ctx : SpanContext}

theorem recovers_w3c (htrace : ctx.traceId ≠ .zero) (hspan : ctx.spanId ≠ .zero)
    (hstate : ∀ state, ctx.state = some state → state ≠ "" ∧ IsVisible state) :
    w3c.Recovers w3c (empty : κ) ctx { ctx with parent := none } := by
  have hok := w3c.inject_ok_of_visible ctx (empty : κ) fun _ state h => (hstate state h).2
  refine ⟨hok, (extract_ok_iff _).2 ?_⟩
  have hread : (get? (w3c.inject ctx (empty : κ)).1 TraceContext.tracestate).filter (· ≠ "") =
      ctx.state := by
    rw [tracestate_inject _ hok]
    cases h : ctx.state with
    | none =>
      simp only [get?_empty]
      rfl
    | some state =>
      obtain ⟨hne, hvisible⟩ := hstate state h
      simp [shown_of_visible hvisible, Option.filter, hne]
  rw [read_inject_w3c _ htrace hspan, hread]

theorem recovers_b3 (htrace : ctx.traceId ≠ .zero) (hspan : ctx.spanId ≠ .zero)
    (hparent : ctx.parent ≠ some .zero) (writer reader : B3.Encoding) :
    (b3 writer).Recovers (b3 reader) (empty : κ) ctx (B3.carried ctx) := by
  refine ⟨inject_b3_ok _ writer, (extract_ok_iff _).2 ?_⟩
  cases writer with
  | single => exact read_inject_single _ htrace hspan hparent reader
  | multi =>
    rw [read_inject_multi _ htrace hspan, B3.parentOf_or hparent]
    simp only [get?_empty]
    unfold B3.carried
    cases ctx.parent <;> rfl

end

/--
Extraction undoes injection on an empty carrier, be it a text map or metadata.  Trace context
headers lose only the parent; a vendor state comes back if it is not empty and metadata can hold
it.  B3 headers, in either form and for either reader, keep the identifiers and the sampled bit.
-/
theorem extract_undoes_inject (ctx : SpanContext) (htrace : ctx.traceId ≠ .zero)
    (hspan : ctx.spanId ≠ .zero) :
    ((∀ state, ctx.state = some state → state ≠ "" ∧ IsVisible state) →
      w3c.Recovers w3c ({} : TextMap) ctx { ctx with parent := none } ∧
      w3c.Recovers w3c Metadata.empty ctx { ctx with parent := none }) ∧
    (ctx.parent ≠ some .zero → ∀ writer reader : B3.Encoding,
      (b3 writer).Recovers (b3 reader) ({} : TextMap) ctx
        { ctx with flags := .ofSampled ctx.sampled, state := none } ∧
      (b3 writer).Recovers (b3 reader) Metadata.empty ctx
        { ctx with flags := .ofSampled ctx.sampled, state := none }) := by
  refine ⟨fun hstate => ⟨?_, ?_⟩, fun hparent writer reader => ⟨?_, ?_⟩⟩
  · exact recovers_w3c TextMap htrace hspan hstate
  · exact recovers_w3c Metadata htrace hspan hstate
  · exact recovers_b3 TextMap htrace hspan hparent writer reader
  · exact recovers_b3 Metadata htrace hspan hparent writer reader

-- A context with all flags set, a parent and a vendor state.
theorem marked_context_recovered :
    let ctx : SpanContext :=
      ⟨.ofNat 16 0xa1, .ofNat 8 0xb2, some (.ofNat 8 0xc3), ⟨0xff⟩, some "congo=t61rcWkgMzE"⟩
    w3c.Recovers w3c Metadata.empty ctx { ctx with parent := none } ∧
      (b3 .multi).Recovers (b3 .single) Metadata.empty ctx
        ⟨.ofNat 16 0xa1, .ofNat 8 0xb2, some (.ofNat 8 0xc3), ⟨1⟩, none⟩ := by
  intro ctx
  have hstate : ∀ state, ctx.state = some state → state ≠ "" ∧ IsVisible state := by
    intro state h
    cases h
    decide
  have hsampled : TraceFlags.ofSampled ctx.sampled = ⟨1⟩ := by decide
  obtain ⟨hw3c, hb3⟩ := extract_undoes_inject ctx (by decide) (by decide)
  have hmulti := (hb3 (by decide) .multi .single).2
  rw [hsampled] at hmulti
  exact ⟨(hw3c hstate).2, hmulti⟩

end Propagator

end CallTrace
