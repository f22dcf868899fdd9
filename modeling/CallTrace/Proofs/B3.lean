import CallTrace.Proofs.LetterCase
import CallTrace.Proofs.RoundTrip

/-!
# Reading B3 headers

Both forms of B3 headers name a span by the same parts: a trace, the span itself, a sampling state
and a parent.  Which parts are read as a context, and why others are refused, is told here without
the reader.  Carriers with the same parts are read alike, whichever form they use.
-/

namespace CallTrace

namespace B3

/-! ## Parts -/

/-- What names a span, as texts. -/
structure Parts where
  trace : List Char
  span : List Char
  state : Option (List Char) := none
  parent : Option (List Char) := none
deriving DecidableEq, Repr

/-- The digits of a trace: all thirty-two, or only the lower sixteen. -/
def IsTrace (digits : List Char) : Prop := Hex.IsIdentifier 16 digits ∨ Hex.IsIdentifier 32 digits

-- Digits with zeros before them, thirty-two in all.
def filled (digits : List Char) : List Char := List.replicate (32 - digits.length) '0' ++ digits

/-- A state that says yes: `1`, `d`, or `true` in any case.  No state says yes, too. -/
def IsSampled (state : Option (List Char)) : Prop :=
  ∀ text ∈ state, text = ['1'] ∨ text = ['d'] ∨
    List.Forall₂ (fun c d => c = d ∨ c = d.toUpper) text ['t', 'r', 'u', 'e']

-- The states that the single header may have alone.
def bareStates : List (List Char) := [['0'], ['1'], ['d']]

namespace Parts

/-- Two to four fields are parts, in the order trace, span, state, parent. -/
def ofFields? : List (List Char) → Option Parts
  | [trace, span] => some { trace, span }
  | [trace, span, state] => some { trace, span, state := some state }
  | [trace, span, state, parent] => some { trace, span, state := some state, parent := some parent }
  | _ => none

/-- The parts in several headers; of these a trace and a span are there. -/
def ofHeaders (get? : String → Option String) (trace span : String) : Parts where
  trace := trace.toList
  span := span.toList
  state := (get? sampled).map String.toList
  parent := (get? parentSpanId).map String.toList

/-- Parts that are read: the identifiers among them are hexadecimal and not zero. -/
structure Fit (parts : Parts) : Prop where
  trace : IsTrace parts.trace
  span : Hex.IsIdentifier 16 parts.span
  parent : ∀ digits ∈ parts.parent, Hex.IsIdentifier 16 digits

/-- The context that parts name, perhaps with a debug flag beside them. -/
structure Names (parts : Parts) (debug : Prop) (ctx : SpanContext) : Prop where
  trace : bigEndian ctx.traceId.bytes = Hex.number (filled parts.trace)
  span : bigEndian ctx.spanId.bytes = Hex.number parts.span
  parent : ctx.parent.map (fun id => bigEndian id.bytes) = parts.parent.map Hex.number
  flags : ctx.flags = ⟨0⟩ ∨ ctx.flags = ⟨1⟩
  sampled : ctx.sampled = true ↔ debug ∨ IsSampled parts.state
  state : ctx.state = none

/-- What becomes of parts: they are read if they are fit.  Of those that are not, the trace is found
fault with first, then the span or the parent. -/
structure Outcome (parts : Parts) (debug : Prop) (result : Except Error (Option SpanContext)) :
    Prop where
  accepted_iff : (∃ ctx, result = .ok (some ctx)) ↔ parts.Fit
  context_iff (ctx : SpanContext) : result = .ok (some ctx) ↔ parts.Fit ∧ parts.Names debug ctx
  trace_iff : result = .error (.ofContext .invalidTraceId) ↔ ¬IsTrace parts.trace
  span_iff : result = .error (.ofContext .invalidSpanId) ↔ IsTrace parts.trace ∧ ¬parts.Fit

end Parts

/-! ## Traces and states -/

-- Zeros before the digits of a trace do not count.
theorem isIdentifier_widen (digits : List Char) :
    Hex.IsIdentifier 32 (widen digits) ↔ IsTrace digits := by
  unfold widen IsTrace
  by_cases hlength : digits.length = 16
  · have hlong : ¬Hex.IsIdentifier 32 digits := by
      intro h
      have hother := h.1.1
      omega
    rw [if_pos hlength, or_iff_left hlong]
    simp only [Hex.IsIdentifier, Hex.IsField, List.length_append, List.length_replicate,
      List.mem_append, List.mem_replicate]
    constructor
    · rintro ⟨⟨-, hdigits⟩, c, ⟨-, rfl⟩ | hc, hne⟩
      · exact absurd rfl hne
      · exact ⟨⟨hlength, fun d hd => hdigits d (.inr hd)⟩, c, hc, hne⟩
    · rintro ⟨⟨-, hdigits⟩, c, hc, hne⟩
      refine ⟨⟨by omega, ?_⟩, c, .inr hc, hne⟩
      rintro d (⟨-, rfl⟩ | hd)
      · decide
      · exact hdigits d hd
  · have hshort : ¬Hex.IsIdentifier 16 digits := fun h => hlength h.1.1
    rw [if_neg hlength, or_iff_right hshort]

theorem widen_eq_filled {digits : List Char} (h : IsTrace digits) :
    widen digits = filled digits := by
  unfold widen filled
  rcases h with h | h
  · rw [if_pos h.1.1, h.1.1]
  · rw [if_neg (by rw [h.1.1]; decide), h.1.1]
    rfl

theorem isSampled_iff (state : Option (List Char)) :
    state.all isSampledState = true ↔ IsSampled state := by
  have hstate (text : List Char) : isSampledState text = true ↔ text = ['1'] ∨ text = ['d'] ∨
      List.Forall₂ (fun c d => c = d ∨ c = d.toUpper) text ['t', 'r', 'u', 'e'] := by
    have hletters : ∀ d ∈ ['t', 'r', 'u', 'e'], 97 ≤ d.toNat ∧ d.toNat ≤ 122 := by simp
    rw [← map_eq_iff_forall₂ fun d hd _ => toLower_eq_iff (hletters d hd).1 (hletters d hd).2]
    simp [isSampledState, or_assoc]
  unfold IsSampled
  cases state with
  | none => simp
  | some text => simp [hstate]

/-! ## Reading parts -/

namespace Parts

variable {parts : Parts}

/-- Parts as both forms read them. -/
def read (parts : Parts) (debug : Bool) : Except ContextError (Option SpanContext) :=
  (identity parts.trace parts.span parts.parent (debug || parts.state.all isSampledState)).map some

theorem read_of_bad_trace (h : ¬IsTrace parts.trace) (debug : Bool) :
    parts.read debug = .error .invalidTraceId := by
  rw [← isIdentifier_widen, ← Id.exists_ofDigits?_iff (n := 16)] at h
  rw [read, identity_eq, Traceparent.require_eq_error h]
  rfl

theorem read_of_bad_span (htrace : IsTrace parts.trace) (h : ¬parts.Fit) (debug : Bool) :
    parts.read debug = .error .invalidSpanId := by
  obtain ⟨traceId, htraceId⟩ := (Id.exists_ofDigits?_iff (n := 16)).2
    ((isIdentifier_widen parts.trace).2 htrace)
  rw [read, identity_eq, htraceId]
  by_cases hspan : Hex.IsIdentifier 16 parts.span
  · obtain ⟨spanId, hspanId⟩ := (Id.exists_ofDigits?_iff (n := 8)).2 hspan
    rw [hspanId]
    -- With a fit trace and a fit span there is a parent, and it is at fault.
    cases hparent : parts.parent with
    | none => exact absurd ⟨htrace, hspan, by simp [hparent]⟩ h
    | some digits =>
      have hdigits : ¬Hex.IsIdentifier 16 digits := fun hd =>
        h ⟨htrace, hspan, by simpa [hparent] using hd⟩
      rw [← Id.exists_ofDigits?_iff (n := 8)] at hdigits
      rw [parentOf, Traceparent.require_eq_error hdigits]
      rfl
  · rw [← Id.exists_ofDigits?_iff (n := 8)] at hspan
    rw [Traceparent.require_eq_error hspan]
    rfl

theorem parentOf_of_fit {parent : Option (List Char)}
    (h : ∀ digits ∈ parent, Hex.IsIdentifier 16 digits) :
    ∃ id, parentOf parent = .ok id ∧
      id.map (fun id => bigEndian id.bytes) = parent.map Hex.number := by
  cases parent with
  | none => exact ⟨none, rfl, rfl⟩
  | some digits =>
    obtain ⟨id, hid⟩ := (Id.exists_ofDigits?_iff (n := 8)).2 (h digits rfl)
    refine ⟨some id, by rw [parentOf, hid]; rfl, ?_⟩
    rw [Option.map_some, Option.map_some, (Id.ofDigits?_eq_some_iff.1 hid).2]

theorem read_of_fit (h : parts.Fit) (debug : Bool) :
    ∃ ctx, parts.read debug = .ok (some ctx) ∧ parts.Names (debug = true) ctx := by
  obtain ⟨traceId, htraceId⟩ := (Id.exists_ofDigits?_iff (n := 16)).2
    ((isIdentifier_widen parts.trace).2 h.trace)
  obtain ⟨spanId, hspanId⟩ := (Id.exists_ofDigits?_iff (n := 8)).2 h.span
  obtain ⟨parent, hparent, hnumber⟩ := parentOf_of_fit h.parent
  refine ⟨_, by rw [read, identity_eq, htraceId, hspanId, hparent]; rfl, ?_⟩
  exact {
    trace := by rw [← widen_eq_filled h.trace, (Id.ofDigits?_eq_some_iff.1 htraceId).2]
    span := (Id.ofDigits?_eq_some_iff.1 hspanId).2
    parent := hnumber
    flags := by
      cases debug || parts.state.all isSampledState
      · exact .inl rfl
      · exact .inr rfl
    sampled := by
      rw [← isSampled_iff, ← Bool.or_eq_true]
      exact Bool.eq_iff_iff.1 (TraceFlags.sampled_ofSampled _)
    state := rfl }

theorem read_cases (parts : Parts) (debug : Bool) :
    (∃ ctx, parts.read debug = .ok (some ctx)) ∨ parts.read debug = .error .invalidTraceId ∨
      parts.read debug = .error .invalidSpanId := by
  by_cases htrace : IsTrace parts.trace
  · by_cases hfit : parts.Fit
    · obtain ⟨ctx, hread, -⟩ := read_of_fit hfit debug
      exact .inl ⟨ctx, hread⟩
    · exact .inr (.inr (read_of_bad_span htrace hfit debug))
  · exact .inr (.inl (read_of_bad_trace htrace debug))

-- Parts name one context at most.
theorem Names.unique {debug : Prop} {ctx ctx' : SpanContext} (h : parts.Names debug ctx)
    (h' : parts.Names debug ctx') : ctx = ctx' := by
  have htrace := Id.eq_of_bigEndian_bytes (h.trace.trans h'.trace.symm)
  have hspan := Id.eq_of_bigEndian_bytes (h.span.trans h'.span.symm)
  have hparent : ctx.parent = ctx'.parent :=
    Option.map_injective (fun _ _ => Id.eq_of_bigEndian_bytes) (h.parent.trans h'.parent.symm)
  have hflags : ctx.flags = ctx'.flags := by
    have hsampled : ctx.flags.sampled = ctx'.flags.sampled :=
      Bool.eq_iff_iff.2 (h.sampled.trans h'.sampled.symm)
    rcases h.flags with hf | hf <;> rcases h'.flags with hf' | hf' <;> rw [hf, hf'] at hsampled ⊢ <;>
      revert hsampled <;> decide
  have hstate := h.state.trans h'.state.symm
  obtain ⟨_, _, _, _, _⟩ := ctx
  obtain ⟨_, _, _, _, _⟩ := ctx'
  cases htrace; cases hspan; cases hparent; cases hflags; cases hstate
  rfl

theorem outcome_read (parts : Parts) {debug : Bool} {P : Prop} (h : debug = true ↔ P) :
    parts.Outcome P ((parts.read debug).mapError Error.ofContext) := by
  obtain rfl : (debug = true) = P := propext h
  by_cases htrace : IsTrace parts.trace
  · by_cases hfit : parts.Fit
    · obtain ⟨ctx, hread, hnames⟩ := read_of_fit hfit debug
      rw [hread]
      show parts.Outcome _ (.ok (some ctx))
      constructor
      · simpa using hfit
      · intro ctx'
        rw [Except.ok.injEq, Option.some.injEq]
        constructor
        · rintro rfl
          exact ⟨hfit, hnames⟩
        · exact fun h => hnames.unique h.2
      · simpa using htrace
      · simpa using fun _ => hfit
    · rw [read_of_bad_span htrace hfit]
      show parts.Outcome _ (.error (.ofContext .invalidSpanId))
      constructor <;> simp [hfit, htrace, Error.ofContext]
  · have hfit : ¬parts.Fit := fun h => htrace h.trace
    rw [read_of_bad_trace htrace]
    show parts.Outcome _ (.error (.ofContext .invalidTraceId))
    constructor <;> simp [hfit, htrace, Error.ofContext]

theorem ofFields?_eq_none_iff {fields : List (List Char)} :
    ofFields? fields = none ↔ fields.length < 2 ∨ 4 < fields.length := by
  match fields with
  | [] | [_] | [_, _] | [_, _, _] | [_, _, _, _] | _ :: _ :: _ :: _ :: _ :: _ => simp [ofFields?]

end Parts

/-! ## The single header -/

-- A state alone is the whole text, as it has no dash.
theorem split_mem_bareStates (text : List Char) :
    Fields.split '-' text ∈ bareStates.map ([·]) ↔ text ∈ bareStates := by
  have hdash : ∀ state ∈ bareStates, '-' ∉ state := by decide
  rw [List.mem_map]
  constructor
  · rintro ⟨state, hstate, heq⟩
    rw [(Fields.split_eq_singleton_iff.1 heq.symm).1]
    exact hstate
  · intro htext
    exact ⟨text, htext, (Fields.split_of_not_mem (hdash text htext)).symm⟩

theorem ofFields_of_parts {fields : List (List Char)} {parts : Parts}
    (h : Parts.ofFields? fields = some parts) : ofFields fields = parts.read false := by
  unfold Parts.ofFields? at h
  split at h <;> cases h <;> rfl

theorem ofFields_of_no_parts {fields : List (List Char)} (h : Parts.ofFields? fields = none) :
    ofFields fields =
      if fields ∈ bareStates.map ([·]) then .ok none else .error .malformed := by
  unfold ofFields
  split
  · simp [bareStates]
  · cases h
  · cases h
  · cases h
  · rename_i hstate _ _ _
    rw [if_neg]
    intro hbare
    obtain ⟨state, -, heq⟩ := List.mem_map.1 hbare
    exact hstate state heq.symm

section

variable {value : String}

theorem ofSingle_of_parts {parts : Parts}
    (h : Parts.ofFields? (Fields.split '-' (trim value.toList)) = some parts) :
    ofSingle value = parts.read false := ofFields_of_parts h

theorem ofSingle_of_no_parts
    (h : Parts.ofFields? (Fields.split '-' (trim value.toList)) = none) :
    ofSingle value = if trim value.toList ∈ bareStates then .ok none else .error .malformed := by
  rw [ofSingle, ofFields_of_no_parts h]
  simp only [split_mem_bareStates]

theorem not_bare_of_parts {parts : Parts}
    (h : Parts.ofFields? (Fields.split '-' (trim value.toList)) = some parts) :
    trim value.toList ∉ bareStates := by
  intro hbare
  obtain ⟨state, -, heq⟩ := List.mem_map.1 ((split_mem_bareStates _).2 hbare)
  rw [← heq] at h
  cases h

theorem ofSingle_eq_none_iff : ofSingle value = .ok none ↔ trim value.toList ∈ bareStates := by
  cases hparts : Parts.ofFields? (Fields.split '-' (trim value.toList)) with
  | some parts =>
    refine iff_of_false ?_ (not_bare_of_parts hparts)
    rw [ofSingle_of_parts hparts]
    rcases parts.read_cases false with ⟨ctx, h⟩ | h | h <;> simp [h]
  | none =>
    rw [ofSingle_of_no_parts hparts]
    split <;> simp_all

theorem ofSingle_malformed_iff :
    ofSingle value = .error .malformed ↔ trim value.toList ∉ bareStates ∧
      Parts.ofFields? (Fields.split '-' (trim value.toList)) = none := by
  cases hparts : Parts.ofFields? (Fields.split '-' (trim value.toList)) with
  | some parts =>
    refine iff_of_false ?_ (by simp)
    rw [ofSingle_of_parts hparts]
    rcases parts.read_cases false with ⟨ctx, h⟩ | h | h <;> simp [h]
  | none =>
    rw [ofSingle_of_no_parts hparts]
    split <;> simp_all

end

/-! ## Several headers -/

theorem read_of_several {get? : String → Option String} (hsingle : get? single = none)
    {trace span : String} (htrace : get? traceId = some trace) (hspan : get? spanId = some span) :
    B3.read get? = (Parts.ofHeaders get? trace span).read (get? flags == some "1") := by
  rw [B3.read, hsingle, htrace, hspan, Parts.read, Parts.ofHeaders]
  simp only [Option.all_map]

end B3

namespace Propagator

open B3

variable {κ : Type} [Readable κ]

/--
The single header decides if it is there: a bare state names no span, two to four fields are parts,
and any other text is malformed.  Without it the several headers decide: no trace names no span, a
trace without a span is malformed, and with both there are parts.  Blanks around the single header
do not count, and only the several headers have a debug flag.
-/
theorem b3_headers_decided (encoding : Encoding) (c : κ) :
    let result := (b3 encoding).extract c
    (∀ error, result = .error error → error.kind = .spanContextCorrupted) ∧
    match get? c single with
    | some value =>
      let text := trim value.toList
      let fields := Fields.split '-' text
      (result = .ok none ↔ text ∈ bareStates) ∧
      (result = .error (.ofContext .malformed) ↔
        text ∉ bareStates ∧ (fields.length < 2 ∨ 4 < fields.length)) ∧
      ∀ parts, Parts.ofFields? fields = some parts → parts.Outcome False result
    | none =>
      match get? c traceId, get? c spanId with
      | none, _ => result = .ok none
      | some _, none => result = .error (.ofContext .malformed)
      | some trace, some span =>
        (Parts.ofHeaders (get? c) trace span).Outcome (get? c flags = some "1") result := by
  intro result
  have hresult : result = (B3.read (get? c)).mapError Error.ofContext := rfl
  constructor
  · intro error herror
    obtain ⟨e, -, rfl⟩ := (extract_error_iff c).1 herror
    rfl
  cases hsingle : get? c single with
  | some value =>
    have hvalue : B3.read (get? c) = ofSingle value := by rw [B3.read, hsingle]
    refine ⟨?_, ?_, fun parts hparts => ?_⟩
    · rw [← ofSingle_eq_none_iff, ← hvalue]
      exact extract_ok_iff c
    · rw [← Parts.ofFields?_eq_none_iff, ← ofSingle_malformed_iff, ← hvalue]
      exact extract_ofContext_iff c
    · rw [hresult, hvalue, ofSingle_of_parts hparts]
      exact parts.outcome_read (by simp)
  | none =>
    cases htrace : get? c traceId with
    | none =>
      rw [hresult, B3.read, hsingle, htrace]
      rfl
    | some trace =>
      cases hspan : get? c spanId with
      | none =>
        rw [hresult, B3.read, hsingle, htrace, hspan]
        rfl
      | some span =>
        rw [hresult, read_of_several hsingle htrace hspan]
        exact Parts.outcome_read _ beq_iff_eq

-- Sixteen digits of a trace, without regard to case and with blanks around the header.
theorem short_trace_is_read :
    let c : TextMap := .ofList [("b3", " a3ce929d0e0e4736-00F067AA0BA902B7-TRUE\t")]
    (b3 .multi).extract c = .ok (some ⟨.ofNat 16 0x0000000000000000a3ce929d0e0e4736,
      .ofNat 8 0x00f067aa0ba902b7, none, ⟨1⟩, none⟩) := by
  intro c
  let parts : Parts :=
    ⟨"a3ce929d0e0e4736".toList, "00F067AA0BA902B7".toList, some "TRUE".toList, none⟩
  have hsingle : get? c single = some " a3ce929d0e0e4736-00F067AA0BA902B7-TRUE\t" := by decide
  have htrace : Hex.IsIdentifier 16 parts.trace :=
    (Id.exists_ofDigits?_iff (n := 8)).1 ⟨.ofNat 8 0xa3ce929d0e0e4736, by decide +kernel⟩
  have hspan : Hex.IsIdentifier 16 parts.span :=
    (Id.exists_ofDigits?_iff (n := 8)).1 ⟨.ofNat 8 0x00f067aa0ba902b7, by decide +kernel⟩
  have hfit : parts.Fit := ⟨.inl htrace, hspan, by simp [parts]⟩
  have hsampled : IsSampled parts.state := by
    rintro _ ⟨⟩
    exact .inr (.inr (by decide +kernel))
  obtain ⟨-, hdecided⟩ := b3_headers_decided .multi c
  simp only [hsingle] at hdecided
  refine ((hdecided.2.2 parts (by decide +kernel)).context_iff _).2 ⟨hfit, ?_⟩
  exact {
    trace := by decide +kernel
    span := by decide +kernel
    parent := rfl
    flags := .inr rfl
    sampled := iff_of_true rfl (.inr hsampled)
    state := rfl }

end Propagator

/-! ## Either form -/

namespace B3.Parts

def fields (parts : Parts) : List (List Char) :=
  [parts.trace, parts.span] ++ parts.state.toList ++ parts.parent.toList

-- The parts in one header, with dashes between them.
def inOne (parts : Parts) : List (String × String) :=
  [(single, String.ofList (Fields.join '-' parts.fields))]

-- The parts in a header each.
def inSeveral (parts : Parts) : List (String × String) :=
  [(traceId, String.ofList parts.trace), (spanId, String.ofList parts.span)] ++
    (parts.state.toList.map fun state => (sampled, String.ofList state)) ++
    parts.parent.toList.map fun parent => (parentSpanId, String.ofList parent)

/-- Parts that can stand in one header: no dash or blank is in them, and only after a state is there
a parent. -/
structure Separable (parts : Parts) : Prop where
  parent : parts.state = none → parts.parent = none
  dash : ∀ field ∈ parts.fields, '-' ∉ field
  blank : ∀ field ∈ parts.fields, ∀ c ∈ field, isBlank c = false

variable {parts : Parts}

theorem Separable.ofFields?_fields (h : parts.Separable) :
    ofFields? parts.fields = some parts := by
  have hparent := h.parent
  obtain ⟨trace, span, state, parent⟩ := parts
  cases state with
  | none =>
    obtain rfl : parent = none := hparent rfl
    rfl
  | some state => cases parent <;> rfl

theorem Separable.ofSingle_join (h : parts.Separable) :
    ofSingle (String.ofList (Fields.join '-' parts.fields)) = parts.read false := by
  apply ofSingle_of_parts
  rw [String.toList_ofList, trim_of_none (Fields.forall_mem_join (by decide) h.blank),
    Fields.split_join (by simp [fields]) h.dash, h.ofFields?_fields]

-- The several headers by their names.
theorem lookup_inSeveral (parts : Parts) :
    parts.inSeveral.lookup single = none ∧ parts.inSeveral.lookup flags = none ∧
      parts.inSeveral.lookup traceId = some (String.ofList parts.trace) ∧
      parts.inSeveral.lookup spanId = some (String.ofList parts.span) ∧
      parts.inSeveral.lookup sampled = parts.state.map String.ofList ∧
      parts.inSeveral.lookup parentSpanId = parts.parent.map String.ofList := by
  obtain ⟨trace, span, state, parent⟩ := parts
  cases state <;> cases parent <;> exact ⟨rfl, rfl, rfl, rfl, rfl, rfl⟩

theorem nodup_inSeveral (parts : Parts) : (parts.inSeveral.map (·.1)).Nodup := by
  obtain ⟨trace, span, state, parent⟩ := parts
  cases state <;> cases parent <;> simp [inSeveral, traceId, spanId, sampled, parentSpanId]

end B3.Parts

/-- The headers by their names, as a text map with no others has them. -/
theorem TextMap.find?_ofList {headers : List (String × String)}
    (h : (headers.map (·.1)).Nodup) (name : String) :
    (ofList headers).find? name = headers.lookup name := by
  suffices hfold : ∀ m : TextMap, (headers.foldl (fun m p => m.insert p.1 p.2) m).find? name =
      (headers.lookup name).or (m.find? name) by
    rw [ofList, hfold]
    exact Option.or_none
  induction headers with
  | nil => exact fun m => rfl
  | cons header rest ih =>
    obtain ⟨k, value⟩ := header
    obtain ⟨hk, hrest⟩ := List.nodup_cons.1 h
    intro m
    rw [List.foldl_cons, ih hrest, find?_insert, List.lookup_cons]
    by_cases hname : k = name
    · subst hname
      have hnone : rest.lookup k = none := by
        rw [List.lookup_eq_none_iff]
        intro p hp
        exact bne_iff_ne.2 fun heq => hk (heq ▸ List.mem_map.2 ⟨p, hp, rfl⟩)
      rw [hnone, if_pos rfl, beq_self_eq_true]
      rfl
    · have hne : (name == k) = false := beq_false_of_ne (Ne.symm hname)
      rw [if_neg hname, hne]

namespace Propagator

open B3

/-- The B3 headers of the carrier are these and no others. -/
def HoldsB3 {κ : Type} [Readable κ] (c : κ) (headers : List (String × String)) : Prop :=
  ∀ name ∈ (b3 .single).fields ++ (b3 .multi).fields, get? c name = headers.lookup name

section

variable {κ : Type} [Readable κ] {c : κ} {parts : Parts}

theorem read_of_inOne (h : parts.Separable) (hc : HoldsB3 c parts.inOne) :
    B3.read (get? c) = parts.read false := by
  have hvalue : get? c single = some (String.ofList (Fields.join '-' parts.fields)) :=
    hc single (by decide)
  rw [B3.read, hvalue]
  exact h.ofSingle_join

theorem read_of_inSeveral (hc : HoldsB3 c parts.inSeveral) :
    B3.read (get? c) = parts.read false := by
  obtain ⟨hsingle, hflags, htrace, hspan, hsampled, hparent⟩ := parts.lookup_inSeveral
  rw [← hc _ (by decide)] at hsingle hflags htrace hspan hsampled hparent
  have hparts : Parts.ofHeaders (get? c) (String.ofList parts.trace) (String.ofList parts.span) =
      parts := by
    have hid : String.toList ∘ String.ofList = id := funext fun cs => String.toList_ofList
    simp only [Parts.ofHeaders, hsampled, hparent, String.toList_ofList, Option.map_map, hid,
      Option.map_id, id]
  rw [read_of_several hsingle htrace hspan, hparts, hflags]
  rfl

end

theorem holdsB3_ofList {headers : List (String × String)} (h : (headers.map (·.1)).Nodup) :
    HoldsB3 (TextMap.ofList headers) headers := fun name _ => TextMap.find?_ofList h name

/--
The same parts, fit or not, are read alike from the single header and from several, by either
propagator: as the same context or with the same error.
-/
theorem b3_forms_read_alike (parts : Parts) (h : parts.Separable) (reader reader' : Encoding) :
    (∀ (κ κ' : Type) [Readable κ] [Readable κ'] (c : κ) (c' : κ'), HoldsB3 c parts.inOne →
      HoldsB3 c' parts.inSeveral → (b3 reader).extract c = (b3 reader').extract c') ∧
    (b3 reader).extract (TextMap.ofList parts.inOne) =
      (b3 reader').extract (TextMap.ofList parts.inSeveral) := by
  have halike (κ κ' : Type) [Readable κ] [Readable κ'] (c : κ) (c' : κ')
      (hc : HoldsB3 c parts.inOne) (hc' : HoldsB3 c' parts.inSeveral) :
      (b3 reader).extract c = (b3 reader').extract c' := by
    show (B3.read (get? c)).mapError Error.ofContext = (B3.read (get? c')).mapError Error.ofContext
    rw [read_of_inOne h hc, read_of_inSeveral hc']
  refine ⟨halike, halike _ _ _ _ (holdsB3_ofList ?_) (holdsB3_ofList parts.nodup_inSeveral)⟩
  exact List.pairwise_singleton _ single

-- A child's parts from metadata with one header and from a text map with four.
theorem b3_forms_of_child_read_alike :
    let parts : Parts := ⟨"a3ce929d0e0e4736".toList, "00F067AA0BA902B7".toList,
      some "TRUE".toList, some "000000000000000a".toList⟩
    (b3 .multi).extract (Metadata.empty.append (.of "b3")
        (Bytes.ofText "a3ce929d0e0e4736-00F067AA0BA902B7-TRUE-000000000000000a")) =
      (b3 .single).extract (TextMap.ofList parts.inSeveral) := by
  intro parts
  have hblank : (parts.fields.all fun field => field.all fun c => !isBlank c) = true := by
    decide +kernel
  have h : parts.Separable := ⟨by decide, by decide +kernel, by simpa using hblank⟩
  have hone : HoldsB3 (Metadata.empty.append (.of "b3")
      (Bytes.ofText "a3ce929d0e0e4736-00F067AA0BA902B7-TRUE-000000000000000a")) parts.inOne := by
    unfold HoldsB3
    decide +kernel
  exact (b3_forms_read_alike parts h .multi .single).1 _ _ _ _ hone
    (holdsB3_ofList parts.nodup_inSeveral)

end Propagator

end CallTrace
