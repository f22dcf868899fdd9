import CallTrace.Context.Traceparent
import CallTrace.Proofs.Digits

/-!
# Reading and writing traceparents

Which texts are read as a span context, and why any other is refused, is told of the fields of the
text.  What is written is one text for each context, and reading takes every text that is accepted
to the context whose text this is.
-/

namespace CallTrace

/-! ## What is accepted -/

namespace Traceparent

/-- What can be wrong with the fields of a text, for each reason to refuse it. -/
def HasFlaw (fields : List (List Char)) : ContextError → Prop
  | .malformed => fields.length < 4 ∨ (fields[0]? = some ['0', '0'] ∧ 4 < fields.length)
  | .unsupportedVersion => fields[0]? = some ['f', 'f'] ∨ ¬Hex.IsField 2 (fields.getD 0 [])
  | .invalidTraceId => ¬Hex.IsIdentifier 32 (fields.getD 1 [])
  | .invalidSpanId => ¬Hex.IsIdentifier 16 (fields.getD 2 [])
  | .invalidFlags => ¬Hex.IsField 2 (fields.getD 3 [])

instance (fields : List (List Char)) : DecidablePred (HasFlaw fields)
  | .malformed => inferInstanceAs (Decidable (_ ∨ _))
  | .unsupportedVersion => inferInstanceAs (Decidable (_ ∨ _))
  | .invalidTraceId | .invalidSpanId | .invalidFlags => inferInstanceAs (Decidable (¬_))

/-- The first reason to refuse a text with these fields. -/
def flaw? (fields : List (List Char)) : Option ContextError :=
  ContextError.all.find? fun e => HasFlaw fields e

end Traceparent

/-- A context that is what the fields of a text stand for; fields after the fourth do not count. -/
structure SpanContext.SpeltBy (ctx : SpanContext) (fields : List (List Char)) : Prop where
  trace : bigEndian ctx.traceId.bytes = Hex.number (fields.getD 1 [])
  span : bigEndian ctx.spanId.bytes = Hex.number (fields.getD 2 [])
  flags : ctx.flags.byte.toNat = Hex.number (fields.getD 3 [])
  parent : ctx.parent = none
  state : ctx.state = none

namespace Traceparent

theorem knownVersion_iff (version : List Char) :
    knownVersion version = true ↔ version ≠ ['f', 'f'] ∧ Hex.IsField 2 version := by
  simp [knownVersion, Hex.IsField, and_comm]

theorem ofFields_of_short {fields : List (List Char)} (h : fields.length < 4) :
    ofFields fields = .error .malformed := by
  match fields, h with
  | [], _ | [_], _ | [_, _], _ | [_, _, _], _ => rfl
  | _ :: _ :: _ :: _ :: _, h => simp at h; omega

theorem exists_fields {fields : List (List Char)} (h : ¬fields.length < 4) :
    ∃ version trace span flags later, fields = version :: trace :: span :: flags :: later := by
  match fields, h with
  | version :: trace :: span :: flags :: later, _ => exact ⟨_, _, _, _, _, rfl⟩
  | [], h | [_], h | [_, _], h | [_, _, _], h => simp at h

section

variable {version trace span flags : List Char} {later : List (List Char)}

theorem hasFlaw_malformed_iff :
    HasFlaw (version :: trace :: span :: flags :: later) .malformed ↔
      version = ['0', '0'] ∧ later ≠ [] := by
  have hshort : ¬(version :: trace :: span :: flags :: later).length < 4 := by simp
  have hlong : 4 < (version :: trace :: span :: flags :: later).length ↔ later ≠ [] := by
    rw [← List.length_pos_iff]
    simp
  rw [HasFlaw, or_iff_right hshort, hlong]
  simp

theorem hasFlaw_unsupportedVersion_iff {rest : List (List Char)} :
    HasFlaw (version :: rest) .unsupportedVersion ↔ knownVersion version = false := by
  rw [← Bool.not_eq_true, knownVersion_iff, not_and_or, not_not]
  simp [HasFlaw]

theorem hasFlaw_invalidTraceId_iff :
    HasFlaw (version :: trace :: span :: flags :: later) .invalidTraceId ↔
      ¬∃ id : TraceId, Id.ofDigits? trace = some id :=
  not_congr (Id.exists_ofDigits?_iff (n := 16)).symm

theorem hasFlaw_invalidSpanId_iff :
    HasFlaw (version :: trace :: span :: flags :: later) .invalidSpanId ↔
      ¬∃ id : SpanId, Id.ofDigits? span = some id :=
  not_congr (Id.exists_ofDigits?_iff (n := 8)).symm

theorem hasFlaw_invalidFlags_iff :
    HasFlaw (version :: trace :: span :: flags :: later) .invalidFlags ↔
      ¬∃ bits, TraceFlags.ofDigits? flags = some bits :=
  not_congr TraceFlags.exists_ofDigits?_iff.symm

theorem ofFields_of_unknown
    (hlater : ¬HasFlaw (version :: trace :: span :: flags :: later) .malformed)
    (hversion : HasFlaw (version :: trace :: span :: flags :: later) .unsupportedVersion) :
    ofFields (version :: trace :: span :: flags :: later) = .error .unsupportedVersion := by
  rw [hasFlaw_malformed_iff] at hlater
  rw [hasFlaw_unsupportedVersion_iff] at hversion
  rw [ofFields, if_neg hlater, hversion]
  rfl

-- Of a version that is known the identifiers and the flags are read, in this order.
theorem ofFields_of_known
    (hlater : ¬HasFlaw (version :: trace :: span :: flags :: later) .malformed)
    (hversion : ¬HasFlaw (version :: trace :: span :: flags :: later) .unsupportedVersion) :
    ofFields (version :: trace :: span :: flags :: later) =
      (require .invalidTraceId (Id.ofDigits? trace)).bind fun traceId =>
        (require .invalidSpanId (Id.ofDigits? span)).bind fun spanId =>
          (require .invalidFlags (TraceFlags.ofDigits? flags)).map fun flags =>
            ⟨traceId, spanId, none, flags, none⟩ := by
  rw [hasFlaw_malformed_iff] at hlater
  rw [hasFlaw_unsupportedVersion_iff, Bool.not_eq_false] at hversion
  rw [ofFields, if_neg hlater, hversion]
  simp only [Bool.not_true, Bool.false_eq_true, if_false]
  cases Id.ofDigits? (n := 16) trace with
  | none => rfl
  | some traceId =>
    cases Id.ofDigits? (n := 8) span with
    | none => rfl
    | some spanId => cases TraceFlags.ofDigits? flags <;> rfl

end

theorem require_eq_error {α : Type} {e : ContextError} {a : Option α} (h : ¬∃ x, a = some x) :
    require e a = .error e := by
  cases a with
  | none => rfl
  | some x => exact absurd ⟨x, rfl⟩ h

theorem find?_cons_decide {α : Type} (p : α → Prop) [DecidablePred p] (a : α) (as : List α) :
    (a :: as).find? (fun x => p x) = if p a then some a else as.find? fun x => p x := by
  by_cases h : p a
  · rw [if_pos h, List.find?_cons_of_pos (by simpa using h)]
  · rw [if_neg h, List.find?_cons_of_neg (by simpa using h)]

theorem flaw?_eq (fields : List (List Char)) :
    flaw? fields =
      if HasFlaw fields .malformed then some .malformed
      else if HasFlaw fields .unsupportedVersion then some .unsupportedVersion
      else if HasFlaw fields .invalidTraceId then some .invalidTraceId
      else if HasFlaw fields .invalidSpanId then some .invalidSpanId
      else if HasFlaw fields .invalidFlags then some .invalidFlags
      else none := by
  simp only [flaw?, ContextError.all, find?_cons_decide, List.find?_nil]

/-- Fields are refused for the first flaw that they have, and read if they have none. -/
theorem ofFields_of_flaw? (fields : List (List Char)) :
    match flaw? fields with
    | some e => ofFields fields = .error e
    | none => ∃ ctx, ofFields fields = .ok ctx ∧ ctx.SpeltBy fields := by
  rw [flaw?_eq]
  by_cases hshort : fields.length < 4
  · rw [if_pos (.inl hshort)]
    exact ofFields_of_short hshort
  obtain ⟨version, trace, span, flags, later, rfl⟩ := exists_fields hshort
  -- Each flaw counts once there is none before it.
  by_cases hmalformed : HasFlaw (version :: trace :: span :: flags :: later) .malformed
  · rw [if_pos hmalformed]
    exact if_pos (hasFlaw_malformed_iff.1 hmalformed)
  by_cases hversion : HasFlaw (version :: trace :: span :: flags :: later) .unsupportedVersion
  · rw [if_neg hmalformed, if_pos hversion]
    exact ofFields_of_unknown hmalformed hversion
  rw [if_neg hmalformed, if_neg hversion, ofFields_of_known hmalformed hversion]
  by_cases htrace : HasFlaw (version :: trace :: span :: flags :: later) .invalidTraceId
  · rw [if_pos htrace, require_eq_error (hasFlaw_invalidTraceId_iff.1 htrace)]
    rfl
  obtain ⟨traceId, htraceId⟩ := not_not.1 (hasFlaw_invalidTraceId_iff.not.1 htrace)
  rw [if_neg htrace, htraceId]
  by_cases hspan : HasFlaw (version :: trace :: span :: flags :: later) .invalidSpanId
  · rw [if_pos hspan, require_eq_error (hasFlaw_invalidSpanId_iff.1 hspan)]
    rfl
  obtain ⟨spanId, hspanId⟩ := not_not.1 (hasFlaw_invalidSpanId_iff.not.1 hspan)
  rw [if_neg hspan, hspanId]
  by_cases hflags : HasFlaw (version :: trace :: span :: flags :: later) .invalidFlags
  · rw [if_pos hflags, require_eq_error (hasFlaw_invalidFlags_iff.1 hflags)]
    rfl
  obtain ⟨bits, hbits⟩ := not_not.1 (hasFlaw_invalidFlags_iff.not.1 hflags)
  rw [if_neg hflags, hbits]
  exact ⟨_, rfl, (Id.ofDigits?_eq_some_iff.1 htraceId).2, (Id.ofDigits?_eq_some_iff.1 hspanId).2,
    (TraceFlags.ofDigits?_eq_some_iff.1 hbits).2, rfl, rfl⟩

theorem flaw?_eq_none_iff {fields : List (List Char)} :
    flaw? fields = none ↔ ∀ e, ¬HasFlaw fields e := by
  have hall : ∀ e, e ∈ ContextError.all := by
    intro e
    cases e <;> decide
  simp [flaw?, List.find?_eq_none, hall]

end Traceparent

-- Fields spell one context at most.
theorem SpanContext.SpeltBy.unique {ctx ctx' : SpanContext} {fields : List (List Char)}
    (h : ctx.SpeltBy fields) (h' : ctx'.SpeltBy fields) : ctx = ctx' := by
  have htrace := Id.eq_of_bigEndian_bytes (h.trace.trans h'.trace.symm)
  have hspan := Id.eq_of_bigEndian_bytes (h.span.trans h'.span.symm)
  have hflags := UInt8.toNat_inj.1 (h.flags.trans h'.flags.symm)
  have hparent := h.parent.trans h'.parent.symm
  have hstate := h.state.trans h'.state.symm
  obtain ⟨_, _, _, ⟨_⟩, _⟩ := ctx
  obtain ⟨_, _, _, ⟨_⟩, _⟩ := ctx'
  cases htrace; cases hspan; cases hflags; cases hparent; cases hstate
  rfl

namespace SpanContext

open Traceparent

/--
A text is read or refused by the fields between its dashes, blanks at its ends apart.  It is refused
for the first flaw that the fields have, in the order of the reasons.  If they have none it is read,
as the context that they spell.
-/
theorem traceparent_read_iff (s : String) :
    let fields := Fields.split '-' (trim s.toList)
    (∀ e, ofTraceparent s = .error e ↔
        ContextError.all.find? (fun e => HasFlaw fields e) = some e) ∧
      (∀ ctx, ofTraceparent s = .ok ctx ↔ (∀ e, ¬HasFlaw fields e) ∧ ctx.SpeltBy fields) ∧
      ((∃ ctx, ofTraceparent s = .ok ctx) ↔ ∀ e, ¬HasFlaw fields e) := by
  intro fields
  show (∀ e, ofFields fields = .error e ↔ flaw? fields = some e) ∧
    (∀ ctx, ofFields fields = .ok ctx ↔ _) ∧ ((∃ ctx, ofFields fields = .ok ctx) ↔ _)
  simp only [← flaw?_eq_none_iff]
  have hfirst := ofFields_of_flaw? fields
  cases hflaw : flaw? fields with
  | some e =>
    rw [hflaw] at hfirst
    simp [hfirst]
  | none =>
    rw [hflaw] at hfirst
    obtain ⟨ctx, hread, hspelt⟩ := hfirst
    refine ⟨by simp [hread], fun ctx' => ?_, by simp [hread]⟩
    rw [hread, Except.ok.injEq]
    constructor
    · rintro rfl
      exact ⟨rfl, hspelt⟩
    · exact fun h => hspelt.unique h.2

end SpanContext

/-! ## The written form -/

namespace Traceparent

/-- The form in which traceparents are written. -/
structure IsCanonical (s : String) : Prop where
  length : s.length = 55
  version : ['0', '0', '-'] <+: s.toList
  characters : ∀ c ∈ s.toList, c = '-' ∨ c ∈ Hex.lowercaseDigits

theorem isCanonical_traceparent (ctx : SpanContext) : IsCanonical ctx.traceparent where
  length := by
    have hflags : ctx.flags.digits.length = 2 := rfl
    rw [SpanContext.traceparent, String.length_ofList]
    simp [chars, Fields.join, hflags]
  version := by
    rw [SpanContext.traceparent, String.toList_ofList]
    exact ⟨_, rfl⟩
  characters := by
    rw [SpanContext.traceparent, String.toList_ofList]
    exact forall_mem_chars (by decide) (by decide) ctx

-- What was read of the fields of a text that was accepted.
theorem ofFields_eq_ok {fields : List (List Char)} {ctx : SpanContext}
    (h : ofFields fields = .ok ctx) :
    ∃ version trace span flags later, fields = version :: trace :: span :: flags :: later ∧
      (version = ['0', '0'] → later = []) ∧ Id.ofDigits? trace = some ctx.traceId ∧
      Id.ofDigits? span = some ctx.spanId ∧ TraceFlags.ofDigits? flags = some ctx.flags ∧
      ctx.parent = none ∧ ctx.state = none := by
  have hflaw : flaw? fields = none := by
    have hfirst := ofFields_of_flaw? fields
    cases hfound : flaw? fields with
    | none => rfl
    | some e => simp [hfound, h] at hfirst
  rw [flaw?_eq_none_iff] at hflaw
  obtain ⟨version, trace, span, flags, later, rfl⟩ := exists_fields fun hshort =>
    hflaw .malformed (.inl hshort)
  rw [ofFields_of_known (hflaw .malformed) (hflaw .unsupportedVersion)] at h
  have hlater := hasFlaw_malformed_iff.not.1 (hflaw .malformed)
  push Not at hlater
  refine ⟨version, trace, span, flags, later, rfl, hlater, ?_⟩
  cases htrace : Id.ofDigits? (n := 16) trace with
  | none => simp [htrace, require, Except.bind] at h
  | some traceId =>
    cases hspan : Id.ofDigits? (n := 8) span with
    | none => simp [htrace, hspan, require, Except.bind] at h
    | some spanId =>
      cases hflags : TraceFlags.ofDigits? flags with
      | none => simp [htrace, hspan, hflags, require, Except.bind, Except.map] at h
      | some bits =>
        simp only [htrace, hspan, hflags, require, Except.bind, Except.map, Except.ok.injEq] at h
        subst h
        exact ⟨rfl, rfl, rfl, rfl, rfl⟩

-- Blanks around what is written are cut off again.
theorem trim_padded (ctx : SpanContext) {before after : String}
    (hbefore : ∀ c ∈ before.toList, isBlank c = true)
    (hafter : ∀ c ∈ after.toList, isBlank c = true) :
    trim (before ++ ctx.traceparent ++ after).toList = chars ctx := by
  rw [String.toList_append, String.toList_append, SpanContext.traceparent, String.toList_ofList]
  exact trim_append hbefore (forall_mem_chars (by decide) (by decide) ctx) hafter

end Traceparent

namespace SpanContext

open Traceparent

theorem ofTraceparent_padded (ctx : SpanContext) {before after : String}
    (hbefore : ∀ c ∈ before.toList, isBlank c = true)
    (hafter : ∀ c ∈ after.toList, isBlank c = true) :
    ofTraceparent (before ++ ctx.traceparent ++ after) = ofTraceparent ctx.traceparent := by
  have hpadded := trim_padded ctx hbefore hafter
  have hplain : trim ("" ++ ctx.traceparent ++ "").toList = chars ctx :=
    trim_padded ctx (by simp) (by simp)
  rw [String.empty_append, String.append_empty] at hplain
  rw [ofTraceparent, ofTraceparent, ofChars, ofChars, hpadded, hplain]

-- A context that was read is read again from its own text.
theorem ofTraceparent_traceparent_of_read {s : String} {ctx : SpanContext}
    (h : ofTraceparent s = .ok ctx) : ofTraceparent ctx.traceparent = .ok ctx := by
  obtain ⟨_, _, _, _, _, -, -, htrace, hspan, -, hparent, hstate⟩ := ofFields_eq_ok h
  rw [ofTraceparent_traceparent, if_neg (Id.digits_of_ofDigits? htrace).2,
    if_neg (Id.digits_of_ofDigits? hspan).2, ← hparent, ← hstate]

-- A canonical text that is accepted is the text of its context.
theorem traceparent_of_canonical {s : String} {ctx : SpanContext} (h : ofTraceparent s = .ok ctx)
    (hs : IsCanonical s) : ctx.traceparent = s := by
  have hblank : ∀ c ∈ s.toList, isBlank c = false := by
    have hlower : ∀ c ∈ Hex.lowercaseDigits, isBlank c = false :=
      List.forall_iff_forall_mem.1 (by decide)
    intro c hc
    rcases hs.characters c hc with rfl | hdigit
    · rfl
    · exact hlower c hdigit
  have hread : ofFields (Fields.split '-' s.toList) = .ok ctx := by
    rw [← trim_of_none hblank]
    exact h
  obtain ⟨version, trace, span, flags, later, hfields, hlater, htrace, hspan, hflags, -, -⟩ :=
    ofFields_eq_ok hread
  have hversion : version = ['0', '0'] := by
    obtain ⟨rest, hrest⟩ := hs.version
    have hsplit : Fields.split '-' s.toList = ['0', '0'] :: Fields.split '-' rest := by
      have hdigits : '-' ∉ ['0', '0'] := by decide
      rw [← hrest]
      exact Fields.split_append_cons hdigits rest
    rw [hfields] at hsplit
    exact (List.cons.inj hsplit).1
  -- The fields are in lowercase already.
  have hlower : ∀ field ∈ Fields.split '-' s.toList, field.map Hex.lower = field := by
    intro field hfield
    apply Hex.map_lower_of_lowercase
    intro c hc
    rcases hs.characters c (Fields.mem_of_mem_split hfield hc).1 with rfl | hdigit
    · exact absurd rfl (Fields.mem_of_mem_split hfield hc).2
    · exact hdigit
  rw [hfields, hversion, hlater hversion] at hlower
  have hchars : chars ctx = Fields.join '-' (Fields.split '-' s.toList) := by
    rw [chars, (Id.digits_of_ofDigits? htrace).1, (Id.digits_of_ofDigits? hspan).1,
      TraceFlags.digits_of_ofDigits? hflags, hlower trace (by simp), hlower span (by simp),
      hlower flags (by simp), hfields, hversion, hlater hversion]
  rw [traceparent, hchars, Fields.join_split, String.ofList_toList]

/--
What is written of a context reads, whatever blanks are around it, as the context without its parent
and its state, unless an identifier is zero.  Every text that is accepted, of any version, is taken
by reading and writing to the one canonical text of its context.
-/
theorem written_form_is_canonical :
    (∀ (ctx : SpanContext) (before after : String), (∀ c ∈ before.toList, isBlank c = true) →
      (∀ c ∈ after.toList, isBlank c = true) →
      ofTraceparent (before ++ ctx.traceparent ++ after) =
        if ctx.traceId = .zero then .error .invalidTraceId
        else if ctx.spanId = .zero then .error .invalidSpanId
        else .ok { ctx with parent := none, state := none }) ∧
    ∀ (s : String) (ctx : SpanContext), ofTraceparent s = .ok ctx →
      IsCanonical ctx.traceparent ∧ ofTraceparent ctx.traceparent = .ok ctx ∧
      (ctx.traceparent = s ↔ IsCanonical s) ∧
      ∀ (s' : String) (ctx' : SpanContext), ofTraceparent s' = .ok ctx' →
        (ctx = ctx' ↔ ctx.traceparent = ctx'.traceparent) := by
  refine ⟨fun ctx before after hbefore hafter => ?_, fun s ctx h => ⟨?_, ?_, ?_, ?_⟩⟩
  · rw [ofTraceparent_padded ctx hbefore hafter, ofTraceparent_traceparent]
  · exact isCanonical_traceparent ctx
  · exact ofTraceparent_traceparent_of_read h
  · constructor
    · rintro rfl
      exact isCanonical_traceparent ctx
    · exact traceparent_of_canonical h
  · intro s' ctx' h'
    constructor
    · exact congrArg traceparent
    · intro hsame
      have hread := ofTraceparent_traceparent_of_read h
      rw [hsame, ofTraceparent_traceparent_of_read h'] at hread
      exact (Except.ok.inj hread).symm

-- A text of a later version, in uppercase and with blanks, is taken to the canonical text.
theorem later_version_is_rewritten :
    let s := " 7F-4BF92F3577B34DA6A3CE929D0E0E4736-00F067AA0BA902B7-01-x\n"
    let ctx : SpanContext :=
      ⟨.ofNat 16 0x4bf92f3577b34da6a3ce929d0e0e4736, .ofNat 8 0x00f067aa0ba902b7, none, ⟨1⟩, none⟩
    ofTraceparent s = .ok ctx ∧ IsCanonical ctx.traceparent ∧
      ofTraceparent ("\u2003" ++ ctx.traceparent ++ "\t") = .ok ctx := by
  intro s ctx
  have hread : ofTraceparent s = .ok ctx := by decide +kernel
  obtain ⟨hpadded, hwritten⟩ := written_form_is_canonical
  refine ⟨hread, (hwritten s ctx hread).1, ?_⟩
  rw [hpadded ctx "\u2003" "\t" (by simp [isBlank]) (by simp [isBlank]), if_neg (by decide),
    if_neg (by decide)]

end SpanContext

end CallTrace
