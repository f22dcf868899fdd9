import CallTrace.Context.Basic
import CallTrace.Text.Blank
import CallTrace.Text.Fields

/-!
# The traceparent format

A version, a trace id, a span id and flags, in hexadecimal with dashes between them.  Version 00 has
exactly these fields; a later version may append others, which are passed over.  Writing always uses
version 00.
-/

namespace CallTrace

/-- Why a text is no span context; of several reasons the first in this order counts. -/
inductive ContextError
  | malformed
  | unsupportedVersion
  | invalidTraceId
  | invalidSpanId
  | invalidFlags
deriving DecidableEq, Repr

namespace ContextError

def all : List ContextError :=
  [malformed, unsupportedVersion, invalidTraceId, invalidSpanId, invalidFlags]

def message : ContextError → String
  | malformed => "malformed traceparent"
  | unsupportedVersion => "unsupported traceparent version"
  | invalidTraceId => "invalid trace id"
  | invalidSpanId => "invalid span id"
  | invalidFlags => "invalid trace flags"

def name : ContextError → String
  | malformed => "InvalidFormat"
  | unsupportedVersion => "UnsupportedVersion"
  | invalidTraceId => "InvalidTraceId"
  | invalidSpanId => "InvalidSpanId"
  | invalidFlags => "InvalidFlags"

def ofName? (name : String) : Option ContextError := all.find? (·.name == name)

@[simp] theorem ofName?_name (error : ContextError) : ofName? error.name = some error := by
  cases error <;> decide

end ContextError

def require {ε α : Type} (error : ε) : Option α → Except ε α
  | some a => .ok a
  | none => .error error

namespace Traceparent

/-- A version that can be read: two digits, and not the reserved one. -/
def knownVersion (version : List Char) : Bool :=
  version.length == 2 && version.all Hex.isDigit && version != ['f', 'f']

def ofFields : List (List Char) → Except ContextError SpanContext
  | version :: traceId :: spanId :: flags :: later =>
    if version = ['0', '0'] ∧ later ≠ [] then .error .malformed
    else if !knownVersion version then .error .unsupportedVersion
    else do
      let traceId ← require .invalidTraceId (Id.ofDigits? traceId)
      let spanId ← require .invalidSpanId (Id.ofDigits? spanId)
      let flags ← require .invalidFlags (TraceFlags.ofDigits? flags)
      return ⟨traceId, spanId, none, flags, none⟩
  | _ => .error .malformed

def ofChars (cs : List Char) : Except ContextError SpanContext :=
  ofFields (Fields.split '-' (trim cs))

def chars (ctx : SpanContext) : List Char :=
  Fields.join '-' [['0', '0'], ctx.traceId.digits, ctx.spanId.digits, ctx.flags.digits]

end Traceparent

-- Reads a traceparent; blanks around it do not count.
def SpanContext.ofTraceparent (s : String) : Except ContextError SpanContext :=
  Traceparent.ofChars s.toList

/-- The traceparent of a context; parent and state are not part of it. -/
def SpanContext.traceparent (ctx : SpanContext) : String := String.ofList (Traceparent.chars ctx)

namespace Traceparent

-- What holds of every digit holds of every character in a field that is written.
theorem forall_mem_fields {p : Char → Prop} (h : ∀ d < 16, p (Hex.digit d)) (ctx : SpanContext) :
    ∀ field ∈ [['0', '0'], ctx.traceId.digits, ctx.spanId.digits, ctx.flags.digits],
      ∀ c ∈ field, p c := by
  have hzero : p '0' := h 0 (by decide)
  intro field hfield
  simp only [List.mem_cons, List.not_mem_nil, or_false] at hfield
  rcases hfield with rfl | rfl | rfl | rfl
  · simpa using hzero
  · exact Id.forall_mem_digits h _
  · exact Id.forall_mem_digits h _
  · rw [TraceFlags.digits_eq_encode]
    exact Hex.forall_mem_encode h _

theorem forall_mem_chars {p : Char → Prop} (hdash : p '-') (h : ∀ d < 16, p (Hex.digit d))
    (ctx : SpanContext) : ∀ c ∈ chars ctx, p c :=
  Fields.forall_mem_join hdash (forall_mem_fields h ctx)

theorem split_chars (ctx : SpanContext) : Fields.split '-' (trim (chars ctx)) =
    [['0', '0'], ctx.traceId.digits, ctx.spanId.digits, ctx.flags.digits] := by
  have hblank : ∀ c ∈ chars ctx, isBlank c = false :=
    forall_mem_chars (by decide) (by decide) ctx
  have hdash : ∀ field ∈ [['0', '0'], ctx.traceId.digits, ctx.spanId.digits, ctx.flags.digits],
      ∀ c ∈ field, c ≠ '-' := forall_mem_fields (by decide) ctx
  rw [trim_of_none hblank, chars]
  exact Fields.split_join (by simp) fun field hfield hmem => hdash field hfield '-' hmem rfl

end Traceparent

/-- A traceparent reads as what it was written of, unless an identifier is zero. -/
theorem SpanContext.ofTraceparent_traceparent (ctx : SpanContext) :
    ofTraceparent ctx.traceparent =
      if ctx.traceId = .zero then .error .invalidTraceId
      else if ctx.spanId = .zero then .error .invalidSpanId
      else .ok { ctx with parent := none, state := none } := by
  have hknown : Traceparent.knownVersion ['0', '0'] = true := by decide
  rw [ofTraceparent, traceparent, String.toList_ofList, Traceparent.ofChars,
    Traceparent.split_chars, Traceparent.ofFields, if_neg (by simp)]
  simp only [hknown, Bool.not_true, Bool.false_eq_true, if_false, Id.ofDigits?_digits,
    TraceFlags.ofDigits?_digits]
  by_cases ht : ctx.traceId = .zero
  · rw [if_pos ht, if_pos ht]
    rfl
  · rw [if_neg ht, if_neg ht]
    by_cases hs : ctx.spanId = .zero
    · rw [if_pos hs, if_pos hs]
      rfl
    · rw [if_neg hs, if_neg hs]
      rfl

end CallTrace
