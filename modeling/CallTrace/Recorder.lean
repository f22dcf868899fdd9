import CallTrace.Propagation.Basic
import CallTrace.Tag

/-!
# Recorder

A tracer that keeps its spans in memory.  A span is named by its place in the order of starting;
this number stays valid when the recorder forgets its spans, so that a span in use can still be
written to.  What is written after a span's first finish is not stored but counted.
-/

namespace CallTrace

/-- What is asked of the tracer when a span starts. -/
structure SpanOptions where
  name : String
  parent : Option SpanContext := none
  tags : List (String × TagValue) := []
deriving DecidableEq, Repr

/-- What is done to a span after its start. -/
inductive SpanOp
  | tag (key : String) (value : TagValue)
  | log (fields : Fields)
  | finish
deriving DecidableEq, Repr

-- Tags under their keys; a later value replaces an earlier one.
def setTag (key : String) (value : TagValue) : List (String × TagValue) → List (String × TagValue)
  | [] => [(key, value)]
  | (k, v) :: rest => if k = key then (key, value) :: rest else (k, v) :: setTag key value rest

def getTag? (tags : List (String × TagValue)) (key : String) : Option TagValue :=
  (tags.find? (·.1 == key)).map (·.2)

theorem getTag?_setTag (key k : String) (value : TagValue) (tags : List (String × TagValue)) :
    getTag? (setTag key value tags) k = if key = k then some value else getTag? tags k := by
  induction tags with
  | nil =>
    unfold getTag? setTag
    by_cases h : key = k
    · simp [h]
    · rw [List.find?_cons_of_neg (by simpa using h), if_neg h]
  | cons e rest ih =>
    obtain ⟨k', v'⟩ := e
    have step (x : String) (y : TagValue) (r : List (String × TagValue)) :
        getTag? ((x, y) :: r) k = if x = k then some y else getTag? r k := by
      unfold getTag?
      by_cases h : x = k
      · simp [h]
      · rw [List.find?_cons_of_neg (by simpa using h), if_neg h]
    unfold setTag
    split
    · rename_i hk
      subst hk
      rw [step, step]
      split <;> rfl
    · rename_i hk
      rw [step, step, ih]
      by_cases h : k' = k
      · subst h; rw [if_pos rfl, if_neg (Ne.symm hk), if_pos rfl]
      · rw [if_neg h, if_neg h]

structure SpanRecord where
  name : String
  context : SpanContext
  tags : List (String × TagValue) := []
  logs : List Fields := []
  finishCount : Nat := 0
deriving DecidableEq, Repr

namespace SpanRecord

def finished (r : SpanRecord) : Bool := 0 < r.finishCount

def tag? (r : SpanRecord) (key : String) : Option TagValue := getTag? r.tags key

def events (r : SpanRecord) : List String := r.logs.filterMap Fields.eventName?

def eventCount (r : SpanRecord) (event : String) : Nat := r.events.count event

def isError (r : SpanRecord) : Bool := ((r.tag? TagKey.error).bind TagValue.bool?).getD false

/-- The record after an operation; a finished span keeps its tags and logs. -/
def apply (r : SpanRecord) : SpanOp → SpanRecord
  | .tag key value => if r.finished then r else { r with tags := setTag key value r.tags }
  | .log fields => if r.finished then r else { r with logs := r.logs ++ [fields] }
  | .finish => { r with finishCount := r.finishCount + 1 }

end SpanRecord

inductive Format
  | httpHeaders
  | textMap
deriving DecidableEq, Repr

def Format.name : Format → String
  | httpHeaders => "HttpHeaders"
  | textMap => "TextMap"

/-- How many spans there are of each sort, and how often a span was used after its end. -/
structure Counts where
  started : Nat
  opened : Nat
  finished : Nat
  rejected : Nat
  late : Nat
deriving DecidableEq, Repr

/-- A tracer that keeps its spans in memory. -/
structure Recorder where
  ids : IdSupply
  propagator : Propagator := .w3c
  -- All spans that were ever started.
  records : List SpanRecord := []
  -- How many of the first spans are forgotten.
  forgotten : Nat := 0
  active : Option SpanContext := none
  injectFailure : Option ErrorKind := none
  extractFailure : Option ErrorKind := none
  -- How often a finished span was finished again.
  rejected : Nat := 0
  -- How often a finished span was tagged or logged to.
  late : Nat := 0

namespace Recorder

def start (r : Recorder) (options : SpanOptions) : Recorder × Nat :=
  let number := r.records.length
  let record : SpanRecord :=
    { name := options.name
      context := SpanContext.start options.parent r.ids number
      tags := options.tags.foldl (fun tags t => setTag t.1 t.2 tags) [] }
  ({ r with records := r.records ++ [record] }, number)

/-- Does an operation to a span; one that comes after the end is counted. -/
def apply (r : Recorder) (span : Nat) (op : SpanOp) : Recorder :=
  match r.records[span]? with
  | none => r
  | some record =>
    let r' := { r with records := r.records.set span (record.apply op) }
    if record.finished then
      match op with
      | .finish => { r' with rejected := r.rejected + 1 }
      | .tag .. | .log .. => { r' with late := r.late + 1 }
    else r'

def spans (r : Recorder) : List (Nat × SpanRecord) :=
  (r.records.zipIdx.map fun e => (e.2, e.1)).drop r.forgotten

def finishedSpans (r : Recorder) : List (Nat × SpanRecord) := r.spans.filter (·.2.finished)

def singleFinished? (r : Recorder) : Option (Nat × SpanRecord) :=
  match r.finishedSpans with
  | [span] => some span
  | _ => none

def findFinished? (r : Recorder) (name : String) : Option (Nat × SpanRecord) :=
  r.finishedSpans.find? (·.2.name == name)

def context? (r : Recorder) (span : Nat) : Option SpanContext :=
  r.records[span]?.map SpanRecord.context

def counts (r : Recorder) : Counts :=
  { started := r.spans.length
    opened := (r.spans.filter (!·.2.finished)).length
    finished := r.finishedSpans.length
    rejected := r.rejected
    late := r.late }

-- Forgets all spans and counts; the numbers of the spans go on.
def reset (r : Recorder) : Recorder :=
  { r with forgotten := r.records.length, rejected := 0, late := 0 }

-- Writes a context into a carrier, or fails as it was told to.
def inject {κ : Type} [Writable κ] (r : Recorder) (ctx : SpanContext) (format : Format)
    (carrier : κ) : κ × Except Error Unit :=
  match r.injectFailure with
  | some kind => (carrier, .error { kind, message := "mock inject failure for " ++ format.name })
  | none => r.propagator.inject ctx carrier

-- Reads a context from a carrier, or fails as it was told to.
def extract {κ : Type} [Readable κ] (r : Recorder) (format : Format) (carrier : κ) :
    Except Error (Option SpanContext) :=
  match r.extractFailure with
  | some kind => .error { kind, message := "mock extract failure for " ++ format.name }
  | none => r.propagator.extract carrier

def outline (r : Recorder) : String :=
  Outline.openRecord "MockTracer"
    [("started", toString r.counts.started), ("propagator", r.propagator.outline)]

@[simp] theorem length_apply (r : Recorder) (span : Nat) (op : SpanOp) :
    (r.apply span op).records.length = r.records.length := by
  unfold apply
  split
  · rfl
  · split
    · split <;> simp
    · simp

-- An operation changes the record of its span alone.
theorem getElem?_apply (r : Recorder) (span i : Nat) (op : SpanOp) :
    (r.apply span op).records[i]? =
      if span = i then r.records[i]?.map (·.apply op) else r.records[i]? := by
  unfold apply
  split
  · rename_i h
    split
    · rename_i hi
      subst hi
      simp [h]
    · rfl
  · rename_i record h
    have key : (r.records.set span (record.apply op))[i]? =
        if span = i then r.records[i]?.map (·.apply op) else r.records[i]? := by
      rw [List.getElem?_set]
      split
      · rename_i hi
        subst hi
        obtain ⟨hlt, -⟩ := List.getElem?_eq_some_iff.1 h
        rw [if_pos hlt, h]
        rfl
      · rfl
    split
    · split <;> exact key
    · exact key

end Recorder

end CallTrace
