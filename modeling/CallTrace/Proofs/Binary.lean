import CallTrace.Proofs.Call.Opening
import CallTrace.Proofs.Entries
import CallTrace.Proofs.Lookup

/-!
# Binary metadata

Metadata is read as a carrier through its textual part alone: looking up, listing the keys and
listing the pairs pass over whatever stands under a binary key.  So no binary entry, wherever it is
put, changes the span context that is extracted or the call that is started on it.
-/

namespace CallTrace

/-- The second entries are the first with any of binary keys put in anywhere. -/
inductive BinaryAdded :
    List (MetadataKey × MetadataValue) → List (MetadataKey × MetadataValue) → Prop
  | nil : BinaryAdded [] []
  | keep (e : MetadataKey × MetadataValue) {es es' : List (MetadataKey × MetadataValue)}
      (h : BinaryAdded es es') : BinaryAdded (e :: es) (e :: es')
  | add {e : MetadataKey × MetadataValue} (hbinary : e.1.isBinary = true)
      {es es' : List (MetadataKey × MetadataValue)} (h : BinaryAdded es es') :
      BinaryAdded es (e :: es')

theorem BinaryAdded.filter_eq {es es' : List (MetadataKey × MetadataValue)}
    (h : BinaryAdded es es') :
    es.filter (fun e => !e.1.isBinary) = es'.filter fun e => !e.1.isBinary := by
  induction h with
  | nil => rfl
  | keep e _ ih => rw [List.filter_cons, List.filter_cons, ih]
  | add hbinary _ ih => rw [List.filter_cons_of_neg (by simp [hbinary]), ih]

namespace Metadata

variable {m m' : Metadata}

/-! ## The textual part -/

/-- The metadata without its binary keys. -/
def textual (m : Metadata) : Metadata := m.keep fun key => !key.isBinary

theorem get?_textual (m : Metadata) (key : String) : get? m.textual key = get? m key := by
  change m.textual.text? key = m.text? key
  rw [text?_eq, text?_eq]
  by_cases hbinary : (MetadataKey.of key).isBinary = true
  · rw [if_pos hbinary, if_pos hbinary]
  have hvalues : m.textual.values key = m.values key := by
    unfold values textual
    rw [entries_keep, List.filter_filter]
    congr 1
    apply List.filter_congr
    intro e _
    by_cases hkey : e.1 = MetadataKey.of key
    · simp [hkey, hbinary]
    · simp [hkey]
  rw [hvalues]

theorem keys_textual (m : Metadata) : Readable.keys m.textual = Readable.keys m := by
  change (m.textual.keys.filter _).map _ = (m.keys.filter _).map _
  unfold textual
  rw [keys_keep, List.filter_filter]
  simp only [Bool.and_self]

theorem entries_textual (m : Metadata) : Readable.entries m.textual = Readable.entries m := by
  change m.textual.entries.filterMap pair? = m.entries.filterMap pair?
  unfold textual
  rw [entries_keep, List.filterMap_filter]
  apply List.filterMap_congr
  intro e _
  by_cases hbinary : e.1.isBinary = true
  · simp [pair?, hbinary]
  · simp [hbinary]

theorem textual_eq_of_binaryAdded (h : BinaryAdded m.entries m'.entries) :
    m.textual = m'.textual := by
  apply ext_entries
  unfold textual
  rw [entries_keep, entries_keep, h.filter_eq]

theorem get?_of_textual (h : m.textual = m'.textual) : get? m = get? m' := by
  funext key
  rw [← get?_textual m, ← get?_textual m', h]

end Metadata

/-! ## Extraction and calls -/

theorem getTag?_foldl_congr {key : String} {tags tags' : List (String × TagValue)}
    (h : getTag? tags key = getTag? tags' key) (more : List (String × TagValue)) :
    getTag? (more.foldl (fun tags t => setTag t.1 t.2 tags) tags) key =
      getTag? (more.foldl (fun tags t => setTag t.1 t.2 tags) tags') key := by
  induction more generalizing tags tags' with
  | nil => exact h
  | cons t more ih =>
    apply ih
    rw [getTag?_setTag, getTag?_setTag, h]

/-- Two spans that start alike but for what one tag tells. -/
structure SpanRecord.SameStart (tag : String) (a b : SpanRecord) : Prop where
  name : a.name = b.name
  context : a.context = b.context
  logs : a.logs = b.logs
  tags : ∀ key, key ≠ tag → a.tag? key = b.tag? key

namespace Recorder

variable {m m' : Metadata}

theorem extract_of_textual (h : m.textual = m'.textual) (r : Recorder) (format : Format) :
    r.extract format m = r.extract format m' := by
  unfold extract Propagator.extract
  rw [Metadata.get?_of_textual h]

theorem newRecord_of_textual (h : m.textual = m'.textual) (r : Recorder) (config : Config)
    (active : Option SpanContext) (ctx : ServerContext) (type : MethodType) :
    (r.newRecord (r.callOptions config active (.server ctx) type m)).SameStart TagKey.headers
      (r.newRecord (r.callOptions config active (.server ctx) type m')) := by
  have hextract := r.extract_of_textual h .httpHeaders
  unfold newRecord callOptions nextContext
  constructor
  · rfl
  · rw [hextract]
  · rfl
  · intro key hkey
    change getTag? (List.foldl _ [] (_ ++ _ :: _)) key = getTag? (List.foldl _ [] (_ ++ _ :: _)) key
    rw [List.foldl_append, List.foldl_append, List.foldl_cons, List.foldl_cons]
    apply getTag?_foldl_congr
    rw [getTag?_setTag, getTag?_setTag, if_neg hkey.symm, if_neg hkey.symm]

end Recorder

/--
Entries of binary keys, however many and wherever they are put, change nothing: keys are looked up
and keys and pairs are listed as before, the same is extracted, and a server call starts with the
same span context and the same entries, so below the same parent or with the same fault of its
setup.  Only the tag that shows all headers tells them.
-/
theorem Metadata.binary_entries_take_no_part {m m' : Metadata}
    (h : BinaryAdded m.entries m'.entries) :
    (∀ key, get? m key = get? m' key) ∧ Readable.keys m = Readable.keys m' ∧
      Readable.entries m = Readable.entries m' ∧
      (∀ p : Propagator, p.extract m = p.extract m') ∧
      ∀ {M : Type} [Payload M] (r : Recorder) (config : Config) (ctx : ServerContext)
        (type : MethodType) (message : Option M),
        (r.startServer config ctx type m message).2 =
            (r.startServer config ctx type m' message).2 ∧
          ∃ record record' : SpanRecord,
            (r.startServer config ctx type m message).1.records = r.records ++ [record] ∧
              (r.startServer config ctx type m' message).1.records = r.records ++ [record'] ∧
              record.SameStart TagKey.headers record' := by
  have htextual := textual_eq_of_binaryAdded h
  refine ⟨fun key => ?_, ?_, ?_, ?_, ?_⟩
  · rw [get?_of_textual htextual]
  · rw [← keys_textual m, ← keys_textual m', htextual]
  · rw [← entries_textual m, ← entries_textual m', htextual]
  · intro p
    unfold Propagator.extract
    rw [get?_of_textual htextual]
  · intro M _ r config ctx type message
    constructor
    · unfold Recorder.startServer
      rw [r.extract_of_textual htextual]
      rfl
    · exact ⟨_, _, r.records_startCall config none (.server ctx) type m message,
        r.records_startCall config none (.server ctx) type m' message,
        r.newRecord_of_textual htextual config none ctx type⟩

/-- Binary entries before and behind a span header: the same span is extracted. -/
theorem Metadata.blobs_around_span_take_no_part :
    let header : MetadataGroup :=
      { key := .of "b3"
        first := Bytes.ofText "4bf92f3577b34da6a3ce929d0e0e4736-00f067aa0ba902b7-1" }
    let m : Metadata := ⟨[{ key := .of "blob-bin", first := [65] }, header], by decide +kernel⟩
    let m' : Metadata :=
      ⟨[{ key := .of "b3-BIN", first := [48] },
        { key := .of "blob-bin", first := [65], more := [[66]] }, header,
        { key := .of "traceparent-bin", first := [] }], by decide +kernel⟩
    BinaryAdded m.entries m'.entries ∧ m ≠ m' ∧
      (Propagator.b3 .single).extract m = (Propagator.b3 .single).extract m' ∧
      (Propagator.b3 .single).extract m ≠ .ok none := by
  intro header m m'
  have hadded : BinaryAdded m.entries m'.entries :=
    .add (by decide +kernel) <| .keep _ <| .add (by decide +kernel) <| .keep _ <|
      .add (by decide +kernel) .nil
  obtain ⟨-, -, -, hextract, -⟩ := binary_entries_take_no_part hadded
  exact ⟨hadded, by decide +kernel, hextract (.b3 .single), by decide +kernel⟩

end CallTrace
