import CallTrace.Proofs.RoundTrip
import Mathlib.Data.List.Basic

/-!
# What extraction depends on

Extraction looks at the headers of its format in every form, and at no others.  A propagator for B3
makes known only the headers of the form that it writes.
-/

namespace CallTrace

namespace Propagator

/-- Both carriers read alike under these names. -/
def AgreeOn {κ κ' : Type} [Readable κ] [Readable κ'] (names : List String) (c : κ) (c' : κ') :
    Prop := ∀ name ∈ names, get? c name = get? c' name

/-- Whatever else the carriers hold, they are read alike if these headers agree. -/
def DependsOnly (p : Propagator) (names : List String) : Prop :=
  ∀ (κ κ' : Type) [Readable κ] [Readable κ'] (c : κ) (c' : κ'), AgreeOn names c c' →
    p.extract c = p.extract c'

-- Either form of B3 headers is read, whichever is written.
def looksAt : Propagator → List String
  | w3c => w3c.fields
  | b3 _ => (b3 .single).fields ++ (b3 .multi).fields

variable {κ κ' : Type} [Readable κ] [Readable κ'] {c : κ} {c' : κ'}

theorem AgreeOn.mono {names names' : List String} (h : AgreeOn names c c')
    (hsub : names' ⊆ names) : AgreeOn names' c c' := fun name hname => h name (hsub hname)

theorem read_congr {p : Propagator} (h : AgreeOn p.looksAt c c') :
    p.read (get? c) = p.read (get? c') := by
  cases p with
  | w3c =>
    show TraceContext.read _ = TraceContext.read _
    unfold TraceContext.read
    rw [h TraceContext.traceparent (by decide), h TraceContext.tracestate (by decide)]
  | b3 encoding =>
    have hb3 : ∀ name ∈ (b3 .single).looksAt, get? c name = get? c' name := h
    show B3.read _ = B3.read _
    unfold B3.read
    rw [hb3 B3.single (by decide), hb3 B3.traceId (by decide), hb3 B3.spanId (by decide),
      hb3 B3.parentSpanId (by decide), hb3 B3.sampled (by decide), hb3 B3.flags (by decide)]

theorem dependsOnly_looksAt (p : Propagator) : p.DependsOnly p.looksAt := by
  intro κ κ' _ _ c c' h
  unfold extract
  rw [read_congr h]

-- As from the empty carrier.
theorem extract_of_absent {p : Propagator} (h : ∀ name ∈ p.looksAt, get? c name = none) :
    p.extract c = .ok none := by
  have hempty : p.extract ({} : TextMap) = .ok none := by
    cases p <;> rfl
  rw [← hempty]
  exact p.dependsOnly_looksAt _ _ c ({} : TextMap) h

theorem agreeOn_insert {names : List String} {name : String} (h : name ∉ names) (c : TextMap)
    (value : String) : AgreeOn names (c.insert name value) c := by
  intro k hk
  show (c.insert name value).find? k = c.find? k
  rw [TextMap.find?_insert, if_neg]
  rintro rfl
  exact h hk

/-! ## No header is looked at in vain -/

-- A parent and a state are only read beside these.
def spanHeaders : List (String × String) :=
  [(B3.traceId, "4bf92f3577b34da6a3ce929d0e0e4736"), (B3.spanId, "00f067aa0ba902b7")]

/-- Every header that is looked at changes what is read from some carrier. -/
theorem exists_insert {p : Propagator} {name : String} (h : name ∈ p.looksAt) :
    ∃ (c : TextMap) (value : String), p.extract (c.insert name value) ≠ p.extract c := by
  cases p with
  | w3c =>
    have hname : name = TraceContext.traceparent ∨ name = TraceContext.tracestate := by
      simpa [looksAt, fields] using h
    rcases hname with rfl | rfl
    · exact ⟨{}, "", by decide⟩
    · exact ⟨.ofList [(TraceContext.traceparent,
        "00-4bf92f3577b34da6a3ce929d0e0e4736-00f067aa0ba902b7-01")], "a", by decide +kernel⟩
  | b3 encoding =>
    have hname : name = B3.single ∨ name = B3.traceId ∨ name = B3.spanId ∨
        name = B3.parentSpanId ∨ name = B3.sampled ∨ name = B3.flags := by
      simpa [looksAt, fields] using h
    have hform (c : TextMap) : (b3 encoding).extract c = (b3 .single).extract c := rfl
    simp only [hform]
    rcases hname with rfl | rfl | rfl | rfl | rfl | rfl
    · exact ⟨{}, "", by decide +kernel⟩
    · exact ⟨{}, "", by decide +kernel⟩
    · exact ⟨.ofList [(B3.traceId, "")], "", by decide +kernel⟩
    · exact ⟨.ofList spanHeaders, "", by decide +kernel⟩
    · exact ⟨.ofList spanHeaders, "0", by decide +kernel⟩
    · exact ⟨.ofList (spanHeaders ++ [(B3.sampled, "0")]), "1", by decide +kernel⟩

theorem dependsOnly_iff {p : Propagator} {names : List String} :
    p.DependsOnly names ↔ p.looksAt ⊆ names := by
  constructor
  · intro hnames name hname
    by_contra hmissing
    obtain ⟨c, value, hne⟩ := exists_insert hname
    exact hne (hnames _ _ _ _ (agreeOn_insert hmissing c value))
  · intro hsub κ κ' _ _ c c' h
    exact p.dependsOnly_looksAt _ _ _ _ (h.mono hsub)

/--
Headers determine what is extracted exactly if all that are looked at are among them.  The headers
that a propagator makes known do so for the trace context, and for B3 in neither form.  Nothing is
read from a carrier without the headers that are looked at.
-/
theorem extract_dependsOnly_iff_looksAt_subset (p : Propagator) :
    (∀ names, p.DependsOnly names ↔ p.looksAt ⊆ names) ∧ (p.DependsOnly p.fields ↔ p = w3c) ∧
      ∀ (κ : Type) [Readable κ] (c : κ), (∀ name ∈ p.looksAt, get? c name = none) →
        p.extract c = .ok none := by
  refine ⟨fun _ => dependsOnly_iff, dependsOnly_iff.trans ?_, fun κ _ c => extract_of_absent⟩
  cases p with
  | w3c => exact iff_of_true (fun _ h => h) rfl
  | b3 encoding => exact iff_of_false (by cases encoding <;> decide) nofun

/-- With several headers made known, the single one still names a span. -/
theorem single_header_is_not_made_known :
    ¬∀ p : Propagator, p.DependsOnly p.fields := by
  intro h
  let one : TextMap := .ofList [(B3.single, "4bf92f3577b34da6a3ce929d0e0e4736-00f067aa0ba902b7-1")]
  have hagree : AgreeOn (b3 .multi).fields one ({} : TextMap) := by
    unfold AgreeOn
    decide +kernel
  have hread := h (b3 .multi) _ _ _ _ hagree
  revert hread
  decide +kernel

end Propagator

end CallTrace
