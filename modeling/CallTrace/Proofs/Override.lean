import CallTrace.Proofs.RoundTrip

/-!
# What injection leaves of an older context

Injection replaces the headers that it writes and removes none.  A header that extraction reads and
the injection of this context does not write can therefore show an older context: the vendor state
under a context without one, and with several B3 headers the single header, the parent under a
context without one, and the debug flag.
-/

namespace CallTrace

namespace Propagator

/-- The carrier holds nothing that would show through an injection of the context. -/
def Overrides {κ : Type} [Readable κ] (p : Propagator) (ctx : SpanContext) (carrier : κ) : Prop :=
  match p with
  | w3c => ctx.state = none →
      get? carrier TraceContext.tracestate = none ∨ get? carrier TraceContext.tracestate = some ""
  | b3 .single => True
  | b3 .multi =>
    match get? carrier B3.single with
    | some value => B3.ofSingle value = .ok (some (B3.carried ctx))
    | none => (ctx.parent = none → get? carrier B3.parentSpanId = none) ∧
        (get? carrier B3.flags = some "1" → ctx.sampled = true)

open HeaderCarrier

variable {κ : Type} [Readable κ] [Writable κ] [HeaderCarrier κ] (c : κ) {ctx : SpanContext}

-- Whether a context can be injected does not depend on what the carrier holds.
theorem inject_empty_ok {p : Propagator} (hok : (p.inject ctx c).2 = .ok ()) :
    (p.inject ctx (empty : κ)).2 = .ok () := by
  have hheaders := p.isHeaderName_headers ctx
  exact (writeAll_ok_iff _ hheaders).2 ((writeAll_ok_iff c hheaders).1 hok)

theorem overrides_w3c_iff (htrace : ctx.traceId ≠ .zero) (hspan : ctx.spanId ≠ .zero)
    (hok : (w3c.inject ctx c).2 = .ok ()) :
    w3c.extract (w3c.inject ctx c).1 = w3c.extract (w3c.inject ctx (empty : κ)).1 ↔
      w3c.Overrides ctx c := by
  have hempty := (extract_ok_iff _).2 (read_inject_w3c (empty : κ) htrace hspan)
  rw [hempty, extract_ok_iff, read_inject_w3c c htrace hspan, tracestate_inject c hok,
    tracestate_inject _ (inject_empty_ok c hok)]
  unfold Overrides
  cases hstate : ctx.state with
  | some state => simp
  | none =>
    have hnone : (none : Option String).filter (· ≠ "") = none := rfl
    simp only [get?_empty, hnone, Except.ok.injEq, Option.some.injEq, SpanContext.mk.injEq,
      true_and, true_implies]
    cases get? c TraceContext.tracestate with
    | none => simp
    | some old => simp [Option.filter]

-- A header of an older parent makes a parent, or is no identifier at all.
theorem parentOf_or_iff {parent : Option SpanId} (hparent : parent ≠ some .zero)
    (old : Option String) :
    B3.parentOf (((parent.map Id.text).or old).map String.toList) = .ok parent ↔
      (parent = none → old = none) := by
  rw [B3.parentOf_or hparent]
  cases parent with
  | some id => simp
  | none =>
    cases old with
    | none => simp [B3.parentOf]
    | some text =>
      simp only [Option.map_some, B3.parentOf]
      cases Id.ofDigits? (n := 8) text.toList <;> simp [require, Except.map]

theorem overrides_multi_iff (htrace : ctx.traceId ≠ .zero) (hspan : ctx.spanId ≠ .zero)
    (hparent : ctx.parent ≠ some .zero) :
    (b3 .multi).extract ((b3 .multi).inject ctx c).1 =
        (b3 .multi).extract ((b3 .multi).inject ctx (empty : κ)).1 ↔
      (b3 .multi).Overrides ctx c := by
  have hempty := (recovers_b3 κ htrace hspan hparent .multi .multi).extracted
  rw [hempty, extract_ok_iff, read_inject_multi c htrace hspan]
  unfold Overrides
  simp only
  cases get? c B3.single with
  | some value => exact Iff.rfl
  | none =>
    have hflags (b : Bool) : TraceFlags.ofSampled b = .ofSampled ctx.sampled ↔ b = ctx.sampled := by
      constructor
      · intro h
        have hbit := congrArg TraceFlags.sampled h
        rwa [TraceFlags.sampled_ofSampled, TraceFlags.sampled_ofSampled] at hbit
      · exact congrArg TraceFlags.ofSampled
    have hdebug (old : Option String) : (old == some "1" || ctx.sampled) = ctx.sampled ↔
        (old = some "1" → ctx.sampled = true) := by
      cases ctx.sampled <;> simp
    simp only
    rw [← parentOf_or_iff hparent, ← hdebug, ← hflags]
    cases B3.parentOf (((ctx.parent.map Id.text).or (get? c B3.parentSpanId)).map
        String.toList) with
    | error e => simp [Except.map]
    | ok parent => simp [Except.map, B3.carried]

theorem overrides_iff (p : Propagator) (htrace : ctx.traceId ≠ .zero) (hspan : ctx.spanId ≠ .zero)
    (hparent : ctx.parent ≠ some .zero) (hok : (p.inject ctx c).2 = .ok ()) :
    p.extract (p.inject ctx c).1 = p.extract (p.inject ctx (empty : κ)).1 ↔
      p.Overrides ctx c := by
  rcases p with _ | _ | _
  · exact overrides_w3c_iff c htrace hspan hok
  · have hread (old : κ) := (extract_ok_iff _).2
      (read_inject_single old htrace hspan hparent .single)
    rw [hread c, hread empty]
    exact iff_of_true rfl trivial
  · exact overrides_multi_iff c htrace hspan hparent

theorem only_state_shows (htrace : ctx.traceId ≠ .zero) (hspan : ctx.spanId ≠ .zero) :
    ∃ state, w3c.extract (w3c.inject ctx c).1 = .ok (some { ctx with parent := none, state }) :=
  ⟨_, (extract_ok_iff _).2 (read_inject_w3c c htrace hspan)⟩

/--
Injection into a carrier with older content reads as injection into an empty carrier exactly if the
carrier held nothing that shows through.  With trace context headers nothing but a vendor state can.
-/
theorem injection_overrides_iff (p : Propagator) (ctx : SpanContext) (htrace : ctx.traceId ≠ .zero)
    (hspan : ctx.spanId ≠ .zero) (hparent : ctx.parent ≠ some .zero) :
    (∀ c : TextMap, (p.inject ctx c).2 = .ok () →
      (p.extract (p.inject ctx c).1 = p.extract (p.inject ctx ({} : TextMap)).1 ↔
        p.Overrides ctx c) ∧
      (p = w3c → ∃ state,
        p.extract (p.inject ctx c).1 = .ok (some { ctx with parent := none, state }))) ∧
    (∀ c : Metadata, (p.inject ctx c).2 = .ok () →
      (p.extract (p.inject ctx c).1 = p.extract (p.inject ctx Metadata.empty).1 ↔
        p.Overrides ctx c) ∧
      (p = w3c → ∃ state,
        p.extract (p.inject ctx c).1 = .ok (some { ctx with parent := none, state }))) := by
  refine ⟨fun c hok => ⟨overrides_iff c p htrace hspan hparent hok, ?_⟩,
    fun c hok => ⟨overrides_iff c p htrace hspan hparent hok, ?_⟩⟩
  · rintro rfl
    exact only_state_shows c htrace hspan
  · rintro rfl
    exact only_state_shows c htrace hspan

-- Headers of another context, all of which the several headers of a sampled child replace.
theorem sampled_child_overrides :
    let ctx : SpanContext := ⟨.ofNat 16 1, .ofNat 8 2, some (.ofNat 8 3), ⟨1⟩, none⟩
    let old : TextMap := .ofList
      [("x-b3-flags", "1"), ("x-b3-parentspanid", "0000000000000009"), ("x-b3-sampled", "0")]
    (b3 .multi).extract ((b3 .multi).inject ctx old).1 =
      (b3 .multi).extract ((b3 .multi).inject ctx ({} : TextMap)).1 := by
  intro ctx old
  have hoverrides : (b3 .multi).Overrides ctx old := by
    have hsingle : get? old B3.single = none := by decide
    unfold Overrides
    simp only [hsingle]
    constructor
    · intro h
      cases h
    · intro _
      decide
  have hiff := (injection_overrides_iff (b3 .multi) ctx (by decide) (by decide)
    (by decide)).1 old (inject_b3_ok old .multi)
  exact hiff.1.2 hoverrides

/-- An older vendor state shows under a context without one, and an older debug flag makes a context
sampled that is not. -/
theorem older_headers_show_through :
    let ctx : SpanContext := ⟨.ofNat 16 1, .ofNat 8 2, none, ⟨0⟩, none⟩
    let state : Metadata := Metadata.empty.append (.of "tracestate") (Bytes.ofText "old=1")
    let debug : TextMap := .ofList [("x-b3-flags", "1")]
    ((w3c.inject ctx state).2 = .ok () ∧
      w3c.extract (w3c.inject ctx state).1 ≠ w3c.extract (w3c.inject ctx Metadata.empty).1) ∧
    ((b3 .multi).inject ctx debug).2 = .ok () ∧
      (b3 .multi).extract ((b3 .multi).inject ctx debug).1 ≠
        (b3 .multi).extract ((b3 .multi).inject ctx ({} : TextMap)).1 := by
  intro ctx state debug
  have hstate : ¬ w3c.Overrides ctx state := by
    have hold : get? state TraceContext.tracestate = some "old=1" := by decide
    unfold Overrides
    simp [hold, ctx]
  have hdebug : ¬ (b3 .multi).Overrides ctx debug := by
    have hsingle : get? debug B3.single = none := by decide
    have hflags : get? debug B3.flags = some "1" := by decide
    have hsampled : ctx.sampled = false := by decide
    unfold Overrides
    simp [hsingle, hflags, hsampled]
  have hok : (w3c.inject ctx state).2 = .ok () := by
    refine w3c.inject_ok_of_visible ctx state fun _ state h => ?_
    cases h
  refine ⟨⟨hok, fun h => hstate ?_⟩, inject_b3_ok debug .multi, fun h => hdebug ?_⟩
  · exact (overrides_w3c_iff state (by decide) (by decide) hok).1 h
  · exact (overrides_multi_iff debug (by decide) (by decide) (by decide)).1 h

end Propagator

end CallTrace
