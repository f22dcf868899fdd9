import CallTrace.Table
import Mathlib.Data.List.Forall2

/-!
# Related lists, tables and steps

Two runs that are compared step by step keep their data in the same places.  What one of them reads
or changes is then related to what the other reads or changes in that place.
-/

namespace CallTrace

variable {α β : Type} {R : α → β → Prop}

theorem rel_getElem? {as : List α} {bs : List β} (h : List.Forall₂ R as bs) (i : Nat) :
    Option.Rel R as[i]? bs[i]? := by
  induction h generalizing i with
  | nil => exact .none
  | cons hab _ ih =>
    cases i with
    | zero => exact .some hab
    | succ i => exact ih i

theorem rel_modify {as : List α} {bs : List β} (h : List.Forall₂ R as bs) (i : Nat) {f : α → α}
    {g : β → β} (hfg : ∀ a b, R a b → R (f a) (g b)) :
    List.Forall₂ R (as.modify i f) (bs.modify i g) := by
  induction h generalizing i with
  | nil => rw [List.modify_nil, List.modify_nil]; exact .nil
  | cons hab hrest ih =>
    cases i with
    | zero => exact .cons (hfg _ _ hab) hrest
    | succ i => exact .cons hab (ih i)

-- A change in one place commutes with a map that it commutes with there.
theorem modify_map {f : α → β} {g : α → α} {h : β → β} (hgh : ∀ a, h (f a) = f (g a)) (as : List α)
    (i : Nat) : (as.map f).modify i h = (as.modify i g).map f := by
  induction as generalizing i with
  | nil => rw [List.modify_nil, List.map_nil, List.modify_nil]
  | cons a as ih =>
    cases i with
    | zero => exact congrArg (· :: as.map f) (hgh a)
    | succ i => exact congrArg (f a :: ·) (ih i)

/-! ## Steps of two runs -/

/-- Two steps lead to related states and give the same result. -/
structure InStep {σ ρ : Type} (R : σ → σ → Prop) (r r' : σ × ρ) : Prop where
  states : R r.1 r'.1
  result : r.2 = r'.2

theorem InStep.split {σ ρ : Type} {R : σ → σ → Prop} {r r' : σ × ρ} (h : InStep R r r') :
    ∃ s s' a, r = (s, a) ∧ r' = (s', a) ∧ R s s' :=
  ⟨r.1, r'.1, r.2, rfl, Prod.ext rfl h.result.symm, h.states⟩

/-- Two steps lead to related states, and a map takes the result of one to that of the other. -/
structure InStepBy {σ ρ : Type} (R : σ → σ → Prop) (f : ρ → ρ) (r r' : σ × ρ) : Prop where
  states : R r.1 r'.1
  result : r'.2 = f r.2

theorem InStepBy.split {σ ρ : Type} {R : σ → σ → Prop} {f : ρ → ρ} {r r' : σ × ρ}
    (h : InStepBy R f r r') : ∃ s s' a, r = (s, a) ∧ r' = (s', f a) ∧ R s s' :=
  ⟨r.1, r'.1, r.2, rfl, Prod.ext rfl h.result, h.states⟩

/-! ## Tables -/

namespace Table

/-- The same names stand in the same order, with related values. -/
def Rel (R : α → β → Prop) (t : Table α) (t' : Table β) : Prop :=
  ∃ both : Table { p : α × β // R p.1 p.2 }, t = both.map (·.1.1) ∧ t' = both.map (·.1.2)

variable {t : Table α} {t' : Table β}

theorem rel_empty : Rel R {} {} := ⟨{}, rfl, rfl⟩

theorem Rel.find? (h : Rel R t t') (name : String) : Option.Rel R (t.find? name) (t'.find? name) := by
  obtain ⟨both, rfl, rfl⟩ := h
  rw [find?_map, find?_map]
  cases both.find? name with
  | none => exact .none
  | some p => exact .some p.2

theorem Rel.erase (h : Rel R t t') (name : String) : Rel R (t.erase name) (t'.erase name) := by
  obtain ⟨both, rfl, rfl⟩ := h
  exact ⟨both.erase name, (map_erase _ _ _).symm, (map_erase _ _ _).symm⟩

theorem Rel.set (h : Rel R t t') (name : String) {a : α} {b : β} (hab : R a b) :
    Rel R (t.set name a) (t'.set name b) := by
  obtain ⟨both, rfl, rfl⟩ := h
  let pair : { p : α × β // R p.1 p.2 } := ⟨(a, b), hab⟩
  exact ⟨both.set name pair, (map_set _ both name pair).symm, (map_set _ both name pair).symm⟩

theorem Rel.sorted (h : Rel R t t') :
    List.Forall₂ (fun e e' => R e.2 e'.2) t.sorted t'.sorted := by
  obtain ⟨both, rfl, rfl⟩ := h
  rw [sorted_map, sorted_map, List.forall₂_map_left_iff, List.forall₂_map_right_iff]
  -- The two lists are now the same, and each value is related to itself.
  apply List.forall₂_same.2
  intro e _
  exact e.2.2

end Table

end CallTrace
