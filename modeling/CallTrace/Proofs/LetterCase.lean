import CallTrace.Proofs.Traceparent
import Mathlib.Data.List.Forall2

/-!
# Traceparents in uppercase

The digits of a traceparent are read in either case, also those of its version.  Only the reserved
version is looked for as it is written, in lowercase.
-/

namespace CallTrace

/-! ## Characters -/

-- Upper case is that of ASCII: thirty-two below the lowercase letters.
theorem toNat_toUpper (c : Char) :
    c.toUpper.toNat = if 97 ≤ c.toNat ∧ c.toNat ≤ 122 then c.toNat - 32 else c.toNat := by
  unfold Char.toUpper
  split
  · rename_i h
    have hlow : 97 ≤ c.toNat := h.1
    have hhigh : c.toNat ≤ 122 := h.2
    rw [if_pos ⟨hlow, hhigh⟩]
    show (c.val + (65 - 97)).toNat = c.toNat - 32
    rw [UInt32.toNat_add]
    show (c.toNat + 4294967264) % 4294967296 = c.toNat - 32
    omega
  · rename_i h
    have hout : ¬(97 ≤ c.toNat ∧ c.toNat ≤ 122) := h
    rw [if_neg hout]

theorem toNat_toLower (c : Char) :
    c.toLower.toNat = if 65 ≤ c.toNat ∧ c.toNat ≤ 90 then c.toNat + 32 else c.toNat := by
  unfold Char.toLower
  split
  · rename_i h
    have hlow : 65 ≤ c.toNat := h.1
    have hhigh : c.toNat ≤ 90 := h.2
    rw [if_pos ⟨hlow, hhigh⟩]
    show (c.val + (97 - 65)).toNat = c.toNat + 32
    rw [UInt32.toNat_add]
    show (c.toNat + 32) % 4294967296 = c.toNat + 32
    omega
  · rename_i h
    have hout : ¬(65 ≤ c.toNat ∧ c.toNat ≤ 90) := h
    rw [if_neg hout]

@[simp] theorem Hex.value?_toUpper (c : Char) : value? c.toUpper = value? c := by
  unfold value?
  rw [toNat_toUpper]
  grind

@[simp] theorem isBlank_toUpper (c : Char) : isBlank c.toUpper = isBlank c := by
  unfold isBlank
  rw [toNat_toUpper]
  grind

-- A character that is no lowercase letter is that of no other one.
theorem toUpper_eq_iff {c d : Char} (hd : d.toNat < 65) : c.toUpper = d ↔ c = d := by
  rw [← Char.toNat_inj, toNat_toUpper, ← Char.toNat_inj]
  grind

-- A lowercase letter is that of itself and of its capital.
theorem toLower_eq_iff {c d : Char} (hlow : 97 ≤ d.toNat) (hhigh : d.toNat ≤ 122) :
    c.toLower = d ↔ c = d ∨ c = d.toUpper := by
  rw [← Char.toNat_inj, toNat_toLower, ← Char.toNat_inj, ← Char.toNat_inj, toNat_toUpper]
  grind

-- What maps to a given list, told for each member.
theorem map_eq_iff_forall₂ {f : Char → Char} {R : Char → Char → Prop} {cs ds : List Char}
    (h : ∀ d ∈ ds, ∀ c, f c = d ↔ R c d) : cs.map f = ds ↔ List.Forall₂ R cs ds := by
  induction ds generalizing cs with
  | nil => rw [List.map_eq_nil_iff, List.forall₂_nil_right_iff]
  | cons d ds ih =>
    obtain ⟨hd, hrest⟩ := List.forall_mem_cons.1 h
    cases cs with
    | nil => exact iff_of_false nofun nofun
    | cons c cs => rw [List.map_cons, List.cons_eq_cons, List.forall₂_cons, hd, ih hrest]

/-! ## Fields -/

theorem trim_map {f : Char → Char} (h : ∀ c, isBlank (f c) = isBlank c) (cs : List Char) :
    trim (cs.map f) = (trim cs).map f := by
  have hblank : isBlank ∘ f = isBlank := funext h
  rw [trim, trimEnd, List.dropWhile_map, hblank, ← List.map_reverse, List.dropWhile_map, hblank,
    ← List.map_reverse, trim, trimEnd]

theorem Fields.split_map {f : Char → Char} {sep : Char} (h : ∀ c, f c = sep ↔ c = sep)
    (cs : List Char) : split sep (cs.map f) = (split sep cs).map (List.map f) := by
  induction cs with
  | nil => rfl
  | cons c cs ih =>
    rw [List.map_cons, split, split, ih]
    by_cases hc : c = sep
    · rw [if_pos hc, if_pos ((h c).2 hc)]
      rfl
    · rw [if_neg hc, if_neg ((h c).not.2 hc)]
      cases split sep cs <;> rfl

theorem Hex.decode_map {f : Char → Char} (h : ∀ c, value? (f c) = value? c) (cs : List Char) :
    decode (cs.map f) = decode cs := by
  fun_induction decode cs with
  | case1 => rfl
  | case2 => rfl
  | case3 hi lo rest x y hx hy ih => simp only [List.map_cons, decode, h, hx, hy, ih]
  | case4 hi lo rest hnone =>
    rw [List.map_cons, List.map_cons, decode, h, h]
    split
    · rename_i x y hx hy
      exact absurd hy (hnone x y hx)
    · rfl

namespace Traceparent

theorem map_toUpper_eq_iff {cs digits : List Char} (h : ∀ d ∈ digits, d.toNat < 65) :
    cs.map Char.toUpper = digits ↔ cs = digits := by
  rw [map_eq_iff_forall₂ fun d hd c => toUpper_eq_iff (h d hd), List.forall₂_eq_eq_eq]

-- In uppercase a version is known if it is two digits: none is the reserved one.
theorem knownVersion_map_toUpper (version : List Char) :
    knownVersion (version.map Char.toUpper) =
      (version.length == 2 && version.all Hex.isDigit) := by
  have hreserved : version.map Char.toUpper ≠ ['f', 'f'] := by
    intro h
    obtain ⟨c, -, hc⟩ := List.mem_map.1 (h ▸ List.mem_cons_self : 'f' ∈ version.map Char.toUpper)
    have hf := toNat_toUpper c
    rw [hc] at hf
    have hvalue : 'f'.toNat = 102 := rfl
    grind
  have hdigits : (version.map Char.toUpper).all Hex.isDigit = version.all Hex.isDigit := by
    rw [List.all_map]
    exact congrArg version.all (funext fun c => by simp [Hex.isDigit])
  rw [knownVersion, List.length_map, hdigits, bne_iff_ne.2 hreserved, Bool.and_true]

-- Of the version it counts only whether it is known and whether it is the first.
theorem ofFields_of_versions {version version' : List Char}
    (hknown : knownVersion version = knownVersion version')
    (hfirst : version = ['0', '0'] ↔ version' = ['0', '0']) (rest : List (List Char)) :
    ofFields (version :: rest) = ofFields (version' :: rest) := by
  match rest with
  | [] | [_] | [_, _] => rfl
  | _ :: _ :: _ :: _ => simp only [ofFields, hknown, hfirst]

theorem ofFields_map {f : Char → Char} (h : ∀ c, Hex.value? (f c) = Hex.value? c)
    (version : List Char) (rest : List (List Char)) :
    ofFields (version :: rest.map (List.map f)) = ofFields (version :: rest) := by
  match rest with
  | [] | [_] | [_, _] => rfl
  | _ :: _ :: _ :: _ =>
    simp only [List.map_cons, ofFields, Id.ofDigits?, TraceFlags.ofDigits?, Hex.decode_map h, ne_eq,
      List.map_eq_nil_iff]

-- The reserved version is read in uppercase as if it were any later one.
theorem ofFields_toUpper (version : List Char) (rest : List (List Char)) :
    ofFields ((version :: rest).map (List.map Char.toUpper)) =
      ofFields ((if version = ['f', 'f'] then ['0', '1'] else version) :: rest) := by
  rw [List.map_cons, ofFields_map Hex.value?_toUpper]
  apply ofFields_of_versions
  · rw [knownVersion_map_toUpper]
    split
    · rename_i hreserved
      rw [hreserved]
      decide
    · rename_i hother
      rw [knownVersion, bne_iff_ne.2 hother, Bool.and_true]
  · rw [map_toUpper_eq_iff (by simp)]
    split
    · rename_i hreserved
      rw [hreserved]
      decide
    · rfl

/-- A text with the reserved version, in lowercase, and with all the fields that are read. -/
def IsReserved (s : String) : Prop :=
  let fields := Fields.split '-' (trim s.toList)
  fields[0]? = some ['f', 'f'] ∧ 4 ≤ fields.length

theorem ofFields_reserved {rest : List (List Char)} (h : 3 ≤ rest.length) :
    ofFields (['f', 'f'] :: rest) = .error .unsupportedVersion := by
  match rest, h with
  | _ :: _ :: _ :: _, _ => rfl

-- A version that is known is never the reason to refuse.
theorem ofFields_ne_unsupportedVersion {version : List Char} (h : knownVersion version = true)
    (rest : List (List Char)) : ofFields (version :: rest) ≠ .error .unsupportedVersion := by
  intro hrefused
  have hfirst := ofFields_of_flaw? (version :: rest)
  cases hflaw : flaw? (version :: rest) with
  | none => simp [hflaw, hrefused] at hfirst
  | some e =>
    rw [hflaw] at hfirst
    have he : e = .unsupportedVersion := Except.error.inj (hfirst.symm.trans hrefused)
    have hhas : HasFlaw (version :: rest) e := by simpa using List.find?_some hflaw
    rw [he, hasFlaw_unsupportedVersion_iff, h] at hhas
    cases hhas

end Traceparent

namespace SpanContext

open Traceparent

theorem ofTraceparent_toUpper (s : String) :
    ofTraceparent s.toUpper =
      ofFields ((Fields.split '-' (trim s.toList)).map (List.map Char.toUpper)) := by
  rw [ofTraceparent, ofChars, String.toUpper, String.toList_map, trim_map isBlank_toUpper,
    Fields.split_map fun c => toUpper_eq_iff (by decide)]

/--
A text and the same text in uppercase are read alike, as the same context or refused for the same
reason, unless the version is the reserved one.  That version is refused in lowercase, but in
uppercase it is read as any later version is.
-/
theorem upper_case_read_alike_iff (s : String) :
    (ofTraceparent s.toUpper = ofTraceparent s ↔ ¬IsReserved s) ∧
      (IsReserved s → ofTraceparent s = .error .unsupportedVersion ∧
        ofTraceparent s.toUpper =
          ofFields (['0', '1'] :: (Fields.split '-' (trim s.toList)).tail)) := by
  have hplain : ofTraceparent s = ofFields (Fields.split '-' (trim s.toList)) := rfl
  rw [ofTraceparent_toUpper, hplain, IsReserved]
  obtain ⟨version, rest, hfields⟩ := List.exists_cons_of_ne_nil
    (Fields.split_ne_nil '-' (trim s.toList))
  rw [hfields, ofFields_toUpper]
  simp only [List.getElem?_cons_zero, Option.some.injEq, List.length_cons, List.tail_cons]
  by_cases hversion : version = ['f', 'f']
  · rw [if_pos hversion, hversion]
    by_cases hlength : 3 ≤ rest.length
    · have hread : ofFields (['0', '1'] :: rest) ≠ .error .unsupportedVersion :=
        ofFields_ne_unsupportedVersion (by decide) rest
      rw [ofFields_reserved hlength]
      simp [hread, hlength]
    · -- Without all the fields the version is not looked at.
      have hshort (version : List Char) : ofFields (version :: rest) = .error .malformed :=
        ofFields_of_short (by rw [List.length_cons]; omega)
      rw [hshort, hshort]
      simp [hlength]
  · rw [if_neg hversion]
    simp [hversion]

-- In uppercase the reserved version is read, with whatever follows it.
theorem reserved_version_read_in_upper_case :
    let s := "ff-4bf92f3577b34da6a3ce929d0e0e4736-00f067aa0ba902b7-01"
    IsReserved s ∧ ofTraceparent s = .error .unsupportedVersion ∧
      ofTraceparent s.toUpper = .ok ⟨.ofNat 16 0x4bf92f3577b34da6a3ce929d0e0e4736,
        .ofNat 8 0x00f067aa0ba902b7, none, ⟨1⟩, none⟩ := by
  intro s
  have hreserved : IsReserved s := by
    unfold IsReserved
    decide +kernel
  obtain ⟨hrefused, hread⟩ := (upper_case_read_alike_iff s).2 hreserved
  refine ⟨hreserved, hrefused, hread.trans ?_⟩
  decide +kernel

-- So letter case does count.
theorem upper_case_not_read_alike :
    ¬∀ s : String, ofTraceparent s.toUpper = ofTraceparent s := by
  intro h
  have hsame := h "ff-4bf92f3577b34da6a3ce929d0e0e4736-00f067aa0ba902b7-01"
  revert hsame
  decide +kernel

end SpanContext

end CallTrace
