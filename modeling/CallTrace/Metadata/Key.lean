/-!
# Metadata keys

Keys are compared without regard to ASCII case, so a key is stored in lowercase.  A key that ends in
`-bin` names binary values; all other keys name text.
-/

namespace CallTrace

-- ASCII letters in lowercase; other characters stay.
def lowercase (s : String) : String := String.ofList (s.toList.map Char.toLower)

theorem toLower_toLower (c : Char) : c.toLower.toLower = c.toLower := by
  unfold Char.toLower
  split
  · rename_i h
    simp only [ge_iff_le, UInt32.le_iff_toNat_le] at h
    have h1 : 65 ≤ c.val.toNat := h.1
    have h2 : c.val.toNat ≤ 90 := h.2
    rw [dif_neg]
    simp only [ge_iff_le, UInt32.le_iff_toNat_le, UInt32.toNat_add, not_and, Nat.not_le]
    intro _
    show 90 < (c.val.toNat + 32) % 4294967296
    omega
  · rfl

@[simp] theorem lowercase_lowercase (s : String) : lowercase (lowercase s) = lowercase s := by
  have h : Char.toLower ∘ Char.toLower = Char.toLower := funext toLower_toLower
  rw [lowercase, lowercase, String.toList_ofList, List.map_map, h]

/-- A metadata key in lowercase. -/
structure MetadataKey where
  text : String
  lowercase_text : lowercase text = text
deriving DecidableEq, Repr

namespace MetadataKey

def of (s : String) : MetadataKey := ⟨lowercase s, lowercase_lowercase s⟩

def isBinary (key : MetadataKey) : Bool := ['-', 'b', 'i', 'n'].isSuffixOf key.text.toList

def isKeyChar (c : Char) : Bool :=
  c.isAlphanum || "!#$%&'*+-.^_\x60|~".toList.contains c

/-- The key of a textual entry: one to 65535 key characters, and not a binary key. -/
def ofText? (s : String) : Option MetadataKey :=
  let cs := s.toList
  let key := of s
  if 1 ≤ cs.length ∧ cs.length ≤ 65535 ∧ cs.all isKeyChar ∧ !key.isBinary then some key else none

@[simp] theorem of_text (key : MetadataKey) : of key.text = key := by
  cases key with
  | mk text h => simp [of, h]

end MetadataKey

end CallTrace
