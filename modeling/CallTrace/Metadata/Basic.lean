import CallTrace.Metadata.Key
import CallTrace.Text.Bytes

/-!
# Metadata

The headers of a request or response.  A key may have several values, which follow each other; keys
stand in the order in which they first came.  Replacing the values of a key keeps its place.
-/

namespace CallTrace

/-- The bytes of a stored value; binary values are stored in base64. -/
abbrev MetadataValue := List UInt8

namespace MetadataValue

-- A value that reads as text: tabs and printable ASCII.
def isVisible (value : MetadataValue) : Bool := value.all fun b => b == 9 || (32 ≤ b && b ≤ 126)

def text? (value : MetadataValue) : Option String :=
  if value.isVisible then some (Bytes.ascii value) else none

-- The value of a text without control bytes other than tab.
def ofText? (s : String) : Option MetadataValue :=
  let bytes := Bytes.ofText s
  if bytes.all fun b => b == 9 || (32 ≤ b && b != 127) then some bytes else none

def ofBinary (bytes : List UInt8) : MetadataValue :=
  (Bytes.base64 bytes).map fun c => UInt8.ofNat c.toNat

end MetadataValue

/-- One key with its values, oldest first. -/
structure MetadataGroup where
  key : MetadataKey
  first : MetadataValue
  more : List MetadataValue := []
deriving DecidableEq, Repr

def MetadataGroup.values (group : MetadataGroup) : List MetadataValue := group.first :: group.more

structure Metadata where
  groups : List MetadataGroup
  nodup_keys : (groups.map MetadataGroup.key).Nodup
deriving DecidableEq, Repr

namespace Metadata

def empty : Metadata := ⟨[], List.nodup_nil⟩

def keys (m : Metadata) : List MetadataKey := m.groups.map MetadataGroup.key

def entries (m : Metadata) : List (MetadataKey × MetadataValue) :=
  m.groups.flatMap fun g => g.values.map (g.key, ·)

def find? (m : Metadata) (key : MetadataKey) : Option MetadataGroup :=
  m.groups.find? (·.key == key)

-- Changes the group of a key, or adds a group at the end.
def alter (m : Metadata) (key : MetadataKey) (change : MetadataGroup → MetadataGroup)
    (keeps : ∀ g, (change g).key = g.key) (value : MetadataValue) : Metadata :=
  if h : key ∈ m.keys then
    { groups := m.groups.map fun g => if g.key = key then change g else g
      nodup_keys := by
        have : m.groups.map (MetadataGroup.key ∘ fun g => if g.key = key then change g else g) =
            m.groups.map MetadataGroup.key := by
          apply List.map_congr_left
          intro g _
          by_cases hg : g.key = key <;> simp [hg, keeps]
        rw [List.map_map, this]
        exact m.nodup_keys }
  else
    { groups := m.groups ++ [{ key, first := value }]
      nodup_keys := by
        rw [List.map_append, List.map_singleton, List.nodup_append]
        refine ⟨m.nodup_keys, by simp, ?_⟩
        intro a ha b hb
        rw [List.mem_singleton] at hb
        subst hb
        rintro rfl
        exact h ha }

def append (m : Metadata) (key : MetadataKey) (value : MetadataValue) : Metadata :=
  m.alter key (fun g => { g with more := g.more ++ [value] }) (fun _ => rfl) value

def insert (m : Metadata) (key : MetadataKey) (value : MetadataValue) : Metadata :=
  m.alter key (fun g => { g with first := value, more := [] }) (fun _ => rfl) value

-- All entries on one line; bytes that are no UTF-8 are replaced.
def headersText (m : Metadata) : String :=
  "; ".intercalate (m.entries.map fun e => e.1.text ++ " = " ++ Bytes.readText e.2)

theorem mem_keys_iff {m : Metadata} {key : MetadataKey} :
    key ∈ m.keys ↔ (m.find? key).isSome = true := by
  simp [keys, find?, List.find?_isSome]

theorem key_of_find? {m : Metadata} {key : MetadataKey} {g : MetadataGroup}
    (h : m.find? key = some g) : g.key = key := by
  have := List.find?_some h
  simpa using this

-- Only the group of the key changes.
theorem find?_alter (m : Metadata) (key k : MetadataKey) (change : MetadataGroup → MetadataGroup)
    (keeps : ∀ g, (change g).key = g.key) (value : MetadataValue) :
    (m.alter key change keeps value).find? k =
      if key = k then some (((m.find? key).map change).getD { key, first := value })
      else m.find? k := by
  unfold alter
  split
  · rename_i h
    unfold find?
    simp only
    rw [List.find?_map]
    have hp : ((fun g : MetadataGroup => g.key == k) ∘
        fun g => if g.key = key then change g else g) = fun g => g.key == k := by
      funext g
      simp only [Function.comp_apply]
      split
      · rw [keeps]
      · rfl
    rw [hp]
    split
    · rename_i hk
      subst hk
      obtain ⟨g, hg⟩ := Option.isSome_iff_exists.1 (mem_keys_iff.1 h)
      have hgk := key_of_find? hg
      unfold find? at hg
      rw [hg]
      simp [hgk]
    · rename_i hk
      cases hg : m.groups.find? (fun g => g.key == k) with
      | none => rfl
      | some g =>
        have : g.key = k := key_of_find? (m := m) hg
        simp only [Option.map_some]
        rw [if_neg (fun e => hk (by rw [← e, this]))]
  · rename_i h
    unfold find?
    simp only
    rw [List.find?_append]
    split
    · rename_i hk
      subst hk
      have : m.groups.find? (fun g => g.key == key) = none := by
        rw [List.find?_eq_none]
        intro g hg hgk
        exact h (List.mem_map.2 ⟨g, hg, by simpa using hgk⟩)
      simp [this]
    · rename_i hk
      simp [beq_false_of_ne hk]

end Metadata

end CallTrace
