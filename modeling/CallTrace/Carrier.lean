import CallTrace.Error
import CallTrace.Metadata.Basic

/-!
# Carriers

A carrier holds the headers in which a span context travels.  Reading looks one header up; writing
may refuse a header, and then says why.
-/

namespace CallTrace

/-- A carrier that can be read. -/
class Readable (κ : Type) where
  get? : κ → String → Option String
  keys : κ → List String
  -- The pairs of a key and a value that can be read as text.
  entries : κ → List (String × String)

class Writable (κ : Type) where
  -- Writes a header in place of its earlier values.
  set : κ → String → String → κ × Except Error Unit

export Readable (get?)

-- Writes headers in order up to the first that is refused.
def writeAll {κ : Type} [Writable κ] (carrier : κ) : List (String × String) → κ × Except Error Unit
  | [] => (carrier, .ok ())
  | (key, value) :: rest =>
    match Writable.set carrier key value with
    | (carrier, .ok ()) => writeAll carrier rest
    | (carrier, .error e) => (carrier, .error e)

/-! ## Metadata as a carrier of text -/

namespace Metadata

/-- The first value of a key in any case, if the key is textual and the value reads as text. -/
def text? (m : Metadata) (key : String) : Option String :=
  let key := MetadataKey.of key
  if key.isBinary then none else (m.find? key).bind fun g => MetadataValue.text? g.first

def textKeys (m : Metadata) : List String :=
  (m.keys.filter fun k => !k.isBinary).map MetadataKey.text

def textEntries (m : Metadata) : List (String × String) :=
  m.entries.filterMap fun e =>
    if e.1.isBinary then none else (MetadataValue.text? e.2).map (e.1.text, ·)

/-- Replaces a textual key; an unfit key is found before an unfit value. -/
def setText (m : Metadata) (key value : String) : Metadata × Except Error Unit :=
  match MetadataKey.ofText? key with
  | none => (m, .error Error.metadataKey)
  | some key =>
    match MetadataValue.ofText? value with
    | none => (m, .error Error.metadataValue)
    | some value => (m.insert key value, .ok ())

instance : Readable Metadata := ⟨text?, textKeys, textEntries⟩

instance : Writable Metadata := ⟨setText⟩

end Metadata

/-! ## Text maps -/

/-- Texts under texts, in the order of the keys; keys are compared as they are. -/
structure TextMap where
  entries : List (String × String) := []
deriving DecidableEq, Repr

namespace TextMap

/-- Puts a pair in its place in the order, or replaces the value that is there. -/
def insertEntry (key value : String) : List (String × String) → List (String × String)
  | [] => [(key, value)]
  | (k, v) :: rest =>
    if key = k then (key, value) :: rest
    else if key < k then (key, value) :: (k, v) :: rest
    else (k, v) :: insertEntry key value rest

def insert (m : TextMap) (key value : String) : TextMap := ⟨insertEntry key value m.entries⟩

def ofList (pairs : List (String × String)) : TextMap :=
  pairs.foldl (fun m p => m.insert p.1 p.2) {}

def find? (m : TextMap) (key : String) : Option String :=
  (m.entries.find? (·.1 == key)).map (·.2)

theorem find?_insert (m : TextMap) (key value k : String) :
    (m.insert key value).find? k = if key = k then some value else m.find? k := by
  suffices h : ∀ l : List (String × String), (insertEntry key value l).find? (·.1 == k) =
      if key = k then some (key, value) else l.find? (·.1 == k) by
    unfold find? insert
    rw [h]
    split <;> rfl
  intro l
  induction l with
  | nil => simp [insertEntry, List.find?_cons]; split <;> simp_all
  | cons e rest ih =>
    obtain ⟨k', v'⟩ := e
    have step (x : String) (y : String) (r : List (String × String)) :
        ((x, y) :: r).find? (·.1 == k) = if x = k then some (x, y) else r.find? (·.1 == k) := by
      by_cases h : x = k
      · simp [h]
      · rw [List.find?_cons_of_neg (by simpa using h), if_neg h]
    unfold insertEntry
    split
    · rename_i hk
      subst hk
      rw [step, step]
      split <;> rfl
    · rename_i hk
      split
      · rw [step]
      · rw [step, step, ih]
        by_cases h : k' = k
        · subst h; rw [if_pos rfl, if_neg hk, if_pos rfl]
        · rw [if_neg h, if_neg h]

instance : Readable TextMap := ⟨find?, fun m => m.entries.map (·.1), TextMap.entries⟩

instance : Writable TextMap := ⟨fun m key value => (m.insert key value, .ok ())⟩

end TextMap

/-! ## Carriers of limited room -/

/-- Takes so many headers and then refuses; what it took is kept in the order of writing. -/
structure LimitedCarrier where
  room : Nat
  written : List (String × String) := []
deriving DecidableEq, Repr

instance : Writable LimitedCarrier where
  set carrier key value :=
    match carrier.room with
    | 0 => (carrier, .error { kind := .invalidCarrier, message := "no room for " ++ key })
    | room + 1 => ({ room, written := carrier.written ++ [(key, value)] }, .ok ())

end CallTrace
