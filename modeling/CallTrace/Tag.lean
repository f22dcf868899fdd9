import CallTrace.Binary64

/-!
# Tags and log fields

A tag is a value under a key.  Log fields are tags in the order in which they were given; a key may
come more than once, and then its first value counts.
-/

namespace CallTrace

/-- The value of a tag. -/
inductive TagValue
  | bool (value : Bool)
  | int (value : Int64)
  | float (value : Binary64)
  | text (value : String)
deriving DecidableEq, Repr

namespace TagValue

def text? : TagValue → Option String
  | text s => some s
  | _ => none

def int? : TagValue → Option Int64
  | int n => some n
  | _ => none

def float? : TagValue → Option Binary64
  | float x => some x
  | _ => none

def bool? : TagValue → Option Bool
  | bool b => some b
  | _ => none

def render : TagValue → String
  | bool b => if b then "true" else "false"
  | int n => toString n.toInt
  | float x => x.text
  | text s => s

-- Equality of kind and value; doubles compare as numbers.
def eq : TagValue → TagValue → Bool
  | bool a, bool b => a == b
  | int a, int b => a == b
  | float a, float b => a.eq b
  | text a, text b => a == b
  | _, _ => false

end TagValue

/-! ## The keys in use -/

namespace TagKey

def component := "component"
def spanKind := "span.kind"
def error := "error"
def peerAddress := "peer.address"
def peerIPv4 := "peer.ipv4"
def peerIPv6 := "peer.ipv6"
def peerPort := "peer.port"
def methodName := "grpc.method_name"
def methodType := "grpc.method_type"
def headers := "grpc.headers"
def event := "event"
def message := "message"
def errorKind := "error.kind"
def errorObject := "error.object"
def data := "data"

end TagKey

/-- The fields of one log entry, in order. -/
structure Fields where
  entries : List (String × TagValue) := []
deriving DecidableEq, Repr

namespace Fields

def empty : Fields := {}

def add (fields : Fields) (key : String) (value : TagValue) : Fields :=
  ⟨fields.entries ++ [(key, value)]⟩

def event (name : String) : Fields := empty.add TagKey.event (.text name)

def get? (fields : Fields) (key : String) : Option TagValue :=
  (fields.entries.find? (·.1 == key)).map (·.2)

-- The event's name, if the first event field is a text.
def eventName? (fields : Fields) : Option String := (fields.get? TagKey.event).bind TagValue.text?

def size (fields : Fields) : Nat := fields.entries.length

@[simp] theorem entries_with (fields : Fields) (key : String) (value : TagValue) :
    (fields.add key value).entries = fields.entries ++ [(key, value)] := rfl

-- A field that was there keeps its value when others follow.
theorem get?_add (fields : Fields) (key k : String) (value : TagValue) :
    (fields.add k value).get? key =
      (fields.get? key).or (if k == key then some value else none) := by
  unfold get? add
  rw [List.find?_append]
  cases fields.entries.find? (·.1 == key) with
  | some e => simp
  | none => by_cases h : k == key <;> simp [h]

@[simp] theorem eventName?_event (name : String) : (event name).eventName? = some name := by
  simp [event, eventName?, get?, empty, TagValue.text?]

end Fields

end CallTrace
