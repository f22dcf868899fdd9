import CallTrace.Text.Outline
import CallTrace.Text.Quoted

/-!
# Messages

What a call carries.  The tracing layer needs of a message only the text under which it is logged,
so it works for every type with such a text.
-/

namespace CallTrace

/-- Messages that can be logged. -/
class Payload (M : Type) where
  text : M → String

inductive Message
  | unit
  | bool (value : Bool)
  | int (value : Int)
  | text (value : String)
  | list (items : List Message)
  | request (name : String)
  | reply (message : String)
deriving Repr

namespace Message

mutual

def render : Message → String
  | unit => "()"
  | bool b => Outline.bool b
  | int n => toString n
  | text s => Quoted.encode s
  | list items => "[" ++ renderAll items ++ "]"
  | request name => Outline.record "HelloRequest" [("name", Quoted.encode name)]
  | reply message => Outline.record "HelloReply" [("message", Quoted.encode message)]

def renderAll : List Message → String
  | [] => ""
  | [m] => render m
  | m :: ms => render m ++ ", " ++ renderAll ms

end

instance : Payload Message := ⟨render⟩

end Message

end CallTrace
