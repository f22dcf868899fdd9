/-!
# Outlines

The one-line text of a record value: its name, then its fields between braces, or one value between
brackets.
-/

namespace CallTrace.Outline

def braces (name : String) (parts : List String) : String :=
  name ++ " \x7b " ++ ", ".intercalate parts ++ " \x7d"

def record (name : String) (fields : List (String × String)) : String :=
  braces name (fields.map fun f => f.1 ++ ": " ++ f.2)

def openRecord (name : String) (fields : List (String × String)) : String :=
  braces name (fields.map (fun f => f.1 ++ ": " ++ f.2) ++ [".."])

def wrap (name value : String) : String := name ++ "(" ++ value ++ ")"

def option : Option String → String
  | none => "None"
  | some value => wrap "Some" value

def bool (b : Bool) : String := if b then "true" else "false"

end CallTrace.Outline
