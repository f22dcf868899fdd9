import CallTrace.Text.Hex
import CallTrace.Text.Shown

/-!
# Quoted text

A text between double quotes, in which quotes, backslashes and the characters that are not shown are
escaped.  The lone quote stays as it is.
-/

namespace CallTrace.Quoted

def escape (c : Char) : List Char :=
  match c with
  | '"' => ['\\', '"']
  | '\\' => ['\\', '\\']
  | '\n' => ['\\', 'n']
  | '\r' => ['\\', 'r']
  | '\t' => ['\\', 't']
  | '\x00' => ['\\', '0']
  | c => if isShown c then [c] else ['\\', 'u', '\x7b'] ++ Hex.ofNat c.toNat ++ ['\x7d']

def encode (s : String) : String :=
  String.ofList ('"' :: s.toList.flatMap escape ++ ['"'])

end CallTrace.Quoted
