import CallTrace.Text.Hex

/-!
# Peer addresses

The address of the far end of a call and its text.  An IPv6 address leaves out its longest run of
zero words, the leftmost of several, when the run has at least two; a mapped IPv4 address keeps its
dotted form.
-/

namespace CallTrace

/-- The four bytes of an IPv4 address. -/
structure IPv4 where
  a : UInt8
  b : UInt8
  c : UInt8
  d : UInt8
deriving DecidableEq, Repr

structure IPv6 where
  words : List UInt16
  length_words : words.length = 8
deriving DecidableEq, Repr

inductive Peer
  | v4 (ip : IPv4) (port : UInt16)
  | v6 (ip : IPv6) (port : UInt16) (scope : UInt32) (flow : UInt32)
deriving DecidableEq, Repr

def IPv4.text (ip : IPv4) : String :=
  ".".intercalate ([ip.a, ip.b, ip.c, ip.d].map fun b => toString b.toNat)

namespace IPv6

def leadingZeros (words : List UInt16) : Nat := (words.takeWhile (· == 0)).length

/-- The start and length of the longest run of zero words; of equal runs, the leftmost. -/
def longestZeros : List UInt16 → Nat × Nat
  | [] => (0, 0)
  | word :: rest =>
    let here := leadingZeros (word :: rest)
    let later := longestZeros rest
    if later.2 ≤ here then (0, here) else (later.1 + 1, later.2)

def wordsText (words : List UInt16) : String :=
  ":".intercalate (words.map fun w => String.ofList (Hex.ofNat w.toNat))

def text (ip : IPv6) : String :=
  match ip.words with
  | [0, 0, 0, 0, 0, 0xFFFF, hi, lo] =>
    "::ffff:" ++ (IPv4.mk (hi >>> 8).toUInt8 hi.toUInt8 (lo >>> 8).toUInt8 lo.toUInt8).text
  | words =>
    let (start, length) := longestZeros words
    if 2 ≤ length then
      wordsText (words.take start) ++ "::" ++ wordsText (words.drop (start + length))
    else wordsText words

end IPv6

namespace Peer

def ipText : Peer → String
  | v4 ip _ => ip.text
  | v6 ip _ _ _ => ip.text

def port : Peer → UInt16
  | v4 _ port => port
  | v6 _ port _ _ => port

/-- The address with its port; a scope other than zero follows the IPv6 address. -/
def text : Peer → String
  | v4 ip port => ip.text ++ ":" ++ toString port.toNat
  | v6 ip port scope _ =>
    let scopeText := if scope = 0 then "" else "%" ++ toString scope.toNat
    "[" ++ ip.text ++ scopeText ++ "]:" ++ toString port.toNat

end Peer

end CallTrace
