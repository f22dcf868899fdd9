import CallTrace.Text.Hex

/-!
# Trace flags

One byte of flags travels with a trace.  Its lowest bit says that the trace is sampled; the other
bits are carried along unread.
-/

namespace CallTrace

/-- The flags byte of a trace. -/
structure TraceFlags where
  byte : UInt8
deriving DecidableEq, Repr

namespace TraceFlags

def sampledOnly : TraceFlags := ⟨1⟩

def sampled (flags : TraceFlags) : Bool := flags.byte &&& 1 != 0

def withSampled (flags : TraceFlags) (sampled : Bool) : TraceFlags :=
  if sampled then ⟨flags.byte ||| 1⟩ else ⟨flags.byte &&& ~~~1⟩

def digits (flags : TraceFlags) : List Char := Hex.pair flags.byte

def text (flags : TraceFlags) : String := String.ofList flags.digits

def ofDigits? (digits : List Char) : Option TraceFlags :=
  match Hex.decode digits with
  | some [byte] => some ⟨byte⟩
  | _ => none

def ofText? (s : String) : Option TraceFlags := ofDigits? s.toList

theorem digits_eq_encode (flags : TraceFlags) : flags.digits = Hex.encode [flags.byte] := by
  simp [digits, Hex.encode]

@[simp] theorem ofDigits?_digits (flags : TraceFlags) : ofDigits? flags.digits = some flags := by
  rw [ofDigits?, digits_eq_encode, Hex.decode_encode]

-- What reads as flags is their digits up to letter case.
theorem digits_of_ofDigits? {cs : List Char} {flags : TraceFlags} (h : ofDigits? cs = some flags) :
    flags.digits = cs.map Hex.lower := by
  unfold ofDigits? at h
  split at h
  · rename_i byte hbyte
    cases h
    rw [digits_eq_encode]
    exact Hex.encode_of_decode hbyte
  · cases h

@[simp] theorem sampled_withSampled (flags : TraceFlags) (b : Bool) :
    (flags.withSampled b).sampled = b := by
  cases b
  · have h : flags.byte &&& ~~~1 &&& 1 = 0 := by rw [UInt8.and_assoc]; exact UInt8.and_zero
    simp only [withSampled, sampled, Bool.false_eq_true, if_false, h]
    rfl
  · have h : (flags.byte ||| 1) &&& 1 = 1 := by
      apply UInt8.toBitVec_inj.1
      ext i hi
      simp
      exact Or.inr
    simp only [withSampled, sampled, if_true, h]
    rfl

end TraceFlags

end CallTrace
