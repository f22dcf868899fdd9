import CallTrace.Text.Decimal

/-!
# Double-precision numbers

A double is kept as its bits.  Equality is that of the floating-point standard: no NaN equals
anything, and the two zeros are equal.
-/

namespace CallTrace

/-- A double-precision number by its bits. -/
structure Binary64 where
  bits : UInt64
deriving DecidableEq, Repr

namespace Binary64

def negative (x : Binary64) : Bool := x.bits >>> 63 != 0

def exponent (x : Binary64) : Nat := (x.bits >>> 52 &&& 0x7FF).toNat

def fraction (x : Binary64) : Nat := (x.bits &&& 0xFFFFFFFFFFFFF).toNat

def isNaN (x : Binary64) : Bool := x.exponent == 0x7FF && x.fraction != 0

def isZero (x : Binary64) : Bool := x.exponent == 0 && x.fraction == 0

def eq (x y : Binary64) : Bool :=
  !x.isNaN && !y.isNaN && (x.bits == y.bits || (x.isZero && y.isZero))

-- The text of a number that is neither negative nor NaN.
def magnitudeText (x : Binary64) : String :=
  if x.exponent = 0x7FF then "inf"
  else if x.isZero then "0"
  else
    let significand := if x.exponent = 0 then x.fraction else x.fraction + 0x10000000000000
    let q : Int := (max x.exponent 1 : Nat) - 1075
    let (d, k) := Decimal.shortest significand q (x.fraction == 0 && 1 < x.exponent)
    Decimal.positional d k

-- The fewest digits that read back, without an exponent and without a trailing point.
def text (x : Binary64) : String :=
  if x.isNaN then "NaN" else (if x.negative then "-" else "") ++ x.magnitudeText

end Binary64

end CallTrace
