/-!
# Decimal text of a binary fraction

A positive number m · 2^q stands for every real number that rounds to it.  `shortest` gives the
point of the coarsest decimal grid that does so, hence the fewest digits that read back; of two such
points it takes the nearer, and the upper one of two at the same distance.  `positional` writes the
point without an exponent.
-/

namespace CallTrace.Decimal

/-- The interval of the real numbers that round to one binary fraction, over one denominator. -/
structure Rounding where
  low : Nat
  value : Nat
  high : Nat
  denominator : Nat
  -- Whether the ends belong to the interval.
  closed : Bool

/--
The interval around m · 2^q: half a unit on both sides, but a quarter below when the neighbour below
is twice as near.  The ends round to m exactly when m is even.
-/
def Rounding.ofBinary (m : Nat) (q : Int) (nearBelow : Bool) : Rounding :=
  let scale := Nat.pow 2 (q - 2).toNat
  { low := (4 * m - if nearBelow then 1 else 2) * scale
    value := 4 * m * scale
    high := (4 * m + 2) * scale
    denominator := Nat.pow 2 (2 - q).toNat
    closed := m % 2 == 0 }

def Rounding.contains (r : Rounding) (d : Nat) (k : Int) : Bool :=
  let point := d * Nat.pow 10 k.toNat * r.denominator
  let unit := Nat.pow 10 (-k).toNat
  if r.closed then r.low * unit ≤ point && point ≤ r.high * unit
  else r.low * unit < point && point < r.high * unit

-- The point of the grid 10^k in the interval that is nearest to the value.
def Rounding.nearest? (r : Rounding) (k : Int) : Option Nat :=
  let step := Nat.pow 10 k.toNat * r.denominator
  let value := r.value * Nat.pow 10 (-k).toNat
  let below := value / step
  let above := below + 1
  match r.contains below k, r.contains above k with
  | true, true => some (if value - below * step < above * step - value then below else above)
  | true, false => some below
  | false, true => some above
  | false, false => none

/-- Tries the grids 10^k, 10^(k-1) and so on; the first with a point in the interval wins. -/
def Rounding.search (r : Rounding) : Nat → Int → Nat × Int
  | 0, k => (0, k)
  | tries + 1, k =>
    match r.nearest? k with
    | some d => (d, k)
    | none => r.search tries (k - 1)

/--
The digits d and the exponent k of the shortest d · 10^k that rounds to m · 2^q.  No double reaches
10^309, and every double is a multiple of 10^-1074.
-/
def shortest (m : Nat) (q : Int) (nearBelow : Bool) : Nat × Int :=
  (Rounding.ofBinary m q nearBelow).search 1400 309

-- Writes d · 10^k with a point where it is needed and no exponent.
def positional (d : Nat) (k : Int) : String :=
  if 0 ≤ k then toString d ++ "".pushn '0' k.toNat
  else
    let places := (-k).toNat
    let unit := Nat.pow 10 places
    let whole := d / unit
    let part := Nat.toDigits 10 (d % unit)
    toString whole ++ "." ++ String.ofList (List.replicate (places - part.length) '0' ++ part)

end CallTrace.Decimal
