import FossilRecord.Decimal.Binary64

/-!
# The fewest digits that read back

For a positive binary number, the shortest run of decimal digits and the power of ten that round to
it, and of several of that length the one nearest to the number.
-/

namespace FossilRecord.Decimal

/-- Decimal digits with the power of ten of the last one. -/
structure Digits where
  value : Nat
  scale : Int
deriving DecidableEq, Repr

namespace Binary64

/-- The gap down to the next smaller number is half as wide at a power of two. -/
def hasNarrowGapBelow (x : Binary64) : Bool :=
  x.fractionBits == 0 && 1 < x.exponentBits

/-- The numbers that round to `x` lie between the bounds `low / den` and `high / den`, and the value
is `mid / den`; the bounds belong to them when the last bit of `x` is even. -/
structure Neighbourhood where
  low : Nat
  mid : Nat
  high : Nat
  den : Nat
  closed : Bool

/-- The interval of reals that round to `x`. -/
def neighbourhood (x : Binary64) : Neighbourhood :=
  let m := x.mantissa
  let low := if x.hasNarrowGapBelow then 4 * m - 1 else 4 * m - 2
  let (scaleUp, den) : Nat × Nat :=
    if 0 ≤ x.exponent then (Nat.pow 2 x.exponent.toNat, 4)
    else (1, 4 * Nat.pow 2 (-x.exponent).toNat)
  ⟨low * scaleUp, 4 * m * scaleUp, (4 * m + 2) * scaleUp, den, m % 2 == 0⟩

/-- Whether `n / d` rounds to the number whose neighbourhood is `b`. -/
def Neighbourhood.contains (b : Neighbourhood) (n d : Nat) : Bool :=
  if b.closed then b.low * d ≤ n * b.den && n * b.den ≤ b.high * d
  else b.low * d < n * b.den && n * b.den < b.high * d

/-- The value of digits as a fraction. -/
def digitsRatio (v : Nat) (scale : Int) : Nat × Nat :=
  if 0 ≤ scale then (v * Nat.pow 10 scale.toNat, 1) else (v, Nat.pow 10 (-scale).toNat)

/-- The point of the grid of multiples of `10 ^ scale` that is in the neighbourhood, the nearer one
if both neighbours are; on a tie the even one. -/
def onGrid? (b : Neighbourhood) (scale : Int) : Option Digits :=
  let (n, d) : Nat × Nat :=
    if 0 ≤ scale then (b.mid, b.den * Nat.pow 10 scale.toNat)
    else (b.mid * Nat.pow 10 (-scale).toNat, b.den)
  let below := n / d
  let rest := n % d
  let fits (v : Nat) : Bool :=
    let (vn, vd) := digitsRatio v scale
    0 < v && b.contains vn vd
  match fits below, fits (below + 1) with
  | true, true =>
      if 2 * rest < d then some ⟨below, scale⟩
      else if d < 2 * rest then some ⟨below + 1, scale⟩
      else some ⟨if below % 2 = 0 then below else below + 1, scale⟩
  | true, false => some ⟨below, scale⟩
  | false, true => some ⟨below + 1, scale⟩
  | false, false => none

/-- Tries `count` grids from the coarsest, `10 ^ scale`, to finer ones. -/
def firstOnGrid (b : Neighbourhood) : (count : Nat) → (scale : Int) → Option Digits
  | 0, _ => none
  | count + 1, scale =>
      match onGrid? b scale with
      | some d => some d
      | none => firstOnGrid b count (scale - 1)

/-- Digits without zeros at the end; `fuel` bounds their number. -/
def stripZeros : (fuel : Nat) → Digits → Digits
  | 0, d => d
  | fuel + 1, d =>
      if d.value != 0 && d.value % 10 == 0 then stripZeros fuel ⟨d.value / 10, d.scale + 1⟩ else d

/-- The shortest digits that round to the magnitude of `x`; zero gives the digit zero. -/
def shortest (x : Binary64) : Digits :=
  if x.mantissa = 0 then ⟨0, 0⟩
  else
    let b := x.neighbourhood
    let (n, d) := x.ratio
    let top : Int :=
      if d ≤ n then (Nat.toDigits 10 (n / d)).length
      else -((Nat.toDigits 10 (d / n)).length : Int) + 1
    match firstOnGrid b 20 (top + 1) with
    | some found => stripZeros 400 found
    | none => ⟨0, 0⟩

end Binary64

end FossilRecord.Decimal
