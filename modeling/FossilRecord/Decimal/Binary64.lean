/-!
# Binary floating-point numbers of 64 bits

A number is kept as its bit pattern.  Its value is read off as a whole number times a power of two,
and rounding to the nearest number, ties to an even last bit, is done in exact whole-number
arithmetic.
-/

namespace FossilRecord.Decimal

/-- A number of the binary64 format, by its bits. -/
structure Binary64 where
  bits : UInt64
deriving DecidableEq, Repr

namespace Binary64

/-- Whether the sign bit is set. -/
def isNegative (x : Binary64) : Bool :=
  x.bits >>> 63 == 1

/-- The eleven exponent bits. -/
def exponentBits (x : Binary64) : Nat :=
  ((x.bits >>> 52) &&& 0x7FF).toNat

/-- The fifty-two bits after the leading one. -/
def fractionBits (x : Binary64) : Nat :=
  (x.bits &&& 0xFFFFFFFFFFFFF).toNat

/-- The whole number `m` of the magnitude `m * 2 ^ (exponent x)`. -/
def mantissa (x : Binary64) : Nat :=
  if x.exponentBits = 0 then x.fractionBits else Nat.pow 2 52 + x.fractionBits

/-- The power of two of the magnitude `mantissa x * 2 ^ e`. -/
def exponent (x : Binary64) : Int :=
  if x.exponentBits = 0 then -1074 else (x.exponentBits : Int) - 1075

/-- Zero, with its sign. -/
def zero (negative : Bool) : Binary64 :=
  ⟨if negative then 0x8000000000000000 else 0⟩

/-- The quotient rounded to the nearest whole number, a half to the even one. -/
def roundQuotient (num den : Nat) : Nat :=
  let q := num / den
  let r := num % den
  if 2 * r < den then q
  else if den < 2 * r then q + 1
  else if q % 2 = 0 then q else q + 1

/-- The quotient `num / (den * 2 ^ q)` as a fraction of whole numbers. -/
def scaled (num den : Nat) (q : Int) : Nat × Nat :=
  if 0 ≤ q then (num, den * Nat.pow 2 q.toNat) else (num * Nat.pow 2 (-q).toNat, den)

/-- The number nearest to `num / den`, ties to even; `none` when it is out of range. -/
def ofRatio (negative : Bool) (num den : Nat) : Option Binary64 :=
  if num = 0 then some (zero negative)
  else
    let k : Int := (Nat.log2 num : Int) - (Nat.log2 den : Int)
    let q₀ : Int := max (k - 52) (-1074)
    let (n₀, d₀) := scaled num den q₀
    let q : Int := if n₀ / d₀ < Nat.pow 2 52 then max (q₀ - 1) (-1074) else q₀
    let (n, d) := scaled num den q
    let rounded := roundQuotient n d
    let m := if rounded = Nat.pow 2 53 then Nat.pow 2 52 else rounded
    let q := if rounded = Nat.pow 2 53 then q + 1 else q
    if 971 < q then none
    else
      let magnitude : Nat :=
        if m < Nat.pow 2 52 then m else (q + 1075).toNat * Nat.pow 2 52 + (m - Nat.pow 2 52)
      some ⟨UInt64.ofNat magnitude ||| (zero negative).bits⟩

/-- The magnitude as a fraction of whole numbers. -/
def ratio (x : Binary64) : Nat × Nat :=
  if 0 ≤ x.exponent then (x.mantissa * Nat.pow 2 x.exponent.toNat, 1)
  else (x.mantissa, Nat.pow 2 (-x.exponent).toNat)

/-- The magnitude times `10 ^ n`, rounded; `none` when out of range. -/
def mulPow10 (x : Binary64) (n : Nat) : Option Binary64 :=
  match ofRatio false (Nat.pow 10 n) 1 with
  | none => none
  | some p => ofRatio x.isNegative (x.ratio.1 * p.ratio.1) (x.ratio.2 * p.ratio.2)

/-- The magnitude divided by `10 ^ n`, rounded. -/
def divPow10 (x : Binary64) (n : Nat) : Option Binary64 :=
  match ofRatio false (Nat.pow 10 n) 1 with
  | none => none
  | some p => ofRatio x.isNegative (x.ratio.1 * p.ratio.2) (x.ratio.2 * p.ratio.1)

/-- Whether the number is a whole number. -/
def isWhole (x : Binary64) : Bool :=
  x.ratio.1 % x.ratio.2 == 0

/-- The number without its fraction. -/
def truncated (x : Binary64) : Int :=
  let n : Int := ((x.ratio.1 / x.ratio.2 : Nat) : Int)
  if x.isNegative then -n else n

end Binary64

end FossilRecord.Decimal
