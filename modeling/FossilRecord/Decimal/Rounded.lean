import FossilRecord.Decimal.Shortest

/-!
# A fixed number of digits

The magnitude of a binary number rounded to a number of decimal digits, a half upwards.
-/

namespace FossilRecord.Decimal.Binary64

/-- The power of ten of the first decimal digit of the quotient of two positive numbers. -/
def leadingPower (num den : Nat) : Int :=
  if den ≤ num then (Nat.toDigits 10 (num / den)).length - 1
  else -((Nat.toDigits 10 ((den - 1) / num)).length : Int)

/-- The magnitude of `x` to `count` digits, without zeros at the end; zero gives the digit zero. -/
def roundedTo (count : Nat) (x : Binary64) : Digits :=
  if x.mantissa = 0 then ⟨0, 0⟩
  else
    let (num, den) := x.ratio
    let scale : Int := leadingPower num den - (count : Int) + 1
    let (n, d) : Nat × Nat :=
      if 0 ≤ scale then (num, den * Nat.pow 10 scale.toNat)
      else (num * Nat.pow 10 (-scale).toNat, den)
    stripZeros (count + 1) ⟨(2 * n + d) / (2 * d), scale⟩

end FossilRecord.Decimal.Binary64
