import FossilRecord.Decimal.Binary64
import Mathlib.Algebra.Order.Field.Power
import Mathlib.Algebra.Order.Field.Rat
import Mathlib.Tactic.FieldSimp
import Mathlib.Tactic.Linarith
import Mathlib.Tactic.NormNum
import Mathlib.Tactic.Positivity
import Mathlib.Tactic.Push
import Mathlib.Tactic.Ring

/-!
# Rounding to binary floating-point numbers

What rounding a quotient gives: nothing exactly when the quotient reaches `limit`, half a place
beyond the greatest number, and otherwise a finite number that is off by half a place at most.
-/

namespace FossilRecord.Decimal.Binary64

/-! ## Values -/

/-- Neither infinite nor undefined. -/
def IsFinite (x : Binary64) : Prop :=
  x.exponentBits < 2047

instance (x : Binary64) : Decidable x.IsFinite := inferInstanceAs (Decidable (_ < _))

/-- The magnitude of a finite number. -/
def magnitude (x : Binary64) : ℚ :=
  x.mantissa * 2 ^ x.exponent

theorem magnitude_nonneg (x : Binary64) : 0 ≤ x.magnitude := by
  unfold magnitude
  positivity

theorem ratio_den_pos (x : Binary64) : 0 < x.ratio.2 := by
  unfold ratio
  split
  · exact Nat.one_pos
  · exact Nat.pow_pos (by decide)

theorem ratio_eq_magnitude (x : Binary64) : (x.ratio.1 : ℚ) / x.ratio.2 = x.magnitude := by
  unfold ratio magnitude
  split
  · rename_i hexp
    obtain ⟨n, hn⟩ := Int.eq_ofNat_of_zero_le hexp
    rw [hn]
    simp
  · rename_i hexp
    obtain ⟨n, hn⟩ := Int.eq_ofNat_of_zero_le (show 0 ≤ -x.exponent by omega)
    have hneg : x.exponent = -(n : Int) := by omega
    rw [hneg]
    simp [div_eq_mul_inv]

/-! ## Bits -/

/-- The number with these bits after the sign bit. -/
def ofBits (negative : Bool) (bits : Nat) : Binary64 :=
  ⟨UInt64.ofNat bits ||| (zero negative).bits⟩

theorem ofBits_toNat (negative : Bool) {bits : Nat} (h : bits < 2 ^ 63) :
    (ofBits negative bits).bits.toNat = bits + if negative then 2 ^ 63 else 0 := by
  have hmod : bits % 18446744073709551616 = bits := Nat.mod_eq_of_lt (by omega)
  cases negative with
  | false =>
      simp only [ofBits, zero, UInt64.toNat_or]
      simp [hmod]
  | true =>
      have hor := Nat.two_pow_add_eq_or_of_lt (i := 63) h 1
      rw [Nat.mul_one, Nat.or_comm, Nat.add_comm] at hor
      simp only [ofBits, zero, UInt64.toNat_or]
      simpa [hmod] using hor.symm

theorem exponentBits_eq (x : Binary64) : x.exponentBits = x.bits.toNat / 2 ^ 52 % 2 ^ 11 := by
  have hand := Nat.and_two_pow_sub_one_eq_mod (x.bits.toNat >>> 52) 11
  rw [Nat.shiftRight_eq_div_pow] at hand
  rw [exponentBits, ← hand]
  simp [Nat.shiftRight_eq_div_pow]

theorem fractionBits_eq (x : Binary64) : x.fractionBits = x.bits.toNat % 2 ^ 52 := by
  have hand := Nat.and_two_pow_sub_one_eq_mod x.bits.toNat 52
  rw [fractionBits, ← hand]
  simp

theorem exponentBits_ofBits (negative : Bool) {bits : Nat} (h : bits < 2 ^ 63) :
    (ofBits negative bits).exponentBits = bits / 2 ^ 52 := by
  rw [exponentBits_eq, ofBits_toNat negative h]
  split <;> omega

theorem fractionBits_ofBits (negative : Bool) {bits : Nat} (h : bits < 2 ^ 63) :
    (ofBits negative bits).fractionBits = bits % 2 ^ 52 := by
  rw [fractionBits_eq, ofBits_toNat negative h]
  split <;> omega

theorem isFinite_zero (negative : Bool) : (zero negative).IsFinite := by
  cases negative <;> decide

/-- The bits that stand for a mantissa and an exponent. -/
def bitsOf (m : Nat) (q : Int) : Nat :=
  if m < Nat.pow 2 52 then m else (q + 1075).toNat * Nat.pow 2 52 + (m - Nat.pow 2 52)

/-- A mantissa with a power of two stands for their product: either all 53 bits are used, or the
power is the least one. -/
theorem magnitude_ofBits (negative : Bool) {m : Nat} {q : Int} (hm : m < 2 ^ 53)
    (hlow : -1074 ≤ q) (hhigh : q ≤ 971) (hnormal : 2 ^ 52 ≤ m ∨ q = -1074) :
    (ofBits negative (bitsOf m q)).IsFinite ∧
      (ofBits negative (bitsOf m q)).magnitude = m * 2 ^ q := by
  have hpow : Nat.pow 2 52 = 2 ^ 52 := rfl
  rw [IsFinite, magnitude, mantissa, exponent, bitsOf, hpow]
  split
  · rename_i hsub
    have hq : q = -1074 := hnormal.resolve_left (by omega)
    rw [exponentBits_ofBits negative (by omega), fractionBits_ofBits negative (by omega)]
    -- a mantissa without its leading bit has the exponent bits zero
    have hexp : m / 2 ^ 52 = 0 := by omega
    have hfrac : m % 2 ^ 52 = m := by omega
    rw [hexp, hfrac, hq]
    exact ⟨by omega, by simp⟩
  · rename_i hfull
    obtain ⟨e, he⟩ := Int.eq_ofNat_of_zero_le (show 0 ≤ q + 1075 by omega)
    have hbits : (q + 1075).toNat * 2 ^ 52 + (m - 2 ^ 52) < 2 ^ 63 := by omega
    rw [exponentBits_ofBits negative hbits, fractionBits_ofBits negative hbits]
    have hexp : ((q + 1075).toNat * 2 ^ 52 + (m - 2 ^ 52)) / 2 ^ 52 = (q + 1075).toNat := by omega
    have hfrac : ((q + 1075).toNat * 2 ^ 52 + (m - 2 ^ 52)) % 2 ^ 52 = m - 2 ^ 52 := by omega
    rw [hexp, hfrac]
    refine ⟨by omega, ?_⟩
    rw [if_neg (by omega), if_neg (by omega)]
    have hmantissa : 2 ^ 52 + (m - 2 ^ 52) = m := by omega
    have hexponent : ((q + 1075).toNat : Int) - 1075 = q := by omega
    rw [hmantissa, hexponent]

/-! ## Rounding a quotient -/

theorem roundQuotient_le (num : Nat) {den : Nat} (hden : 0 < den) :
    2 * (roundQuotient num den * den) ≤ 2 * num + den := by
  have hdiv := Nat.div_add_mod' num den
  have hmod := Nat.mod_lt num hden
  have hsucc : (num / den + 1) * den = num / den * den + den := Nat.succ_mul _ _
  unfold roundQuotient
  simp only
  split_ifs <;> omega

theorem div_le_roundQuotient (num den : Nat) : num / den ≤ roundQuotient num den := by
  unfold roundQuotient
  simp only
  split_ifs <;> omega

theorem roundQuotient_le_div (num den : Nat) : roundQuotient num den ≤ num / den + 1 := by
  unfold roundQuotient
  simp only
  split_ifs <;> omega

theorem scaled_den_pos {den : Nat} (hden : 0 < den) (num : Nat) (q : Int) :
    0 < (scaled num den q).2 := by
  unfold scaled
  split
  · exact Nat.mul_pos hden (Nat.pow_pos (by decide))
  · exact hden

theorem scaled_ratio (num den : Nat) (q : Int) :
    ((scaled num den q).1 : ℚ) / (scaled num den q).2 = num / den / 2 ^ q := by
  unfold scaled
  split
  · rename_i hq
    obtain ⟨n, rfl⟩ := Int.eq_ofNat_of_zero_le hq
    simp [div_div]
  · rename_i hq
    obtain ⟨n, hn⟩ := Int.eq_ofNat_of_zero_le (show 0 ≤ -q by omega)
    have hneg : q = -(n : Int) := by omega
    rw [hneg]
    simp
    ring

/-- The exponent at which a quotient is rounded: the quotient has 53 bits before the point there,
unless that exponent is the least one. -/
structure RoundsAt (num den : Nat) (q : Int) : Prop where
  low : -1074 ≤ q
  below : (num : ℚ) / den / 2 ^ q < 2 ^ 53
  normal : 2 ^ 52 ≤ (num : ℚ) / den / 2 ^ q ∨ q = -1074

/-- The exponent that the sizes of the two numbers give is right or too great by one. -/
def exponentOf (num den : Nat) : Int :=
  let q : Int := max ((Nat.log2 num : Int) - (Nat.log2 den : Int) - 52) (-1074)
  if (scaled num den q).1 / (scaled num den q).2 < Nat.pow 2 52 then max (q - 1) (-1074) else q

theorem lt_two_zpow_log2 {num den : Nat} (hden : 0 < den) :
    (num : ℚ) / den < 2 ^ ((Nat.log2 num : Int) - (Nat.log2 den : Int) + 1) := by
  have hnum : (num : ℚ) < 2 ^ (Nat.log2 num + 1) := by exact_mod_cast Nat.lt_log2_self
  have hle : (2 : ℚ) ^ Nat.log2 den ≤ den := by
    exact_mod_cast Nat.log2_self_le (Nat.ne_of_gt hden)
  have hpos : (0 : ℚ) < den := by exact_mod_cast hden
  have hsplit : (2 : ℚ) ^ ((Nat.log2 num : Int) - (Nat.log2 den : Int) + 1) =
      2 ^ (Nat.log2 num + 1) / 2 ^ Nat.log2 den := by
    rw [← zpow_natCast, ← zpow_natCast, ← zpow_sub₀ (by norm_num)]
    congr 1
    push_cast
    ring
  rw [hsplit, div_lt_div_iff₀ hpos (by positivity)]
  calc (num : ℚ) * 2 ^ Nat.log2 den < 2 ^ (Nat.log2 num + 1) * 2 ^ Nat.log2 den := by gcongr
    _ ≤ 2 ^ (Nat.log2 num + 1) * den := by gcongr

theorem two_zpow_log2_lt {num den : Nat} (hnum : num ≠ 0) (hden : 0 < den) :
    (2 : ℚ) ^ ((Nat.log2 num : Int) - (Nat.log2 den : Int) - 1) < num / den := by
  have hle : (2 : ℚ) ^ Nat.log2 num ≤ num := by exact_mod_cast Nat.log2_self_le hnum
  have hlt : (den : ℚ) < 2 ^ (Nat.log2 den + 1) := by exact_mod_cast Nat.lt_log2_self
  have hpos : (0 : ℚ) < den := by exact_mod_cast hden
  have hsplit : (2 : ℚ) ^ ((Nat.log2 num : Int) - (Nat.log2 den : Int) - 1) =
      2 ^ Nat.log2 num / 2 ^ (Nat.log2 den + 1) := by
    rw [← zpow_natCast, ← zpow_natCast, ← zpow_sub₀ (by norm_num)]
    congr 1
    push_cast
    ring
  rw [hsplit, div_lt_div_iff₀ (by positivity) hpos]
  calc (2 : ℚ) ^ Nat.log2 num * den < 2 ^ Nat.log2 num * 2 ^ (Nat.log2 den + 1) := by gcongr
    _ ≤ num * 2 ^ (Nat.log2 den + 1) := by gcongr

theorem roundsAt_exponentOf {num den : Nat} (hnum : num ≠ 0) (hden : 0 < den) :
    RoundsAt num den (exponentOf num den) := by
  have hupper := @lt_two_zpow_log2 num den hden
  have hlower := two_zpow_log2_lt hnum hden
  rw [exponentOf]
  generalize hk : (Nat.log2 num : Int) - (Nat.log2 den : Int) = k at hupper hlower
  generalize hq : max (k - 52) (-1074) = q
  have hscaled := scaled_ratio num den q
  have hpos : (0 : ℚ) < (scaled num den q).2 := by exact_mod_cast scaled_den_pos hden num q
  -- the first guess leaves fewer than 54 bits
  have hbelow : (num : ℚ) / den / 2 ^ q < 2 ^ 53 := by
    rw [div_lt_iff₀ (by positivity)]
    calc (num : ℚ) / den < 2 ^ (k + 1) := hupper
      _ ≤ 2 ^ (53 + q) := by
          apply zpow_le_zpow_right₀ (by norm_num)
          omega
      _ = 2 ^ 53 * 2 ^ q := by
          rw [zpow_add₀ (by norm_num)]
          norm_num
  split
  · -- too few bits: one place further down there are 53, unless that is below the least exponent
    rename_i hfew
    have hfew' : (num : ℚ) / den / 2 ^ q < 2 ^ 52 := by
      rw [← hscaled, div_lt_iff₀ hpos]
      have hlt := (Nat.div_lt_iff_lt_mul (scaled_den_pos hden num q)).mp hfew
      exact_mod_cast hlt
    rcases Int.lt_or_le (-1074) q with hnormal | hleast
    · have hkq : q = k - 52 := by omega
      have hmax : max (q - 1) (-1074) = q - 1 := by omega
      have hhalf : (2 : ℚ) ^ q = 2 * 2 ^ (q - 1) := by
        rw [zpow_sub₀ (by norm_num)]
        ring
      rw [hmax]
      refine ⟨by omega, ?_, .inl ?_⟩
      · rw [div_lt_iff₀ (by positivity)] at hfew' ⊢
        rw [hhalf] at hfew'
        linarith
      · rw [le_div_iff₀ (by positivity)]
        have hpow : (2 : ℚ) ^ 52 * 2 ^ (q - 1) = 2 ^ (k - 1) := by
          rw [← zpow_natCast, ← zpow_add₀ (by norm_num)]
          congr 1
          push_cast
          omega
        rw [hpow]
        exact hlower.le
    · have hmax : max (q - 1) (-1074) = q := by omega
      rw [hmax]
      exact ⟨by omega, hbelow, .inr (by omega)⟩
  · rename_i hmany
    refine ⟨by omega, hbelow, .inl ?_⟩
    rw [← hscaled, le_div_iff₀ hpos]
    have hle := (Nat.le_div_iff_mul_le (scaled_den_pos hden num q)).mp (Nat.not_lt.mp hmany)
    exact_mod_cast hle

/-- The 53 bits, or fewer, that a quotient is rounded to. -/
def roundedOf (num den : Nat) : Nat :=
  roundQuotient (scaled num den (exponentOf num den)).1 (scaled num den (exponentOf num den)).2

/-- Rounding in two steps: to 53 bits, and to the bits of a number, where a carry out of the 53 bits
takes the next exponent. -/
theorem ofRatio_eq (negative : Bool) {num : Nat} (hnum : num ≠ 0) (den : Nat) :
    ofRatio negative num den =
      if roundedOf num den = 2 ^ 53 then
        if 971 < exponentOf num den + 1 then none
        else some (ofBits negative (bitsOf (2 ^ 52) (exponentOf num den + 1)))
      else
        if 971 < exponentOf num den then none
        else some (ofBits negative (bitsOf (roundedOf num den) (exponentOf num den))) := by
  have hsteps : ofRatio negative num den =
      if num = 0 then some (zero negative)
      else
        let m := if roundedOf num den = Nat.pow 2 53 then Nat.pow 2 52 else roundedOf num den
        let q := if roundedOf num den = Nat.pow 2 53 then exponentOf num den + 1
          else exponentOf num den
        if 971 < q then none else some (ofBits negative (bitsOf m q)) := rfl
  have hpow : Nat.pow 2 53 = 2 ^ 53 := rfl
  rw [hsteps, if_neg hnum]
  simp only [hpow]
  split <;> rfl

section Quotient

variable {num den : Nat} (hnum : num ≠ 0) (hden : 0 < den)

include hden

theorem roundedOf_le :
    (roundedOf num den : ℚ) ≤ num / den / 2 ^ exponentOf num den + 1 / 2 := by
  have hpos := scaled_den_pos hden num (exponentOf num den)
  have hpos' : (0 : ℚ) < (scaled num den (exponentOf num den)).2 := by exact_mod_cast hpos
  have hround := roundQuotient_le (scaled num den (exponentOf num den)).1 hpos
  rw [← roundedOf] at hround
  rw [← scaled_ratio, ← sub_le_iff_le_add, le_div_iff₀ hpos']
  have hround' : 2 * ((roundedOf num den : ℚ) * (scaled num den (exponentOf num den)).2) ≤
      2 * (scaled num den (exponentOf num den)).1 + (scaled num den (exponentOf num den)).2 := by
    exact_mod_cast hround
  linarith

include hnum

theorem roundedOf_le_two_pow : roundedOf num den ≤ 2 ^ 53 := by
  have hpos := scaled_den_pos hden num (exponentOf num den)
  have hpos' : (0 : ℚ) < (scaled num den (exponentOf num den)).2 := by exact_mod_cast hpos
  have hbelow := (roundsAt_exponentOf hnum hden).below
  rw [← scaled_ratio, div_lt_iff₀ hpos'] at hbelow
  have hlt : (scaled num den (exponentOf num den)).1 / (scaled num den (exponentOf num den)).2 <
      2 ^ 53 := by
    rw [Nat.div_lt_iff_lt_mul hpos]
    exact_mod_cast hbelow
  have hle := roundQuotient_le_div (scaled num den (exponentOf num den)).1
    (scaled num den (exponentOf num den)).2
  rw [← roundedOf] at hle
  omega

theorem le_roundedOf : 2 ^ 52 ≤ roundedOf num den ∨ exponentOf num den = -1074 := by
  have hpos := scaled_den_pos hden num (exponentOf num den)
  have hpos' : (0 : ℚ) < (scaled num den (exponentOf num den)).2 := by exact_mod_cast hpos
  refine (roundsAt_exponentOf hnum hden).normal.imp_left fun hnormal => ?_
  rw [← scaled_ratio, le_div_iff₀ hpos'] at hnormal
  have hle : 2 ^ 52 ≤
      (scaled num den (exponentOf num den)).1 / (scaled num den (exponentOf num den)).2 := by
    rw [Nat.le_div_iff_mul_le hpos]
    exact_mod_cast hnormal
  exact hle.trans (div_le_roundQuotient _ _)

/-- What is rounded within the range is finite, and its magnitude is what was rounded to. -/
theorem ofRatio_cases (negative : Bool) :
    ofRatio negative num den = none ∧
        (971 < exponentOf num den ∨ exponentOf num den = 971 ∧ roundedOf num den = 2 ^ 53) ∨
      ∃ y, ofRatio negative num den = some y ∧ y.IsFinite ∧
        y.magnitude = roundedOf num den * 2 ^ exponentOf num den := by
  have hat := roundsAt_exponentOf hnum hden
  have hle := roundedOf_le_two_pow hnum hden
  rw [ofRatio_eq negative hnum den]
  split_ifs with hcarry hout hout
  · exact .inl ⟨rfl, by omega⟩
  · -- the carry doubles the power of two and halves the bits
    obtain ⟨hfinite, hvalue⟩ := magnitude_ofBits negative (m := 2 ^ 52)
      (q := exponentOf num den + 1) (by decide) (by have := hat.low; omega) (by omega)
      (.inl (by decide))
    refine .inr ⟨_, rfl, hfinite, ?_⟩
    rw [hvalue, hcarry, zpow_add_one₀ (by norm_num)]
    push_cast
    ring
  · exact .inl ⟨rfl, .inl hout⟩
  · obtain ⟨hfinite, hvalue⟩ := magnitude_ofBits negative (m := roundedOf num den)
      (q := exponentOf num den) (by omega) hat.low (by omega) (le_roundedOf hnum hden)
    exact .inr ⟨_, rfl, hfinite, hvalue⟩

end Quotient

/-- The least quotient that is out of range: half a place beyond the greatest number. -/
def limit : ℚ := (2 ^ 54 - 1) * 2 ^ (970 : Int)

theorem isFinite_of_ofRatio {negative : Bool} {num den : Nat} (hden : 0 < den) {y : Binary64}
    (h : ofRatio negative num den = some y) : y.IsFinite := by
  by_cases hnum : num = 0
  · rw [ofRatio, if_pos hnum] at h
    cases h
    exact isFinite_zero negative
  · rcases ofRatio_cases hnum hden negative with ⟨hnone, -⟩ | ⟨z, hsome, hfinite, -⟩
    · rw [hnone] at h
      cases h
    · rw [hsome] at h
      cases h
      exact hfinite

/-- A quotient below the limit is rounded to a number. -/
theorem ofRatio_of_lt_limit (negative : Bool) {num den : Nat} (hden : 0 < den)
    (hlimit : (num : ℚ) / den < limit) : ∃ y, ofRatio negative num den = some y := by
  by_cases hnum : num = 0
  · exact ⟨zero negative, by rw [ofRatio, if_pos hnum]⟩
  rcases ofRatio_cases hnum hden negative with ⟨-, hout⟩ | ⟨y, hsome, -, -⟩
  · exfalso
    have hpow : (0 : ℚ) < 2 ^ exponentOf num den := by positivity
    rcases hout with hout | ⟨hexp, hcarry⟩
    · -- 53 bits at an exponent that great are beyond the limit
      have hnormal := (roundsAt_exponentOf hnum hden).normal.resolve_right (by omega)
      rw [le_div_iff₀ hpow] at hnormal
      have hgreat : (2 : ℚ) ^ ((970 : Int) + 2) ≤ 2 ^ exponentOf num den :=
        zpow_le_zpow_right₀ (by norm_num) (by omega)
      have hfour : (2 : ℚ) ^ (2 : Int) = 4 := by norm_num
      have hplace : (0 : ℚ) < 2 ^ (970 : Int) := by positivity
      rw [zpow_add₀ (by norm_num), hfour] at hgreat
      rw [limit] at hlimit
      generalize (2 : ℚ) ^ (970 : Int) = place at hgreat hplace hlimit
      linarith
    · -- the carry out of 53 bits means that the quotient is at most half a place below
      have hrounded := @roundedOf_le num den hden
      have hscale : (2 : ℚ) ^ exponentOf num den = 2 ^ (970 : Int) * 2 := by
        rw [hexp, show (971 : Int) = 970 + 1 from rfl, zpow_add_one₀ (by norm_num)]
      rw [hcarry, ← sub_le_iff_le_add, le_div_iff₀ hpow, hscale] at hrounded
      rw [limit] at hlimit
      generalize (2 : ℚ) ^ (970 : Int) = place at hrounded hlimit
      push_cast at hrounded
      linarith
  · exact ⟨y, hsome⟩

/-- Rounding adds no more than half a place in 53 to a quotient that is not below one. -/
theorem magnitude_le_of_ofRatio {negative : Bool} {num den : Nat} (hden : 0 < den) {y : Binary64}
    (h : ofRatio negative num den = some y) (hone : 1 ≤ (num : ℚ) / den) :
    y.magnitude ≤ num / den * (1 + 1 / 2 ^ 53) := by
  have hnum : num ≠ 0 := by
    rintro rfl
    norm_num at hone
  have hpow : (0 : ℚ) < 2 ^ exponentOf num den := by positivity
  have hvalue : y.magnitude = roundedOf num den * 2 ^ exponentOf num den := by
    rcases ofRatio_cases hnum hden negative with ⟨hnone, -⟩ | ⟨z, hsome, -, hvalue⟩
    · rw [hnone] at h
      cases h
    · rw [hsome] at h
      cases h
      exact hvalue
  have hrounded : (roundedOf num den : ℚ) * 2 ^ exponentOf num den ≤
      num / den + 2 ^ exponentOf num den / 2 := by
    calc (roundedOf num den : ℚ) * 2 ^ exponentOf num den
        ≤ (num / den / 2 ^ exponentOf num den + 1 / 2) * 2 ^ exponentOf num den := by
          gcongr
          exact roundedOf_le hden
      _ = num / den + 2 ^ exponentOf num den / 2 := by field_simp
  -- a place is at most one of 2 ^ 52 parts of the quotient, also where the exponent is the least
  have hplace : (2 : ℚ) ^ exponentOf num den ≤ num / den / 2 ^ 52 := by
    rcases (roundsAt_exponentOf hnum hden).normal with hnormal | hleast
    · rw [le_div_iff₀ hpow] at hnormal
      rw [le_div_iff₀ (by positivity)]
      linarith
    · rw [hleast]
      calc (2 : ℚ) ^ (-1074 : Int) ≤ 2 ^ (-52 : Int) :=
            zpow_le_zpow_right₀ (by norm_num) (by norm_num)
        _ = 1 / 2 ^ 52 := by norm_num
        _ ≤ num / den / 2 ^ 52 := by gcongr
  rw [hvalue]
  linarith

end FossilRecord.Decimal.Binary64
