import FossilRecord.Decimal.Shortest
import FossilRecord.Proofs.Decimal.Rounding

/-!
# Powers of ten

A finite number times or divided by a power of ten is finite again: always when it is divided, and
when it is multiplied if the product with both roundings stays below the limit.  The shortest digits
of a number lie at most half a place above it, which leaves room for the roundings except at the two
greatest numbers.
-/

namespace FossilRecord.Decimal.Binary64

/-! ## Finite numbers -/

theorem fractionBits_lt (x : Binary64) : x.fractionBits < 2 ^ 52 := by
  rw [fractionBits_eq]
  exact Nat.mod_lt _ (by decide)

theorem mantissa_lt (x : Binary64) : x.mantissa < 2 ^ 53 := by
  have hfraction := fractionBits_lt x
  have hpow : Nat.pow 2 52 = 2 ^ 52 := rfl
  rw [mantissa, hpow]
  split <;> omega

theorem IsFinite.exponent_le {x : Binary64} (hx : x.IsFinite) : x.exponent ≤ 971 := by
  rw [IsFinite] at hx
  rw [exponent]
  split <;> omega

/-- The middle between a number and the next one. -/
def upper (x : Binary64) : ℚ :=
  (x.mantissa + 1 / 2) * 2 ^ x.exponent

theorem magnitude_lt_upper (x : Binary64) : x.magnitude < x.upper := by
  rw [magnitude, upper]
  gcongr
  norm_num

theorem two_zpow_971 : (2 : ℚ) ^ (971 : Int) = 2 ^ (970 : Int) * 2 := by
  rw [show (971 : Int) = 970 + 1 from rfl, zpow_add_one₀ (by norm_num)]

theorem IsFinite.upper_le_limit {x : Binary64} (hx : x.IsFinite) : x.upper ≤ limit := by
  have hmantissa : (x.mantissa : ℚ) + 1 ≤ 2 ^ 53 := by exact_mod_cast mantissa_lt x
  have hexponent : (2 : ℚ) ^ x.exponent ≤ 2 ^ (971 : Int) :=
    zpow_le_zpow_right₀ (by norm_num) hx.exponent_le
  calc x.upper ≤ (2 ^ 53 - 1 / 2) * 2 ^ x.exponent := by
        rw [upper]
        gcongr
        linarith
    _ ≤ (2 ^ 53 - 1 / 2) * (2 ^ (970 : Int) * 2) := by
        rw [← two_zpow_971]
        exact mul_le_mul_of_nonneg_left hexponent (by norm_num)
    _ = limit := by
        rw [limit]
        ring

/-- The two greatest magnitudes, at which rounding upwards twice may reach the limit. -/
def IsGreat (x : Binary64) : Prop :=
  x.exponent = 971 ∧ 2 ^ 53 - 2 ≤ x.mantissa

/-- Below the two greatest magnitudes there is room for two roundings. -/
theorem IsFinite.upper_mul_lt_limit {x : Binary64} (hx : x.IsFinite) (hgreat : ¬ x.IsGreat) :
    x.upper * (1 + 1 / 2 ^ 53) ^ 2 < limit := by
  have hplace : (0 : ℚ) < 2 ^ (970 : Int) := by positivity
  rcases Int.lt_or_le x.exponent 971 with hsmall | htop
  · have hmantissa : (x.mantissa : ℚ) + 1 ≤ 2 ^ 53 := by exact_mod_cast mantissa_lt x
    have hexponent : (2 : ℚ) ^ x.exponent ≤ 2 ^ (970 : Int) :=
      zpow_le_zpow_right₀ (by norm_num) (by omega)
    have hupper : x.upper ≤ 2 ^ 53 * 2 ^ (970 : Int) := by
      rw [upper]
      gcongr
      linarith
    rw [limit]
    generalize (2 : ℚ) ^ (970 : Int) = place at hplace hupper
    nlinarith
  · -- the mantissa is three short of the end, which is more than two roundings add
    have hexponent : x.exponent = 971 := le_antisymm hx.exponent_le htop
    have hmantissa : (x.mantissa : ℚ) + 3 ≤ 2 ^ 53 := by
      have hless : x.mantissa + 3 ≤ 2 ^ 53 := by
        rw [IsGreat] at hgreat
        omega
      exact_mod_cast hless
    have hupper : x.upper ≤ (2 ^ 53 - 5 / 2) * (2 ^ (970 : Int) * 2) := by
      rw [upper, hexponent, two_zpow_971]
      gcongr
      linarith
    rw [limit]
    generalize (2 : ℚ) ^ (970 : Int) = place at hplace hupper
    nlinarith

/-! ## Multiplying and dividing -/

/-- The powers of ten that are used are in range, and none is rounded below one. -/
theorem ofRatio_pow10 {n : Nat} (hn : n ≤ 308) :
    ∃ p, ofRatio false (Nat.pow 10 n) 1 = some p ∧ p.ratio.2 ≤ p.ratio.1 := by
  have hall : ∀ n < 309, ((ofRatio false (Nat.pow 10 n) 1).map fun p =>
      decide (p.ratio.2 ≤ p.ratio.1)) = some true := by decide +kernel
  obtain ⟨p, hp, hle⟩ := Option.map_eq_some_iff.mp (hall n (by omega))
  exact ⟨p, hp, of_decide_eq_true hle⟩

theorem ratio_mul_eq (x p : Binary64) :
    ((x.ratio.1 * p.ratio.1 : Nat) : ℚ) / (x.ratio.2 * p.ratio.2 : Nat) =
      x.magnitude * p.magnitude := by
  rw [← ratio_eq_magnitude, ← ratio_eq_magnitude]
  push_cast
  rw [div_mul_div_comm]

theorem isFinite_of_mulPow10 {x y : Binary64} {n : Nat} (h : x.mulPow10 n = some y) :
    y.IsFinite := by
  rw [mulPow10] at h
  split at h
  · cases h
  · exact isFinite_of_ofRatio (Nat.mul_pos (ratio_den_pos x) (ratio_den_pos _)) h

theorem isFinite_of_divPow10 {x y : Binary64} {n : Nat} (hn : n ≤ 308)
    (h : x.divPow10 n = some y) : y.IsFinite := by
  obtain ⟨p, hp, hle⟩ := ofRatio_pow10 hn
  have hpos := ratio_den_pos p
  rw [divPow10, hp] at h
  exact isFinite_of_ofRatio (Nat.mul_pos (ratio_den_pos x) (by omega)) h

/-- Multiplying stays in the range if the product with the rounding of the power does. -/
theorem mulPow10_isSome {x : Binary64} {n : Nat} (hn : n ≤ 308)
    (hlimit : x.magnitude * (10 ^ n * (1 + 1 / 2 ^ 53)) < limit) :
    ∃ y, x.mulPow10 n = some y := by
  obtain ⟨p, hp, -⟩ := ofRatio_pow10 hn
  have hpow : ((Nat.pow 10 n : Nat) : ℚ) / (1 : Nat) = 10 ^ n := by
    rw [Nat.pow_eq]
    push_cast
    rw [div_one]
  have hle : p.magnitude ≤ 10 ^ n * (1 + 1 / 2 ^ 53) := by
    have hround := magnitude_le_of_ofRatio Nat.one_pos hp
    rw [hpow] at hround
    exact hround (one_le_pow₀ (by norm_num))
  have hproduct : ((x.ratio.1 * p.ratio.1 : Nat) : ℚ) / (x.ratio.2 * p.ratio.2 : Nat) < limit := by
    rw [ratio_mul_eq]
    exact (mul_le_mul_of_nonneg_left hle (magnitude_nonneg x)).trans_lt hlimit
  obtain ⟨y, hy⟩ := ofRatio_of_lt_limit x.isNegative
    (Nat.mul_pos (ratio_den_pos x) (ratio_den_pos p)) hproduct
  exact ⟨y, by rw [mulPow10, hp]; exact hy⟩

/-- One is not rounded at all. -/
theorem mulPow10_zero_isSome {x : Binary64} (hx : x.IsFinite) : ∃ y, x.mulPow10 0 = some y := by
  have hone : ofRatio false (Nat.pow 10 0) 1 = some ⟨0x3FF0000000000000⟩ := by decide +kernel
  have hratio : ratio ⟨0x3FF0000000000000⟩ = (Nat.pow 2 52, Nat.pow 2 52) := by decide +kernel
  have hpos : 0 < Nat.pow 2 52 := Nat.pow_pos (by decide)
  -- the factor cancels, so its size must not be computed
  generalize Nat.pow 2 52 = scale at hratio hpos
  have hproduct : ((x.ratio.1 * scale : Nat) : ℚ) / (x.ratio.2 * scale : Nat) < limit := by
    have hscale : (scale : ℚ) ≠ 0 := by exact_mod_cast Nat.ne_of_gt hpos
    push_cast
    rw [mul_div_mul_right _ _ hscale, ratio_eq_magnitude]
    exact (magnitude_lt_upper x).trans_le hx.upper_le_limit
  obtain ⟨y, hy⟩ := ofRatio_of_lt_limit x.isNegative (Nat.mul_pos (ratio_den_pos x) hpos) hproduct
  exact ⟨y, by rw [mulPow10, hone]; simp only [hratio]; exact hy⟩

/-- Dividing never leaves the range. -/
theorem divPow10_isSome {x : Binary64} (hx : x.IsFinite) {n : Nat} (hn : n ≤ 308) :
    ∃ y, x.divPow10 n = some y := by
  obtain ⟨p, hp, hle⟩ := ofRatio_pow10 hn
  have hpos := ratio_den_pos p
  have hpos' : (0 : ℚ) < p.ratio.1 := by exact_mod_cast (by omega : 0 < p.ratio.1)
  have hle' : (p.ratio.2 : ℚ) ≤ p.ratio.1 := by exact_mod_cast hle
  have hlimit : ((x.ratio.1 * p.ratio.2 : Nat) : ℚ) / (x.ratio.2 * p.ratio.1 : Nat) < limit := by
    push_cast
    rw [← div_mul_div_comm, ratio_eq_magnitude]
    calc x.magnitude * (p.ratio.2 / p.ratio.1) ≤ x.magnitude * 1 := by
          apply mul_le_mul_of_nonneg_left _ (magnitude_nonneg x)
          rwa [div_le_one hpos']
      _ < limit := by
          rw [mul_one]
          exact (magnitude_lt_upper x).trans_le hx.upper_le_limit
  obtain ⟨y, hy⟩ := ofRatio_of_lt_limit x.isNegative
    (Nat.mul_pos (ratio_den_pos x) (by omega)) hlimit
  exact ⟨y, by rw [divPow10, hp]; exact hy⟩

/-! ## The shortest digits -/

/-- The number that digits write. -/
def amount (d : Digits) : ℚ :=
  d.value * 10 ^ d.scale

theorem digitsRatio_den_pos (v : Nat) (scale : Int) : 0 < (digitsRatio v scale).2 := by
  unfold digitsRatio
  split
  · exact Nat.one_pos
  · exact Nat.pow_pos (by decide)

theorem digitsRatio_eq (v : Nat) (scale : Int) :
    ((digitsRatio v scale).1 : ℚ) / (digitsRatio v scale).2 = v * 10 ^ scale := by
  unfold digitsRatio
  split
  · rename_i hscale
    obtain ⟨n, rfl⟩ := Int.eq_ofNat_of_zero_le hscale
    simp
  · rename_i hscale
    obtain ⟨n, hn⟩ := Int.eq_ofNat_of_zero_le (show 0 ≤ -scale by omega)
    have hneg : scale = -(n : Int) := by omega
    rw [hneg]
    simp [div_eq_mul_inv]

theorem neighbourhood_den_pos (x : Binary64) : 0 < x.neighbourhood.den := by
  unfold neighbourhood
  simp only
  split
  · exact Nat.zero_lt_succ 3
  · exact Nat.mul_pos (by decide) (Nat.pow_pos (by decide))

theorem neighbourhood_high (x : Binary64) :
    (x.neighbourhood.high : ℚ) / x.neighbourhood.den = x.upper := by
  unfold neighbourhood upper
  simp only
  split
  · rename_i hexp
    obtain ⟨n, hn⟩ := Int.eq_ofNat_of_zero_le hexp
    rw [hn]
    simp
    ring
  · rename_i hexp
    obtain ⟨n, hn⟩ := Int.eq_ofNat_of_zero_le (show 0 ≤ -x.exponent by omega)
    have hneg : x.exponent = -(n : Int) := by omega
    rw [hneg]
    simp
    ring

/-- What lies in a neighbourhood is not above its upper bound. -/
theorem Neighbourhood.le_of_contains {b : Neighbourhood} {n d : Nat}
    (h : b.contains n d = true) : n * b.den ≤ b.high * d := by
  unfold Neighbourhood.contains at h
  split at h
  · simp only [Bool.and_eq_true, decide_eq_true_eq] at h
    exact h.2
  · simp only [Bool.and_eq_true, decide_eq_true_eq] at h
    exact h.2.le

theorem contains_of_onGrid? {b : Neighbourhood} {scale : Int} {found : Digits}
    (h : onGrid? b scale = some found) :
    b.contains (digitsRatio found.value found.scale).1
      (digitsRatio found.value found.scale).2 = true := by
  unfold onGrid? at h
  simp only at h
  split at h
  · rename_i hbelow habove
    split_ifs at h <;> cases h <;> simp_all
  · rename_i hbelow _
    cases h
    simp_all
  · rename_i _ habove
    cases h
    simp_all
  · cases h

theorem contains_of_firstOnGrid {b : Neighbourhood} {count : Nat} {scale : Int} {found : Digits}
    (h : firstOnGrid b count scale = some found) :
    b.contains (digitsRatio found.value found.scale).1
      (digitsRatio found.value found.scale).2 = true := by
  induction count generalizing scale with
  | zero => cases h
  | succ count ih =>
      rw [firstOnGrid] at h
      split at h
      · rename_i hgrid
        cases h
        exact contains_of_onGrid? hgrid
      · exact ih h

@[simp] theorem amount_stripZeros (fuel : Nat) (d : Digits) :
    amount (stripZeros fuel d) = amount d := by
  induction fuel generalizing d with
  | zero => rfl
  | succ fuel ih =>
      rw [stripZeros]
      split
      · rename_i hzero
        simp only [Bool.and_eq_true, beq_iff_eq] at hzero
        have hdiv : (d.value : ℚ) = (d.value / 10 : Nat) * 10 := by
          exact_mod_cast (Nat.div_mul_cancel (Nat.dvd_of_mod_eq_zero hzero.2)).symm
        rw [ih, amount, amount, hdiv, zpow_add_one₀ (by norm_num)]
        ring
      · rfl

/-- The shortest digits are at most half a place above the number. -/
theorem amount_shortest_le (x : Binary64) : amount x.shortest ≤ x.upper := by
  have hupper : 0 ≤ x.upper := (magnitude_nonneg x).trans (magnitude_lt_upper x).le
  unfold shortest
  split
  · simpa [amount] using hupper
  · simp only
    split
    · rename_i found hfound
      have hden : (0 : ℚ) < x.neighbourhood.den := by exact_mod_cast neighbourhood_den_pos x
      have hdigits : (0 : ℚ) < (digitsRatio found.value found.scale).2 := by
        exact_mod_cast digitsRatio_den_pos found.value found.scale
      have hle := Neighbourhood.le_of_contains (contains_of_firstOnGrid hfound)
      rw [amount_stripZeros, amount, ← digitsRatio_eq, ← neighbourhood_high,
        div_le_div_iff₀ hdigits hden]
      exact_mod_cast hle
    · simpa [amount] using hupper

/-- The two greatest magnitudes have seventeen digits each. -/
theorem IsGreat.shortest_eq {x : Binary64} (h : x.IsGreat) :
    x.shortest = ⟨17976931348623155, 292⟩ ∨ x.shortest = ⟨17976931348623157, 292⟩ := by
  obtain ⟨hexponent, hmantissa⟩ := h
  have hbits := x.bits.toNat_lt
  have hfraction := fractionBits_lt x
  have hpow : Nat.pow 2 52 = 2 ^ 52 := rfl
  have hexp : x.exponentBits = 2046 := by
    rw [exponent] at hexponent
    split at hexponent <;> omega
  rw [mantissa, if_neg (by omega), hpow] at hmantissa
  rw [exponentBits_eq] at hexp
  rw [fractionBits_eq] at hmantissa hfraction
  -- two mantissas and two signs
  have hcases : x.bits.toNat ∈ [0x7FEFFFFFFFFFFFFE, 0x7FEFFFFFFFFFFFFF, 0xFFEFFFFFFFFFFFFE,
      0xFFEFFFFFFFFFFFFF] := by
    simp only [List.mem_cons, List.not_mem_nil, or_false]
    omega
  have hx : x = ⟨UInt64.ofNat x.bits.toNat⟩ := by simp
  rw [hx]
  generalize x.bits.toNat = n at hcases
  have hall : ∀ n ∈ [0x7FEFFFFFFFFFFFFE, 0x7FEFFFFFFFFFFFFF, 0xFFEFFFFFFFFFFFFE,
      0xFFEFFFFFFFFFFFFF], (⟨UInt64.ofNat n⟩ : Binary64).shortest = ⟨17976931348623155, 292⟩ ∨
      (⟨UInt64.ofNat n⟩ : Binary64).shortest = ⟨17976931348623157, 292⟩ := by
    decide +kernel
  exact hall n hcases

end FossilRecord.Decimal.Binary64
