import FossilRecord.Proofs.Decimal.Powers
import FossilRecord.Proofs.Json.Number

/-!
# Numbers with a fraction read back

The digits that write a finite number are read as a finite number, in every layout.  It need not be
the same number, since reading rounds up to three times; but reading never leaves the range.
-/

namespace FossilRecord.Json

open Decimal (Binary64)
open Decimal.Binary64

/-! ## Scaling -/

theorem isFinite_of_scaleBy {fuel : Nat} {x y : Binary64} {exponent : Int} (hx : x.IsFinite)
    (h : scaleBy fuel x exponent = some y) : y.IsFinite := by
  induction fuel generalizing x exponent with
  | zero =>
      cases h
      exact isFinite_zero _
  | succ fuel ih =>
      rw [scaleBy] at h
      split_ifs at h with hnear hup hzero
      · exact isFinite_of_mulPow10 h
      · exact isFinite_of_divPow10 hnear h
      · cases h
        exact hx
      · obtain ⟨z, hz, hrest⟩ := Option.bind_eq_some_iff.mp h
        exact ih (isFinite_of_divPow10 (Nat.le_refl 308) hz) hrest

/-- Scaling down never leaves the range. -/
theorem scaleBy_of_nonpos (fuel : Nat) {x : Binary64} (hx : x.IsFinite) {exponent : Int}
    (hexponent : exponent ≤ 0) : ∃ y, scaleBy fuel x exponent = some y := by
  induction fuel generalizing x exponent with
  | zero => exact ⟨_, rfl⟩
  | succ fuel ih =>
      rw [scaleBy]
      split_ifs with hnear hup hzero hup
      · have hnone : exponent.natAbs = 0 := by omega
        rw [hnone]
        exact mulPow10_zero_isSome hx
      · exact divPow10_isSome hx hnear
      · exact ⟨x, rfl⟩
      · omega
      · obtain ⟨y, hy⟩ := divPow10_isSome hx (Nat.le_refl 308)
        rw [hy]
        exact ih (isFinite_of_divPow10 (Nat.le_refl 308) hy) (by omega)

/-- Scaling up stays in the range if there is room for the rounding of the power. -/
theorem scaleBy_of_lt_limit (fuel : Nat) {x : Binary64} {n : Nat} (hn : n ≤ 308)
    (hlimit : x.magnitude * (10 ^ n * (1 + 1 / 2 ^ 53)) < limit) :
    ∃ y, scaleBy (fuel + 1) x n = some y := by
  rw [scaleBy, if_pos (by omega), if_pos (by omega)]
  exact mulPow10_isSome hn hlimit

/-! ## Significand and exponent -/

/-- The number with these digits and this power of ten, if it is in range. -/
def realValue? (negative : Bool) (significand : Nat) (exponent : Int) : Option Binary64 :=
  (ofRatio negative significand 1).bind fun x => scaleBy 8 x exponent

theorem realOf_eq {negative : Bool} {significand : Nat} {exponent : Int} {y : Binary64}
    (h : realValue? negative significand exponent = some y) (rest : List Char) :
    realOf negative significand exponent rest = .ok (.real y, rest) := by
  obtain ⟨x, hx, hy⟩ := Option.bind_eq_some_iff.mp h
  rw [realOf, hx]
  simp only [hy]

theorem isFinite_of_realOf {negative : Bool} {significand : Nat} {exponent : Int}
    {rest rest' : List Char} {n : Number}
    (h : realOf negative significand exponent rest = .ok (n, rest')) :
    rest' = rest ∧ ∃ y, n = .real y ∧ y.IsFinite := by
  rw [realOf] at h
  split at h
  · cases h
  · rename_i x hx
    split at h
    · cases h
    · rename_i y hy
      cases h
      exact ⟨rfl, y, rfl, isFinite_of_scaleBy (isFinite_of_ofRatio Nat.one_pos hx) hy⟩

theorem significand_lt_limit {n : Nat} (hn : n ≤ maxSignificand) : (n : ℚ) / (1 : Nat) < limit := by
  have hmax : maxSignificand = 2 ^ 64 - 1 := rfl
  have hn' : (n : ℚ) < 2 ^ 64 := by exact_mod_cast (by omega : n < 2 ^ 64)
  have hplace : (2 : ℚ) ^ (11 : Int) ≤ 2 ^ (970 : Int) :=
    zpow_le_zpow_right₀ (by norm_num) (by norm_num)
  have hsmall : (2 : ℚ) ^ (11 : Int) = 2048 := by norm_num
  rw [Nat.cast_one, div_one, limit]
  rw [hsmall] at hplace
  generalize (2 : ℚ) ^ (970 : Int) = place at hplace
  linarith

/-- Digits in front of a power of ten that is not positive are in range. -/
theorem realValue?_of_nonpos (negative : Bool) {n : Nat} (hn : n ≤ maxSignificand) {exponent : Int}
    (hexponent : exponent ≤ 0) : ∃ y, realValue? negative n exponent = some y := by
  obtain ⟨x, hx⟩ := ofRatio_of_lt_limit negative Nat.one_pos (significand_lt_limit hn)
  obtain ⟨y, hy⟩ := scaleBy_of_nonpos 8 (isFinite_of_ofRatio Nat.one_pos hx) hexponent
  exact ⟨y, by rw [realValue?, hx]; exact hy⟩

theorem limit_lt_pow10 : limit < 10 ^ 309 := by
  have hnat : (2 ^ 54 - 1) * 2 ^ 970 < 10 ^ 309 := by decide +kernel
  have hcast : (((2 ^ 54 - 1) * 2 ^ 970 : Nat) : ℚ) < ((10 ^ 309 : Nat) : ℚ) :=
    Nat.cast_lt.mpr hnat
  have hbits : ((2 ^ 54 - 1 : Nat) : ℚ) = 2 ^ 54 - 1 := by norm_num
  have hpow : (2 : ℚ) ^ (970 : Int) = 2 ^ 970 := zpow_natCast 2 970
  rw [Nat.cast_mul, Nat.cast_pow, Nat.cast_pow, hbits] at hcast
  rw [limit, hpow]
  exact hcast

/-- Digits in front of a power of ten are in range if there is room for two roundings. -/
theorem realValue?_of_lt_limit (negative : Bool) {n : Nat} (hpos : 0 < n) (hn : n ≤ maxSignificand)
    {exponent : Int} (hlimit : (n : ℚ) * 10 ^ exponent * (1 + 1 / 2 ^ 53) ^ 2 < limit) :
    ∃ y, realValue? negative n exponent = some y := by
  rcases Int.lt_or_le 0 exponent with hup | hdown
  · obtain ⟨e, rfl⟩ := Int.eq_ofNat_of_zero_le hup.le
    have hone : 1 ≤ (n : ℚ) := by exact_mod_cast hpos
    rw [zpow_natCast] at hlimit
    have hpow : (10 : ℚ) ^ e < 10 ^ 309 := by
      calc (10 : ℚ) ^ e = 1 * 10 ^ e * 1 := by ring
        _ ≤ n * 10 ^ e * (1 + 1 / 2 ^ 53) ^ 2 := by
            gcongr
            norm_num
        _ < limit := hlimit
        _ < 10 ^ 309 := limit_lt_pow10
    have he : e < 309 := (pow_lt_pow_iff_right₀ (by norm_num)).mp hpow
    obtain ⟨x, hx⟩ := ofRatio_of_lt_limit negative Nat.one_pos (significand_lt_limit hn)
    have hround := magnitude_le_of_ofRatio Nat.one_pos hx (by rwa [Nat.cast_one, div_one])
    rw [Nat.cast_one, div_one] at hround
    have hroom : x.magnitude * (10 ^ e * (1 + 1 / 2 ^ 53)) < limit := by
      calc x.magnitude * (10 ^ e * (1 + 1 / 2 ^ 53))
          ≤ (n : ℚ) * (1 + 1 / 2 ^ 53) * (10 ^ e * (1 + 1 / 2 ^ 53)) := by gcongr
        _ = (n : ℚ) * 10 ^ e * (1 + 1 / 2 ^ 53) ^ 2 := by ring
        _ < limit := hlimit
    obtain ⟨y, hy⟩ := scaleBy_of_lt_limit 7 (by omega) hroom
    exact ⟨y, by rw [realValue?, hx]; exact hy⟩
  · exact realValue?_of_nonpos negative hn hdown

/-! ## Digits behind the point -/

theorem skipDigits_append {ds : List Char} (hds : AllDigits ds) {rest : List Char}
    (hrest : NoDigitAhead rest) : skipDigits (ds ++ rest) = rest := by
  induction ds with
  | nil =>
      cases rest with
      | nil => rfl
      | cons c rest =>
          have hc : digit? c = none := hrest c rfl
          simp [skipDigits, hc]
  | cons c ds ih =>
      have hc := digit?_of_isDigit (hds c (by simp))
      have hmore := ih fun d hd => hds d (by simp [hd])
      rw [skipDigits] at hmore ⊢
      rw [List.cons_append, List.dropWhile_cons_of_pos (by simp [hc]), hmore]

/-- A number followed by digits is at least the number followed by as many zeros. -/
theorem mul_pow_le_ofDigitChars (ds : List Char) (n : Nat) :
    n * 10 ^ ds.length ≤ Nat.ofDigitChars 10 ds n := by
  rw [Nat.ofDigitChars_eq_ofDigitChars_zero, Nat.mul_comm]
  exact Nat.le_add_right _ _

theorem ofDigitChars_cons_eq (c : Char) (ds : List Char) (n : Nat) :
    Nat.ofDigitChars 10 (c :: ds) n = Nat.ofDigitChars 10 ds (n * 10 + (c.toNat - 48)) := by
  rw [Nat.ofDigitChars_cons, Nat.mul_comm]
  rfl

/-- Digits behind the point are kept as long as they fit, and the others are passed over; what is
kept is no more than what all of them write. -/
theorem readFractionDigits_append {ds : List Char} (hds : AllDigits ds) {n : Nat}
    (hn : n ≤ maxSignificand) (places : Nat) :
    ∃ n' kept,
      (∀ rest, NoDigitAhead rest →
        readFractionDigits n places (ds ++ rest) = (n', places + kept, rest)) ∧
      n ≤ n' ∧ n' ≤ maxSignificand ∧ kept ≤ ds.length ∧
      n' * 10 ^ (ds.length - kept) ≤ Nat.ofDigitChars 10 ds n ∧
      (Nat.ofDigitChars 10 ds n ≤ maxSignificand →
        kept = ds.length ∧ n' = Nat.ofDigitChars 10 ds n) := by
  induction ds generalizing n places with
  | nil =>
      refine ⟨n, 0, fun rest hrest => ?_, Nat.le_refl n, hn, Nat.le_refl 0, by simp, by simp⟩
      cases rest with
      | nil => rfl
      | cons c rest =>
          rw [List.nil_append, readFractionDigits, hrest c rfl]
          rfl
  | cons c ds ih =>
      have hds' : AllDigits ds := fun d hd => hds d (by simp [hd])
      have hc := digit?_of_isDigit (hds c (by simp))
      rw [ofDigitChars_cons_eq]
      by_cases hlong : maxSignificand < n * 10 + (c.toNat - 48)
      · -- this digit does not fit any more, so it and those behind it are passed over
        refine ⟨n, 0, fun rest hrest => ?_, Nat.le_refl n, hn, Nat.zero_le _, ?_, fun hfits => ?_⟩
        · rw [List.cons_append, readFractionDigits, hc]
          simp only [if_pos hlong, skipDigits_append hds' hrest, Nat.add_zero]
        · rw [← ofDigitChars_cons_eq]
          exact mul_pow_le_ofDigitChars (c :: ds) n
        · have hle := le_ofDigitChars ds (n * 10 + (c.toNat - 48))
          omega
      · obtain ⟨n', kept, hread, hle, hmax, hkept, hvalue, hall⟩ :=
          ih hds' (Nat.not_lt.mp hlong) (places + 1)
        refine ⟨n', kept + 1, fun rest hrest => ?_, by omega, hmax, by simpa using hkept, ?_,
          fun h => ?_⟩
        · have hplaces : places + 1 + kept = places + (kept + 1) := by omega
          rw [List.cons_append, readFractionDigits, hc]
          simp only [if_neg hlong, hread rest hrest, hplaces]
        · rw [List.length_cons, Nat.add_sub_add_right]
          exact hvalue
        · obtain ⟨hlength, hsame⟩ := hall h
          exact ⟨by rw [hlength, List.length_cons], hsame⟩

theorem readFraction_append {ds : List Char} (hds : AllDigits ds) (hne : ds ≠ [])
    (negative : Bool) {n : Nat} (hn : n ≤ maxSignificand) (exponent : Int) :
    ∃ n' kept,
      (∀ rest, NoDigitAhead rest → readFraction negative n exponent (ds ++ rest) =
        readExponentOr negative n' (exponent - (kept : Nat)) rest) ∧
      n ≤ n' ∧ n' ≤ maxSignificand ∧ kept ≤ ds.length ∧
      n' * 10 ^ (ds.length - kept) ≤ Nat.ofDigitChars 10 ds n ∧
      (Nat.ofDigitChars 10 ds n ≤ maxSignificand →
        kept = ds.length ∧ n' = Nat.ofDigitChars 10 ds n) := by
  obtain ⟨n', kept, hread, hfacts⟩ := readFractionDigits_append hds hn 0
  refine ⟨n', kept, fun rest hrest => ?_, hfacts⟩
  cases ds with
  | nil => exact absurd rfl hne
  | cons c ds =>
      have hc := digit?_of_isDigit (hds c (by simp))
      have hdigits := hread rest hrest
      rw [List.cons_append] at hdigits ⊢
      rw [readFraction, hc]
      simp only [hdigits, Nat.zero_add]

theorem readExponentOr_end {rest : List Char} (hrest : EndsNumber rest) (negative : Bool) (n : Nat)
    (exponent : Int) :
    readExponentOr negative n exponent rest = realOf negative n exponent rest := by
  unfold readExponentOr
  split
  · exact absurd rfl (hrest.noMark _ rfl).2.1
  · exact absurd rfl (hrest.noMark _ rfl).2.2
  · rfl

/-- A point with digits behind it ends a number that is in range. -/
theorem readNumberTail_point {ds : List Char} (hds : AllDigits ds) (hne : ds ≠ [])
    (negative : Bool) {n : Nat} (hn : n ≤ maxSignificand) :
    ∃ y, ∀ rest, EndsNumber rest →
      readNumberTail negative n ('.' :: ds ++ rest) = .ok (.real y, rest) := by
  obtain ⟨n', kept, hread, -, hmax, -⟩ := readFraction_append hds hne negative hn 0
  have hdown : 0 - (kept : Int) ≤ 0 := by omega
  obtain ⟨y, hy⟩ := realValue?_of_nonpos negative hmax hdown
  refine ⟨y, fun rest hrest => ?_⟩
  rw [List.cons_append, readNumberTail]
  simp only [hread rest hrest.noDigit]
  rw [readExponentOr_end hrest, realOf_eq hy]

/-! ## Exponents -/

theorem noDigitAhead_e (rest : List Char) : NoDigitAhead ('e' :: rest) := by
  intro c hc
  cases hc
  rfl

/-- The digits of an exponent are read as a number, or given up when it becomes too great. -/
theorem readExponentDigits_append {ds : List Char} (hds : AllDigits ds) (e : Nat) :
    (∀ rest, NoDigitAhead rest →
      readExponentDigits e (ds ++ rest) = (some (Nat.ofDigitChars 10 ds e), rest)) ∨
    maxExponent < Nat.ofDigitChars 10 ds e ∧ ∃ more, AllDigits more ∧
      ∀ rest, readExponentDigits e (ds ++ rest) = (none, more ++ rest) := by
  induction ds generalizing e with
  | nil =>
      refine .inl fun rest hrest => ?_
      cases rest with
      | nil => rfl
      | cons c rest =>
          rw [List.nil_append, readExponentDigits, hrest c rfl]
          rfl
  | cons c ds ih =>
      have hds' : AllDigits ds := fun d hd => hds d (by simp [hd])
      have hstep : ∀ rest, readExponentDigits e (c :: ds ++ rest) =
          if maxExponent < e * 10 + (c.toNat - 48) then (none, ds ++ rest)
          else readExponentDigits (e * 10 + (c.toNat - 48)) (ds ++ rest) := by
        intro rest
        rw [List.cons_append, readExponentDigits, digit?_of_isDigit (hds c (by simp))]
      rw [ofDigitChars_cons_eq]
      by_cases hgreat : maxExponent < e * 10 + (c.toNat - 48)
      · refine .inr ⟨Nat.lt_of_lt_of_le hgreat (le_ofDigitChars ds _), ds, hds', fun rest => ?_⟩
        rw [hstep, if_pos hgreat]
      · simp only [hstep, if_neg hgreat]
        exact ih hds' _

theorem toDigits_eq_digit_cons (e : Nat) :
    ∃ c ds, Nat.toDigits 10 e = c :: ds ∧ digit? c = some (c.toNat - 48) ∧ AllDigits ds ∧
      Nat.ofDigitChars 10 ds (c.toNat - 48) = e := by
  rcases Nat.eq_zero_or_pos e with hzero | hpos
  · subst hzero
    exact ⟨'0', [], Nat.toDigits_zero 10, rfl, by simp [AllDigits], rfl⟩
  · obtain ⟨c, ds, hdigits, -, hc, hds, hvalue⟩ := toDigits_eq_cons hpos
    exact ⟨c, ds, hdigits, hc, hds, hvalue⟩

/-- An exponent with a minus ends a number that is in range. -/
theorem readExponent_minus (negative : Bool) {n : Nat} (hn : n ≤ maxSignificand) {start : Int}
    (hstart : start ≤ 0) (e : Nat) :
    ∃ y, ∀ rest, NoDigitAhead rest →
      readExponent negative n start ('-' :: Nat.toDigits 10 e ++ rest) = .ok (.real y, rest) := by
  obtain ⟨c, ds, hdigits, hc, hds, hvalue⟩ := toDigits_eq_digit_cons e
  rcases readExponentDigits_append hds (c.toNat - 48) with hread | ⟨-, more, hmore, hread⟩
  · have hdown : start - (Nat.ofDigitChars 10 ds (c.toNat - 48) : Int) ≤ 0 := by omega
    obtain ⟨y, hy⟩ := realValue?_of_nonpos negative hn hdown
    refine ⟨y, fun rest hrest => ?_⟩
    rw [hdigits, List.cons_append, List.cons_append, readExponent]
    simp only [hc]
    rw [hread rest hrest]
    simpa using realOf_eq hy rest
  · refine ⟨zero negative, fun rest hrest => ?_⟩
    rw [hdigits, List.cons_append, List.cons_append, readExponent]
    simp only [hc]
    rw [hread rest]
    simp [skipDigits_append hmore hrest]

/-- An exponent with a plus ends a number if the number is in range. -/
theorem readExponent_plus {negative : Bool} {n : Nat} {start : Int} {e : Nat}
    (he : e ≤ maxExponent) {y : Binary64} (hy : realValue? negative n (start + (e : Nat)) = some y)
    {rest : List Char} (hrest : NoDigitAhead rest) :
    readExponent negative n start ('+' :: Nat.toDigits 10 e ++ rest) = .ok (.real y, rest) := by
  obtain ⟨c, ds, hdigits, hc, hds, hvalue⟩ := toDigits_eq_digit_cons e
  rw [hdigits, List.cons_append, List.cons_append, readExponent]
  simp only [hc]
  rcases readExponentDigits_append hds (c.toNat - 48) with hread | ⟨hgreat, -⟩
  · rw [hread rest hrest, hvalue]
    simpa using realOf_eq hy rest
  · omega

/-! ## Layouts -/

/-- The digits before the point or the exponent, the first of which is no zero. -/
theorem readNumber_front (negative : Bool) {c : Char} (hzero : c ≠ '0') {ds : List Char}
    (hds : AllDigits (c :: ds)) {rest : List Char} (hrest : NoDigitAhead rest)
    (hfits : Nat.ofDigitChars 10 (c :: ds) 0 ≤ maxSignificand) :
    readNumber negative (c :: ds ++ rest) =
      readNumberTail negative (Nat.ofDigitChars 10 (c :: ds) 0) rest := by
  have hc := digit?_of_isDigit (hds c (by simp))
  rw [ofDigitChars_cons_eq, Nat.zero_mul, Nat.zero_add] at hfits ⊢
  rw [List.cons_append, readNumber.eq_def]
  simp only [beq_iff_eq, if_neg hzero, hc]
  rw [readDigits_append negative (fun d hd => hds d (by simp [hd])) hfits,
    readDigits_end negative _ hrest]

theorem ofDigitChars_lt {ds : List Char} (hds : AllDigits ds) (n : Nat) :
    Nat.ofDigitChars 10 ds n < (n + 1) * 10 ^ ds.length := by
  induction ds generalizing n with
  | nil => simp
  | cons c ds ih =>
      have hdigit : c.toNat - 48 ≤ 9 := by
        have hc := hds c (by simp)
        rw [Char.isDigit_iff_toNat] at hc
        have hnine : '9'.toNat = 57 := rfl
        omega
      have hlt := ih (fun d hd => hds d (by simp [hd])) (n * 10 + (c.toNat - 48))
      rw [ofDigitChars_cons_eq, List.length_cons]
      calc Nat.ofDigitChars 10 ds (n * 10 + (c.toNat - 48))
          < (n * 10 + (c.toNat - 48) + 1) * 10 ^ ds.length := hlt
        _ ≤ ((n + 1) * 10) * 10 ^ ds.length := Nat.mul_le_mul_right _ (by omega)
        _ = (n + 1) * 10 ^ (ds.length + 1) := by ring

/-- A number whose digits before the point are few, with a point and digits behind it. -/
theorem readNumber_point (negative : Bool) {c : Char} (hzero : c ≠ '0') {front : List Char}
    (hfront : AllDigits (c :: front)) (hfew : (c :: front).length ≤ 19) {back : List Char}
    (hback : AllDigits back) (hne : back ≠ []) :
    ∃ y, ∀ rest, EndsNumber rest →
      readNumber negative (c :: front ++ '.' :: back ++ rest) = .ok (.real y, rest) := by
  have hpoint : ∀ rest, NoDigitAhead ('.' :: back ++ rest) := by
    intro rest d hd
    cases hd
    rfl
  have hfits : Nat.ofDigitChars 10 (c :: front) 0 ≤ maxSignificand := by
    have hlt := ofDigitChars_lt hfront 0
    rw [Nat.zero_add, Nat.one_mul] at hlt
    have hpow : 10 ^ (c :: front).length ≤ 10 ^ 19 := Nat.pow_le_pow_right (by decide) hfew
    have hmax : 10 ^ 19 ≤ maxSignificand := by decide
    omega
  obtain ⟨y, hy⟩ := readNumberTail_point hback hne negative hfits
  refine ⟨y, fun rest hrest => ?_⟩
  rw [List.append_assoc, readNumber_front negative hzero hfront (hpoint rest) hfits, hy rest hrest]

/-- Digits with a power of ten that are in range however many of them a reader keeps. -/
structure InRange (found : Decimal.Digits) : Prop where
  power : (Nat.toDigits 10 found.value).length + found.scale ≤ 309
  kept : ∀ (negative : Bool) (n dropped : Nat), 0 < n → n ≤ maxSignificand →
    n * 10 ^ dropped ≤ found.value →
    (found.value ≤ maxSignificand → dropped = 0 ∧ n = found.value) →
    ∃ y, realValue? negative n (found.scale + (dropped : Nat)) = some y

/-- A digit, and others behind a point if there are any. -/
def pointed (c : Char) : List Char → List Char
  | [] => [c]
  | d :: ds => c :: '.' :: d :: ds

/-- The digits before an exponent, with what is kept of them. -/
theorem readNumber_pointed (negative : Bool) {c : Char} (hzero : c ≠ '0') {ds : List Char}
    (hds : AllDigits (c :: ds)) {value : Nat} (hvalue : Nat.ofDigitChars 10 (c :: ds) 0 = value) :
    ∃ n dropped,
      (∀ more, readNumber negative (pointed c ds ++ 'e' :: more) =
        readExponent negative n ((dropped : Nat) - (ds.length : Int)) more) ∧
      0 < n ∧ n ≤ maxSignificand ∧ dropped ≤ ds.length ∧ n * 10 ^ dropped ≤ value ∧
      (value ≤ maxSignificand → dropped = 0 ∧ n = value) := by
  have hdigit : 0 < c.toNat - 48 ∧ c.toNat - 48 ≤ 9 := by
    have hc := hds c (by simp)
    rw [Char.isDigit_iff_toNat] at hc
    have hlow : '0'.toNat = 48 := rfl
    have hhigh : '9'.toNat = 57 := rfl
    have hne : c.toNat ≠ 48 := fun h => hzero (Char.toNat_inj.mp h)
    omega
  have hone : Nat.ofDigitChars 10 [c] 0 = c.toNat - 48 := by simp [Nat.ofDigitChars_cons]
  have hmax : 9 ≤ maxSignificand := by decide
  have hfits : Nat.ofDigitChars 10 [c] 0 ≤ maxSignificand := by omega
  have hc : AllDigits [c] := by
    intro d hd
    rw [List.mem_singleton] at hd
    exact hd ▸ hds c (by simp)
  rw [ofDigitChars_cons_eq, Nat.zero_mul, Nat.zero_add] at hvalue
  cases ds with
  | nil =>
      have hread := fun more => readNumber_front negative hzero hc (noDigitAhead_e more) hfits
      rw [Nat.ofDigitChars_nil] at hvalue
      simp only [hone] at hread
      refine ⟨c.toNat - 48, 0, hread, hdigit.1, by omega, Nat.le_refl 0, by omega, ?_⟩
      exact fun _ => ⟨rfl, hvalue⟩
  | cons d ds =>
      have hds' : AllDigits (d :: ds) := fun e he => hds e (by simp [List.mem_cons.mp he])
      have hpoint : ∀ more, NoDigitAhead ('.' :: (d :: ds ++ 'e' :: more)) := by
        intro more e he
        cases he
        rfl
      have hread := fun more => readNumber_front negative hzero hc (hpoint more) hfits
      obtain ⟨n, kept, hfraction, hle, hn, hkept, hless, hall⟩ := readFraction_append hds'
        (List.cons_ne_nil d ds) negative hfits 0
      have hexponent : (((d :: ds).length - kept : Nat) : Int) - ((d :: ds).length : Int) =
          0 - (kept : Int) := by omega
      simp only [hone] at hread hfraction hle hless hall
      rw [hvalue] at hless hall
      refine ⟨n, (d :: ds).length - kept, fun more => ?_, by omega, hn, Nat.sub_le _ _, hless,
        fun h => ?_⟩
      · rw [hexponent]
        exact (hread more).trans (hfraction _ (noDigitAhead_e more))
      · obtain ⟨hlength, hsame⟩ := hall h
        exact ⟨by omega, hsame⟩

/-- Digits with an exponent are read back, whatever the sign of the exponent. -/
theorem readNumber_exponent (negative : Bool) {found : Decimal.Digits} (hrange : InRange found)
    {c : Char} {ds : List Char} (hzero : c ≠ '0')
    (hdigits : Nat.toDigits 10 found.value = c :: ds) {power : Int}
    (hpower : power = ds.length + found.scale) :
    ∃ y, ∀ rest, EndsNumber rest →
      readNumber negative (pointed c ds ++
        (if power < 0 then ['e', '-'] else ['e', '+']) ++ Nat.toDigits 10 power.natAbs ++ rest) =
      .ok (.real y, rest) := by
  have hds : AllDigits (c :: ds) := hdigits ▸ allDigits_toDigits found.value
  have hvalue : Nat.ofDigitChars 10 (c :: ds) 0 = found.value := by
    rw [← hdigits]
    exact Nat.ofDigitChars_ten_toDigits
  obtain ⟨n, dropped, hread, hpos, hn, hdropped, hless, hall⟩ :=
    readNumber_pointed negative hzero hds hvalue
  split_ifs with hdown
  · obtain ⟨y, hy⟩ := readExponent_minus negative hn
      (show (dropped : Int) - (ds.length : Int) ≤ 0 by omega) power.natAbs
    refine ⟨y, fun rest hrest => ?_⟩
    rw [← hy rest hrest.noDigit, ← hread]
    simp
  · -- a great exponent may leave the range, so here it matters how many digits were kept
    obtain ⟨y, hy⟩ := hrange.kept negative n dropped hpos hn hless hall
    have hlength : (Nat.toDigits 10 found.value).length = ds.length + 1 := by rw [hdigits]; simp
    have hmax : 309 ≤ maxExponent := by decide
    have hbound := hrange.power
    have hexponent : (dropped : Int) - (ds.length : Int) + (power.natAbs : Nat) =
        found.scale + (dropped : Nat) := by omega
    rw [← hexponent] at hy
    refine ⟨y, fun rest hrest => ?_⟩
    rw [← readExponent_plus (by omega) hy hrest.noDigit, ← hread]
    simp

theorem allDigits_zeros (count : Nat) : AllDigits (List.replicate count '0') := by
  intro c hc
  rw [List.eq_of_mem_replicate hc]
  rfl

section

variable (negative : Bool) {c : Char} {ds : List Char}

/-- The layout of zero. -/
theorem readNumber_zero : ∃ y, ∀ rest, EndsNumber rest →
    readNumber negative (['0', '.', '0'] ++ rest) = .ok (.real y, rest) :=
  readNumberTail_point (allDigits_zeros 1) (List.cons_ne_nil _ _) negative
    (Nat.zero_le maxSignificand)

/-- The layout with zeros up to the point and one behind it. -/
theorem readNumber_zerosBefore (hzero : c ≠ '0') (hds : AllDigits (c :: ds)) {zeros : Nat}
    (hfew : (c :: ds).length + zeros ≤ 19) : ∃ y, ∀ rest, EndsNumber rest →
      readNumber negative (c :: ds ++ List.replicate zeros '0' ++ ['.', '0'] ++ rest) =
        .ok (.real y, rest) := by
  have hfront : AllDigits (c :: (ds ++ List.replicate zeros '0')) := by
    intro d hd
    rw [← List.cons_append, List.mem_append] at hd
    exact hd.elim (hds d) (allDigits_zeros zeros d)
  have hlength : (c :: (ds ++ List.replicate zeros '0')).length ≤ 19 := by
    rwa [← List.cons_append, List.length_append, List.length_replicate]
  obtain ⟨y, hy⟩ := readNumber_point negative hzero hfront hlength (allDigits_zeros 1)
    (List.cons_ne_nil _ _)
  refine ⟨y, fun rest hrest => ?_⟩
  rw [← hy rest hrest]
  simp

/-- The layout with the point among the digits. -/
theorem readNumber_pointInside (hzero : c ≠ '0') (hds : AllDigits (c :: ds)) {k : Nat}
    (hinside : k < ds.length) (hfew : k ≤ 18) : ∃ y, ∀ rest, EndsNumber rest →
      readNumber negative ((c :: ds).take (k + 1) ++ '.' :: (c :: ds).drop (k + 1) ++ rest) =
        .ok (.real y, rest) := by
  have hfront : AllDigits (c :: ds.take k) := fun d hd =>
    hds d (List.take_subset (k + 1) (c :: ds) hd)
  have hback : AllDigits (ds.drop k) := fun d hd =>
    hds d (List.mem_cons_of_mem c (List.drop_subset k ds hd))
  have hlength : (c :: ds.take k).length ≤ 19 := by
    rw [List.length_cons, List.length_take]
    omega
  have hne : ds.drop k ≠ [] := by
    rw [Ne, List.drop_eq_nil_iff]
    omega
  exact readNumber_point negative hzero hfront hlength hback hne

/-- The layout with zeros behind the point. -/
theorem readNumber_zerosBehind (hds : AllDigits (c :: ds)) (zeros : Nat) :
    ∃ y, ∀ rest, EndsNumber rest →
      readNumber negative (['0', '.'] ++ List.replicate zeros '0' ++ c :: ds ++ rest) =
        .ok (.real y, rest) := by
  have hback : AllDigits (List.replicate zeros '0' ++ c :: ds) := by
    intro d hd
    exact (List.mem_append.mp hd).elim (allDigits_zeros zeros d) (hds d)
  obtain ⟨y, hy⟩ := readNumberTail_point hback (by simp) negative (Nat.zero_le maxSignificand)
  refine ⟨y, fun rest hrest => ?_⟩
  rw [← hy rest hrest]
  rfl

end

/-- Digits are read back in every layout. -/
theorem readNumber_renderDigits (negative : Bool) {found : Decimal.Digits}
    (hrange : 0 < found.value → InRange found) :
    ∃ y, ∀ rest, EndsNumber rest →
      readNumber negative (renderDigits found ++ rest) = .ok (.real y, rest) := by
  rcases Nat.eq_zero_or_pos found.value with hnone | hpos
  · rw [renderDigits, if_pos hnone]
    exact readNumber_zero negative
  obtain ⟨c, ds, hdigits, hzero, -, -, -⟩ := toDigits_eq_cons hpos
  have hds : AllDigits (c :: ds) := hdigits ▸ allDigits_toDigits found.value
  have hlength : (c :: ds).length = ds.length + 1 := List.length_cons
  rw [renderDigits, hdigits]
  simp only [if_neg (Nat.ne_of_gt hpos)]
  -- the layouts in the order in which they are tried
  by_cases hwhole : 0 ≤ found.scale ∧ (((c :: ds).length : Nat) : Int) + found.scale ≤ 16
  · rw [if_pos hwhole]
    exact readNumber_zerosBefore negative hzero hds (by omega)
  rw [if_neg hwhole]
  by_cases hinside : 0 < (((c :: ds).length : Nat) : Int) + found.scale ∧
      (((c :: ds).length : Nat) : Int) + found.scale ≤ 16
  · obtain ⟨k, hk⟩ := Nat.exists_eq_succ_of_ne_zero
      (show ((((c :: ds).length : Nat) : Int) + found.scale).toNat ≠ 0 by omega)
    rw [if_pos hinside, hk]
    exact readNumber_pointInside negative hzero hds (by omega) (by omega)
  rw [if_neg hinside]
  by_cases hbehind : -5 < (((c :: ds).length : Nat) : Int) + found.scale ∧
      (((c :: ds).length : Nat) : Int) + found.scale ≤ 0
  · rw [if_pos hbehind]
    exact readNumber_zerosBehind negative hds _
  rw [if_neg hbehind]
  have hpower : (((c :: ds).length : Nat) : Int) + found.scale - 1 = ds.length + found.scale := by
    omega
  obtain ⟨y, hy⟩ := readNumber_exponent negative (hrange hpos) hzero hdigits hpower
  refine ⟨y, fun rest hrest => ?_⟩
  rw [← hy rest hrest]
  generalize (if (((c :: ds).length : Nat) : Int) + found.scale - 1 < 0 then ['e', '-']
    else ['e', '+']) = mark
  cases ds <;> simp [pointed]

/-! ## The shortest digits -/

theorem pow_length_toDigits_le {n : Nat} (hn : 0 < n) :
    10 ^ ((Nat.toDigits 10 n).length - 1) ≤ n := by
  by_contra hlt
  rcases Nat.eq_zero_or_pos ((Nat.toDigits 10 n).length - 1) with hzero | hpos
  · rw [hzero] at hlt
    omega
  · have hle := (Nat.length_toDigits_le_iff (by decide) hpos).mpr (Nat.not_le.mp hlt)
    omega

theorem inRange_shortest {x : Binary64} (hx : x.IsFinite) (hpos : 0 < x.shortest.value) :
    InRange x.shortest where
  power := by
    have hlength := pow_length_toDigits_le hpos
    have hnonempty := @Nat.length_toDigits_pos 10 x.shortest.value
    have hcast : (10 : ℚ) ^ ((Nat.toDigits 10 x.shortest.value).length - 1) ≤ x.shortest.value := by
      exact_mod_cast hlength
    have hpow : (10 : ℚ) ^ ((((Nat.toDigits 10 x.shortest.value).length - 1 : Nat) : Int) +
        x.shortest.scale) < 10 ^ (309 : Int) := by
      calc (10 : ℚ) ^ ((((Nat.toDigits 10 x.shortest.value).length - 1 : Nat) : Int) +
            x.shortest.scale)
          = 10 ^ ((Nat.toDigits 10 x.shortest.value).length - 1) * 10 ^ x.shortest.scale := by
            rw [zpow_add₀ (by norm_num), zpow_natCast]
        _ ≤ amount x.shortest := by
            rw [amount]
            gcongr
        _ ≤ limit := (amount_shortest_le x).trans hx.upper_le_limit
        _ < 10 ^ (309 : Int) := by
            rw [show ((309 : Int)) = ((309 : Nat) : Int) from rfl, zpow_natCast]
            exact limit_lt_pow10
    have hless := (zpow_lt_zpow_iff_right₀ (by norm_num)).mp hpow
    omega
  kept := by
    intro negative n dropped hn hmax hless hall
    by_cases hgreat : x.IsGreat
    · -- seventeen digits, all of which are kept
      have htop : ∀ negative, (realValue? negative 17976931348623155 292).isSome ∧
          (realValue? negative 17976931348623157 292).isSome := by
        decide +kernel
      rcases hgreat.shortest_eq with hshort | hshort
      · rw [hshort] at hall ⊢
        obtain ⟨rfl, rfl⟩ := hall (by decide)
        exact Option.isSome_iff_exists.mp (htop negative).1
      · rw [hshort] at hall ⊢
        obtain ⟨rfl, rfl⟩ := hall (by decide)
        exact Option.isSome_iff_exists.mp (htop negative).2
    · -- what is kept lies at most half a place above the number, leaving room for two roundings
      refine realValue?_of_lt_limit negative hn hmax ?_
      have hcast : (n : ℚ) * 10 ^ dropped ≤ x.shortest.value := by exact_mod_cast hless
      have hkept : (n : ℚ) * 10 ^ (x.shortest.scale + (dropped : Nat)) ≤ x.upper := by
        calc (n : ℚ) * 10 ^ (x.shortest.scale + (dropped : Nat))
            = n * 10 ^ dropped * 10 ^ x.shortest.scale := by
              rw [zpow_add₀ (by norm_num), zpow_natCast]
              ring
          _ ≤ amount x.shortest := by
              rw [amount]
              gcongr
          _ ≤ x.upper := amount_shortest_le x
      calc (n : ℚ) * 10 ^ (x.shortest.scale + (dropped : Nat)) * (1 + 1 / 2 ^ 53) ^ 2
          ≤ x.upper * (1 + 1 / 2 ^ 53) ^ 2 := by gcongr
        _ < limit := hx.upper_mul_lt_limit hgreat

theorem renderDigits_eq_cons (found : Decimal.Digits) :
    ∃ c cs, renderDigits found = c :: cs ∧ (digit? c).isSome := by
  obtain ⟨c, ds, hdigits, hc, -, -⟩ := toDigits_eq_digit_cons found.value
  have hsome : (digit? c).isSome := by simp [hc]
  rw [renderDigits, hdigits]
  simp only
  split_ifs with hnone hwhole hinside hbehind
  · exact ⟨'0', _, rfl, rfl⟩
  · exact ⟨c, _, rfl, hsome⟩
  · obtain ⟨n, hn⟩ := Nat.exists_eq_succ_of_ne_zero
      (show ((((c :: ds).length : Nat) : Int) + found.scale).toNat ≠ 0 by omega)
    rw [hn]
    exact ⟨c, _, rfl, hsome⟩
  · exact ⟨'0', _, rfl, rfl⟩
  · cases ds with
    | nil => exact ⟨c, _, rfl, hsome⟩
    | cons d ds => exact ⟨c, _, rfl, hsome⟩
  · cases ds with
    | nil => exact ⟨c, _, rfl, hsome⟩
    | cons d ds => exact ⟨c, _, rfl, hsome⟩

/-- A finite number that was written is read as a number again. -/
theorem readValue_renderReal {x : Binary64} (hx : x.IsFinite) :
    ∃ y, ∀ depth rest, EndsNumber rest →
      readValue depth (renderReal x ++ rest) = .ok (.number (.real y), rest) := by
  obtain ⟨y, hy⟩ := readNumber_renderDigits x.isNegative (inRange_shortest hx)
  refine ⟨y, fun depth rest hrest => ?_⟩
  have hread := hy rest hrest
  rw [renderReal]
  cases hsign : x.isNegative with
  | true =>
      rw [hsign] at hread
      simp only [if_true, List.cons_append, List.nil_append]
      rw [readValue_minus, hread]
      rfl
  | false =>
      obtain ⟨c, cs, hdigits, hc⟩ := renderDigits_eq_cons x.shortest
      rw [hsign, hdigits, List.cons_append] at hread
      simp only [List.nil_append, Bool.false_eq_true, if_false]
      rw [hdigits, List.cons_append, readValue_digit depth hc, hread]
      rfl

end FossilRecord.Json
