import FossilRecord.Proofs.Instant
import Mathlib.Data.List.Lex
import Mathlib.Data.String.Basic

/-!
# The texts of points in time are in the order of time

Every part of the text of a point in time has a fixed width, save the fraction of a second.  A
fraction that is shorter leaves out zeros, and the sign of the zone that follows it stands before
every digit and before the point.  So the texts of two valid points in time compare as the points do
(`toOffset_le`).
-/

namespace FossilRecord.Instant

/-- The parts of a point in time, the largest unit first. -/
def parts (t : Instant) : List Int :=
  [t.year, t.month, t.day, t.hour, t.minute, t.second, t.nano]

/-- Whether a point in time is not later than another. -/
def NotAfter (a b : Instant) : Prop :=
  a.parts ≤ b.parts

instance (a b : Instant) : Decidable (NotAfter a b) :=
  inferInstanceAs (Decidable (a.parts ≤ b.parts))

theorem parts_injective {a b : Instant} (h : a.parts = b.parts) : a = b := by
  obtain ⟨year, month, day, hour, minute, second, nano⟩ := a
  obtain ⟨year', month', day', hour', minute', second', nano'⟩ := b
  simpa only [parts, List.cons.injEq, Int.ofNat_inj, and_true, mk.injEq] using h

/-! ## Numbers of a fixed width -/

theorem digitChar_lt {d e : Nat} (h : d < e) (he : e < 10) :
    Char.ofNat (48 + d) < Char.ofNat (48 + e) := by
  have hall : ∀ e, e < 10 → ∀ d, d < e → Char.ofNat (48 + d) < Char.ofNat (48 + e) := by decide
  exact hall e he d h

theorem zero_le_of_mem_digits {count n : Nat} {c : Char} (hc : c ∈ digits count n) : '0' ≤ c := by
  have hdigit := forall_mem_digits count n c hc
  rw [digit?] at hdigit
  split at hdigit
  · rename_i hrange
    exact hrange.1
  · cases hdigit

/-- The smaller of two numbers stands first, whatever follows them. -/
theorem digits_append_lt {count m n : Nat} (h : m < n) (hn : n < 10 ^ count) (xs ys : List Char) :
    digits count m ++ xs < digits count n ++ ys := by
  induction count generalizing m n xs ys with
  | zero => omega
  | succ count ih =>
      rw [digits, digits, List.append_assoc, List.append_assoc]
      -- the digits before the last one decide, unless they are equal
      by_cases heq : m / 10 = n / 10
      · rw [heq, List.singleton_append, List.singleton_append]
        refine List.Lex.append_left _ (List.cons_lt_cons_iff.mpr (.inl ?_)) _
        exact digitChar_lt (by omega) (by omega)
      · refine ih (by omega) ?_ _ _
        rw [pow_succ] at hn
        omega

/-- Of two numbers with something behind them the numbers decide, or else what follows. -/
theorem digits_append_lt_of {count m n : Nat} {xs ys : List Char} (hn : n < 10 ^ count)
    (h : m < n ∨ m = n ∧ xs < ys) : digits count m ++ xs < digits count n ++ ys := by
  rcases h with hlt | ⟨rfl, hrest⟩
  · exact digits_append_lt hlt hn xs ys
  · exact List.Lex.append_left _ hrest _

/-! ## Fractions -/

/-- Digits behind a number write that number times a power of ten. -/
theorem digits_mul_pow (count zeros n : Nat) :
    digits (count + zeros) (n * 10 ^ zeros) = digits count n ++ List.replicate zeros '0' := by
  induction zeros with
  | zero => simp
  | succ zeros ih =>
      have hdiv : n * 10 ^ (zeros + 1) / 10 = n * 10 ^ zeros := by
        rw [pow_succ, ← Nat.mul_assoc, Nat.mul_div_cancel _ (by decide)]
      have hmod : n * 10 ^ (zeros + 1) % 10 = 0 := by
        rw [pow_succ, ← Nat.mul_assoc, Nat.mul_mod_left]
      rw [← Nat.add_assoc, digits, hdiv, hmod, ih, List.append_assoc, List.replicate_succ']

/-- No digits stand before as many zeros. -/
theorem not_lt_replicate_zero {ds : List Char} (hds : ∀ c ∈ ds, '0' ≤ c) :
    ¬ds < List.replicate ds.length '0' := by
  induction ds with
  | nil => exact List.not_lt_nil []
  | cons d ds ih =>
      rw [List.length_cons, List.replicate_succ, List.cons_lt_cons_iff]
      rintro (hlt | ⟨-, hlt⟩)
      · exact absurd hlt (not_lt.mpr (hds d (by simp)))
      · exact ih (fun c hc => hds c (by simp [hc])) hlt

/-- Zeros at the end may be left out in front of a sign, which stands before every digit. -/
theorem append_plus_lt {ds es : List Char} {k l : Nat} (hds : ∀ c ∈ ds, '0' ≤ c)
    (hes : ∀ c ∈ es, '0' ≤ c) (hlength : ds.length + k = es.length + l)
    (h : ds ++ List.replicate k '0' < es ++ List.replicate l '0') (rest : List Char) :
    ds ++ '+' :: rest < es ++ '+' :: rest := by
  induction ds generalizing es with
  | nil =>
      cases es with
      | nil =>
          have hkl : k = l := by simpa using hlength
          rw [hkl] at h
          exact absurd h (List.lt_irrefl _)
      | cons e es =>
          have hsign : '+' < '0' := by decide
          exact List.cons_lt_cons_iff.mpr (.inl (lt_of_lt_of_le hsign (hes e (by simp))))
  | cons d ds ih =>
      cases es with
      | nil =>
          -- what is all zeros has nothing before it
          have hall : ∀ c ∈ d :: ds ++ List.replicate k '0', '0' ≤ c := by
            intro c hc
            rcases List.mem_append.mp hc with hc | hc
            · exact hds c hc
            · rw [List.eq_of_mem_replicate hc]
          have hzeros : (d :: ds ++ List.replicate k '0').length = l := by
            rw [List.length_append, List.length_replicate, hlength, List.length_nil, Nat.zero_add]
          have hnone := not_lt_replicate_zero hall
          rw [hzeros] at hnone
          exact absurd h hnone
      | cons e es =>
          rw [List.cons_append, List.cons_append, List.cons_lt_cons_iff] at h ⊢
          refine h.imp_right (And.imp_right fun htail => ?_)
          simp only [List.length_cons] at hlength
          exact ih (fun c hc => hds c (by simp [hc])) (fun c hc => hes c (by simp [hc]))
            (by omega) htail

/-- A fraction is written with nine digits of which some zeros at the end are left out, or not at
all. -/
theorem fractionChars_eq {nano : Nat} (hzero : nano ≠ 0) :
    ∃ ds zeros, fractionChars nano = '.' :: ds ∧ (∀ c ∈ ds, '0' ≤ c) ∧
      digits 9 nano = ds ++ List.replicate zeros '0' := by
  rw [fractionChars, if_neg hzero]
  split_ifs with hmilli hmicro
  · have hnano : nano / 1000000 * 10 ^ 6 = nano := Nat.div_mul_cancel (Nat.dvd_of_mod_eq_zero hmilli)
    have hdigits := digits_mul_pow 3 6 (nano / 1000000)
    rw [hnano] at hdigits
    exact ⟨_, 6, rfl, fun c hc => zero_le_of_mem_digits hc, hdigits⟩
  · have hnano : nano / 1000 * 10 ^ 3 = nano := Nat.div_mul_cancel (Nat.dvd_of_mod_eq_zero hmicro)
    have hdigits := digits_mul_pow 6 3 (nano / 1000)
    rw [hnano] at hdigits
    exact ⟨_, 3, rfl, fun c hc => zero_le_of_mem_digits hc, hdigits⟩
  · exact ⟨_, 0, rfl, fun c hc => zero_le_of_mem_digits hc, by simp⟩

/-- The smaller of two fractions stands first, with a zone behind it. -/
theorem fractionChars_append_lt {m n : Nat} (h : m < n) (hn : n < 1000000000) (rest : List Char) :
    fractionChars m ++ '+' :: rest < fractionChars n ++ '+' :: rest := by
  obtain ⟨es, l, hes, hesZero, hesDigits⟩ := fractionChars_eq (Nat.ne_of_gt (Nat.zero_lt_of_lt h))
  rw [hes]
  by_cases hzero : m = 0
  · rw [hzero]
    exact List.cons_lt_cons_iff.mpr (.inl (by decide))
  · obtain ⟨ds, k, hds, hdsZero, hdsDigits⟩ := fractionChars_eq hzero
    have hpadded : digits 9 m ++ [] < digits 9 n ++ [] := digits_append_lt h hn [] []
    rw [List.append_nil, List.append_nil, hdsDigits, hesDigits] at hpadded
    have hlength : ds.length + k = es.length + l := by
      have hm := digits_length 9 m
      have hnine := digits_length 9 n
      rw [hdsDigits, List.length_append, List.length_replicate] at hm
      rw [hesDigits, List.length_append, List.length_replicate] at hnine
      omega
    rw [hds, List.cons_append, List.cons_append, List.cons_lt_cons_iff]
    exact .inr ⟨rfl, append_plus_lt hdsZero hesZero hlength hpadded rest⟩

/-! ## The whole text -/

theorem two_digits_of_valid {t : Instant} (ht : t.IsValid) :
    t.month < 10 ^ 2 ∧ t.day < 10 ^ 2 ∧ t.hour < 10 ^ 2 ∧ t.minute < 10 ^ 2 ∧ t.second < 10 ^ 2 := by
  have hdate := ht.date
  have hdays : daysIn t.year t.month ≤ 31 := by
    unfold daysIn
    split_ifs <;> omega
  simp only [isDate, Bool.and_eq_true, decide_eq_true_eq] at hdate
  have hhour := ht.hour
  have hminute := ht.minute
  have hsecond := ht.second
  omega

theorem zone_toList : "+00:00".toList = '+' :: ['0', '0', ':', '0', '0'] := by decide

/-- The text of the earlier of two valid points in time stands before that of the other one. -/
theorem toOffset_lt {a b : Instant} (ha : a.IsValid) (hb : b.IsValid) (h : a.parts < b.parts) :
    a.toOffset < b.toOffset := by
  obtain ⟨hmonth, hday, hhour, hminute, hsecond⟩ := two_digits_of_valid hb
  have hyear : b.year.toNat < 10 ^ 4 := by
    have := hb.year
    omega
  have hsame : a.year = b.year ↔ a.year.toNat = b.year.toNat := by
    have := ha.year
    have := hb.year
    omega
  have hless : a.year < b.year ↔ a.year.toNat < b.year.toNat := by
    have := ha.year
    have := hb.year
    omega
  simp only [parts, List.cons_lt_cons_iff, List.lt_irrefl, and_false, or_false, hsame, hless,
    Int.ofNat_lt, Int.ofNat_inj] at h
  rw [String.lt_iff_toList_lt, toOffset, toOffset, zone_toList, String.toList_ofList,
    String.toList_ofList, localChars, localChars, yearChars, yearChars, if_pos ha.year,
    if_pos hb.year]
  simp only [List.append_assoc, List.cons_append]
  -- part by part, the first difference decides
  refine digits_append_lt_of hyear (h.imp_right (And.imp_right fun h => ?_))
  refine List.cons_lt_cons_iff.mpr (.inr ⟨rfl, digits_append_lt_of hmonth ?_⟩)
  refine h.imp_right (And.imp_right fun h => ?_)
  refine List.cons_lt_cons_iff.mpr (.inr ⟨rfl, digits_append_lt_of hday ?_⟩)
  refine h.imp_right (And.imp_right fun h => ?_)
  refine List.cons_lt_cons_iff.mpr (.inr ⟨rfl, digits_append_lt_of hhour ?_⟩)
  refine h.imp_right (And.imp_right fun h => ?_)
  refine List.cons_lt_cons_iff.mpr (.inr ⟨rfl, digits_append_lt_of hminute ?_⟩)
  refine h.imp_right (And.imp_right fun h => ?_)
  refine List.cons_lt_cons_iff.mpr (.inr ⟨rfl, digits_append_lt_of hsecond ?_⟩)
  exact h.imp_right (And.imp_right fun hnano => fractionChars_append_lt hnano hb.nano _)

/-- The texts of valid points in time are in the order of time. -/
theorem toOffset_le {a b : Instant} (ha : a.IsValid) (hb : b.IsValid) (h : a.NotAfter b) :
    a.toOffset ≤ b.toOffset := by
  rcases lt_or_eq_of_le h with hlt | heq
  · exact (toOffset_lt ha hb hlt).le
  · rw [parts_injective heq]

end FossilRecord.Instant
