import FossilRecord.Instant
import Mathlib.Algebra.Group.Nat.Defs
import Mathlib.Tactic.Common

/-!
# Points in time read back

A valid point in time of the years 0 to 9999 is read from the text that a row keeps of it.
-/

namespace FossilRecord.Instant

/-- A point in time that a clock can show and that has a year of four digits. -/
structure IsValid (t : Instant) : Prop where
  date : isDate t.year t.month t.day = true
  hour : t.hour ≤ 23
  minute : t.minute ≤ 59
  second : t.second ≤ 60
  nano : t.nano < 1000000000
  year : 0 ≤ t.year ∧ t.year ≤ 9999

/-- A point in time that a clock can show in some year that an instant can have. -/
structure InRange (t : Instant) : Prop where
  date : isDate t.year t.month t.day = true
  hour : t.hour ≤ 23
  minute : t.minute ≤ 59
  second : t.second ≤ 60
  nano : t.nano < 1000000000
  year : isYear t.year = true

theorem IsValid.inRange {t : Instant} (ht : t.IsValid) : t.InRange where
  date := ht.date
  hour := ht.hour
  minute := ht.minute
  second := ht.second
  nano := ht.nano
  year := by
    have hyear := ht.year
    simp only [isYear, Bool.and_eq_true, decide_eq_true_eq]
    omega

instance (t : Instant) : Decidable t.IsValid :=
  decidable_of_iff
    (isDate t.year t.month t.day = true ∧ t.hour ≤ 23 ∧ t.minute ≤ 59 ∧ t.second ≤ 60 ∧
      t.nano < 1000000000 ∧ 0 ≤ t.year ∧ t.year ≤ 9999)
    ⟨fun ⟨hdate, hhour, hminute, hsecond, hnano, hyear⟩ =>
      ⟨hdate, hhour, hminute, hsecond, hnano, hyear⟩,
      fun h => ⟨h.date, h.hour, h.minute, h.second, h.nano, h.year⟩⟩

/-! ## Digits -/

@[simp] theorem digits_length (count n : Nat) : (digits count n).length = count := by
  induction count generalizing n with
  | zero => rfl
  | succ count ih => rw [digits, List.length_append, ih, List.length_singleton]

theorem digit?_ofNat {d : Nat} (hd : d < 10) : digit? (Char.ofNat (48 + d)) = some d := by
  have hall : ∀ d, d < 10 → digit? (Char.ofNat (48 + d)) = some d := by decide
  exact hall d hd

theorem forall_mem_digits (count n : Nat) : ∀ c ∈ digits count n, (digit? c).isSome = true := by
  induction count generalizing n with
  | zero => simp [digits]
  | succ count ih =>
      intro c hc
      rw [digits, List.mem_append, List.mem_singleton] at hc
      rcases hc with hc | rfl
      · exact ih (n / 10) c hc
      · rw [digit?_ofNat (Nat.mod_lt n (by decide))]
        rfl

/-- The number that digits write. -/
def valueOf (cs : List Char) : Nat :=
  cs.foldl (fun n c => n * 10 + (digit? c).getD 0) 0

theorem valueOf_digits (count n : Nat) : valueOf (digits count n) = n % 10 ^ count := by
  induction count generalizing n with
  | zero => simp [digits, valueOf, Nat.mod_one]
  | succ count ih =>
      have hdigit := digit?_ofNat (Nat.mod_lt n (by decide : 0 < 10))
      have hfront := ih (n / 10)
      rw [valueOf] at hfront
      rw [valueOf, digits, List.foldl_append, hfront]
      simp only [List.foldl_cons, List.foldl_nil, hdigit, Option.getD_some]
      rw [Nat.pow_succ', Nat.mod_mul]
      omega

theorem length_le_octetCount (cs : List Char) : cs.length ≤ Text.octetCount cs := by
  induction cs with
  | nil => exact Nat.le_refl 0
  | cons c cs ih =>
      have hpos := c.utf8Size_pos
      have hstep : Text.octetCount (c :: cs) = c.utf8Size + Text.octetCount cs := rfl
      rw [hstep, List.length_cons]
      omega

/-- A text that goes on with something other than a digit. -/
def NoDigitAhead (cs : List Char) : Prop :=
  ∀ c, cs.head? = some c → digit? c = none

theorem takeWhile_digits {ds rest : List Char} (hds : ∀ c ∈ ds, (digit? c).isSome = true)
    (hrest : NoDigitAhead rest) :
    (ds ++ rest).takeWhile (fun c => (digit? c).isSome) = ds := by
  rw [List.takeWhile_append_of_pos hds]
  cases rest with
  | nil => simp
  | cons c rest =>
      rw [List.takeWhile_cons_of_neg (by simp [hrest c rfl]), List.append_nil]

theorem dropWhile_digits {rest : List Char} (hrest : NoDigitAhead rest) :
    rest.dropWhile (fun c => (digit? c).isSome) = rest := by
  cases rest with
  | nil => rfl
  | cons c rest => rw [List.dropWhile_cons_of_neg (by simp [hrest c rfl])]

/-- A fixed number of digits is read, whatever follows. -/
theorem readNumber_digits {count n : Nat} (hn : n < 10 ^ count) (rest : List Char) :
    readNumber count count (digits count n ++ rest) = .ok (n, rest) := by
  have htake : (digits count n ++ rest).take count = digits count n :=
    List.take_left' (digits_length count n)
  have hall : (digits count n).takeWhile (fun c => (digit? c).isSome) = digits count n := by
    have hnil : NoDigitAhead [] := by simp [NoDigitAhead]
    have hwhile := takeWhile_digits (forall_mem_digits count n) hnil
    rwa [List.append_nil] at hwhile
  have hoctets := length_le_octetCount (digits count n ++ rest)
  rw [List.length_append, digits_length] at hoctets
  have hvalue := valueOf_digits count n
  rw [valueOf, Nat.mod_eq_of_lt hn] at hvalue
  rw [readNumber, htake]
  simp only [hall, digits_length]
  rw [if_neg (by omega), if_neg (by omega), hvalue, List.drop_left' (digits_length count n)]

theorem NoDigitAhead.take {rest : List Char} (h : NoDigitAhead rest) (n : Nat) :
    NoDigitAhead (rest.take n) := by
  intro c hc
  cases n with
  | zero => simp at hc
  | succ n =>
      cases rest with
      | nil => simp at hc
      | cons d rest => exact h c (by simpa using hc)

/-- Digits are read up to where they end, if they are neither too few nor too many. -/
theorem readNumber_append (min max : Nat) {ds rest : List Char}
    (hds : ∀ c ∈ ds, (digit? c).isSome = true) (hrest : NoDigitAhead rest) (hmin : min ≤ ds.length)
    (hmax : ds.length ≤ max) : readNumber min max (ds ++ rest) = .ok (valueOf ds, rest) := by
  -- so many characters are looked at, and some of them may stand behind the digits
  have htake : (ds ++ rest).take max = ds ++ rest.take (max - ds.length) := by
    rw [List.take_append, List.take_of_length_le hmax]
  have hwhile := takeWhile_digits hds (hrest.take (max - ds.length))
  have hoctets := length_le_octetCount (ds ++ rest)
  rw [List.length_append] at hoctets
  rw [readNumber, htake]
  simp only [hwhile]
  rw [if_neg (by omega), if_neg (by omega), List.drop_left' rfl]
  rfl

/-- The digits of a fraction are read up to where they end. -/
theorem readNano_digits {count n : Nat} (hn : n < 10 ^ count) (hpos : 0 < count)
    (hcount : count ≤ 9) {rest : List Char} (hrest : NoDigitAhead rest) :
    readNano (digits count n ++ rest) = .ok (n * Nat.pow 10 (9 - count), rest) := by
  have hread := readNumber_append 1 9 (forall_mem_digits count n) hrest
    (by rwa [digits_length]) (by rwa [digits_length])
  rw [valueOf_digits, Nat.mod_eq_of_lt hn] at hread
  have hused : (digits count n ++ rest).length - rest.length = count := by
    rw [List.length_append, digits_length]
    omega
  rw [readNano, hread]
  simp only [bind, Except.bind, hused, dropWhile_digits hrest]

/-- A fraction is read back, with as few digits as it was written. -/
theorem readFraction_fractionChars {nano : Nat} (hnano : nano < 1000000000) {rest : List Char}
    (hrest : NoDigitAhead rest) (hpoint : rest.head? ≠ some '.') :
    readFraction (fractionChars nano ++ rest) = .ok (nano, rest) := by
  unfold fractionChars
  split_ifs with hzero hmilli hmicro
  · subst hzero
    rw [List.nil_append, readFraction.eq_def]
    split
    · exact absurd rfl hpoint
    · rfl
  · have hread := @readNano_digits 3 (nano / 1000000) (by omega) (by decide) (by decide) rest hrest
    rw [List.cons_append, readFraction, hread]
    have hvalue : nano / 1000000 * Nat.pow 10 (9 - 3) = nano := Nat.div_mul_cancel
      (Nat.dvd_of_mod_eq_zero hmilli)
    rw [hvalue]
  · have hread := @readNano_digits 6 (nano / 1000) (by omega) (by decide) (by decide) rest hrest
    rw [List.cons_append, readFraction, hread]
    have hvalue : nano / 1000 * Nat.pow 10 (9 - 6) = nano := Nat.div_mul_cancel
      (Nat.dvd_of_mod_eq_zero hmicro)
    rw [hvalue]
  · have hread := @readNano_digits 9 nano (by omega) (by decide) (by decide) rest hrest
    rw [List.cons_append, readFraction, hread]
    have hvalue : nano * Nat.pow 10 (9 - 9) = nano := Nat.mul_one nano
    rw [hvalue]

/-! ## The whole text -/

theorem toUtc_zero {t : Instant} (hhour : t.hour ≤ 23) (hminute : t.minute ≤ 59) :
    toUtc t 0 = t := by
  have hshown : ((t.hour * 60 + t.minute : Nat) : Int).toNat / 60 = t.hour := by omega
  have hshown' : ((t.hour * 60 + t.minute : Nat) : Int).toNat % 60 = t.minute := by omega
  unfold toUtc
  simp only [Int.sub_zero]
  rw [if_neg (by omega), if_neg (by omega), hshown, hshown']

theorem daysIn_le (year : Int) (month : Nat) : daysIn year month ≤ 31 := by
  unfold daysIn
  split_ifs <;> decide

theorem lt_of_isDate {year : Int} {month day : Nat} (h : isDate year month day = true) :
    month < 10 ^ 2 ∧ day < 10 ^ 2 := by
  simp only [isDate, Bool.and_eq_true, decide_eq_true_eq] at h
  have hle := daysIn_le year month
  omega

theorem ofFields_zero {t : Instant} (ht : t.InRange) :
    ofFields t.year t.month t.day t.hour t.minute t.second t.nano 0 = .ok t := by
  obtain ⟨hdate, hhour, hminute, hsecond, -, hyear⟩ := ht
  have htime : ¬ (!isDate t.year t.month t.day || 23 < t.hour || 59 < t.minute || 60 < t.second) =
      true := by
    simp only [hdate, Bool.not_true, Bool.false_or, Bool.or_eq_true, decide_eq_true_eq]
    omega
  rw [ofFields, if_neg htime, if_neg (by omega), if_neg (by simp [hyear]),
    toUtc_zero hhour hminute]
  exact if_pos hyear

@[simp] theorem readChar_cons (c : Char) (rest : List Char) :
    readChar c (c :: rest) = .ok rest := by
  simp [readChar]

/-- A valid point in time is read from its text. -/
theorem parseStrict_toOffset {t : Instant} (ht : t.IsValid) : parseStrict t.toOffset = .ok t := by
  obtain ⟨year, hyear⟩ := Int.eq_ofNat_of_zero_le ht.year.1
  have hyear' : year < 10 ^ 4 := by
    have hlast := ht.year.2
    omega
  have hchars : t.toOffset.toList = digits 4 year ++ '-' :: (digits 2 t.month ++ '-' ::
      (digits 2 t.day ++ 'T' :: (digits 2 t.hour ++ ':' :: (digits 2 t.minute ++ ':' ::
        (digits 2 t.second ++ (fractionChars t.nano ++ "+00:00".toList)))))) := by
    rw [toOffset, String.toList_ofList, localChars, yearChars, if_pos ht.year, hyear]
    simp
  have hoctets : 19 ≤ Text.octetCount t.toOffset.toList := by
    refine Nat.le_trans ?_ (length_le_octetCount _)
    rw [hchars]
    simp only [List.length_append, List.length_cons, digits_length]
    omega
  obtain ⟨hmonth, hday⟩ := lt_of_isDate ht.date
  have hzone : NoDigitAhead "+00:00".toList := by
    intro c hc
    cases hc
    rfl
  have hfraction := readFraction_fractionChars ht.nano hzone (by decide)
  have htime : ¬ (23 < t.hour || 59 < t.minute || 60 < t.second) = true := by
    simp [ht.hour, ht.minute, ht.second]
  have hhour : t.hour < 10 ^ 2 := Nat.lt_of_le_of_lt ht.hour (by decide)
  have hminute : t.minute < 10 ^ 2 := Nat.lt_of_le_of_lt ht.minute (by decide)
  have hsecond : t.second < 10 ^ 2 := Nat.lt_of_le_of_lt ht.second (by decide)
  have hread : readZone (readChar ':') "+00:00".toList = .ok (0, []) := by decide
  have hdate : isDate (year : Int) t.month t.day = true := by
    rw [← hyear]
    exact ht.date
  have hfields := ofFields_zero ht.inRange
  rw [hyear] at hfields
  rw [parseStrict]
  simp only
  rw [if_neg (by omega), hchars]
  -- the reader checks the date before it goes on to the time
  simp only [bind, Except.bind, readNumber_digits hyear', readChar_cons, readNumber_digits hmonth,
    readNumber_digits hday, hdate]
  simp only [Bool.not_true, Bool.false_eq_true, if_false, beq_self_eq_true, Bool.true_or, if_true,
    readNumber_digits hhour, readNumber_digits hminute, readNumber_digits hsecond, readChar_cons,
    hfraction, if_neg htime, hread, hfields, List.isEmpty_nil]

end FossilRecord.Instant
