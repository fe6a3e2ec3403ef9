import FossilRecord.Proofs.Instant.Order
import FossilRecord.Proofs.Text.ByteOrder
import FossilRecord.Store.Cell
import Mathlib.Tactic.IntervalCases

/-!
# The time line

A point in time is so many nanoseconds from the first moment of 1970, counted by days and the time
of day (`unixNanos`), and that is what the clock counts (`unixNanos_ofUnix`).  Among points in time
that are in no leap second, the parts of a date and of the time of day decide about the place on the
time line one after the other, as they do about the text that is stored (`stored_in_time_order`).
-/

namespace FossilRecord.Instant

/-! ## Days -/

/-- The number of days of a year. -/
def yearLength (year : Int) : Nat :=
  if isLeapYear year then 366 else 365

/-- The number of days from 1 January of year 0 to 1 January of a year: 365 of every year, and one
more of every leap year. -/
def daysBeforeYear (year : Int) : Int :=
  365 * year + (year + 3) / 4 - (year + 99) / 100 + (year + 399) / 400

/-- The number of days of the months of a year before one of them. -/
def daysBeforeMonth (year : Int) (month : Nat) : Nat :=
  ((List.range' 1 (month - 1)).map (daysIn year)).sum

/-- The number of days from 1 January 1970 to a date. -/
def dayNumber (year : Int) (month day : Nat) : Int :=
  daysBeforeYear year + daysBeforeMonth year month + day - 719529

/-- The number of nanoseconds from the first moment of 1970 to a point in time. -/
def unixNanos (t : Instant) : Int :=
  (dayNumber t.year t.month t.day * 86400 + t.hour * 3600 + t.minute * 60 + t.second) * 1000000000 +
    t.nano

theorem daysBeforeYear_succ (year : Int) :
    daysBeforeYear (year + 1) = daysBeforeYear year + yearLength year := by
  unfold daysBeforeYear yearLength
  split
  all_goals
    rename_i hleap
    simp only [isLeapYear, Bool.and_eq_true, Bool.or_eq_true, beq_iff_eq, bne_iff_ne] at hleap
    omega

theorem daysBeforeYear_mono {y z : Int} (h : y ≤ z) : daysBeforeYear y ≤ daysBeforeYear z := by
  unfold daysBeforeYear
  omega

theorem daysBeforeMonth_succ (year : Int) {month : Nat} (h : 1 ≤ month) :
    daysBeforeMonth year (month + 1) = daysBeforeMonth year month + daysIn year month := by
  obtain ⟨m, rfl⟩ := Nat.exists_eq_add_of_le h
  simp [daysBeforeMonth, Nat.add_comm, List.range'_concat]

theorem daysBeforeMonth_mono (year : Int) {m n : Nat} (hm : 1 ≤ m) (h : m ≤ n) :
    daysBeforeMonth year m ≤ daysBeforeMonth year n := by
  induction n, h using Nat.le_induction with
  | base => exact le_refl _
  | succ n hn ih =>
      rw [daysBeforeMonth_succ year (hm.trans hn)]
      exact ih.trans (Nat.le_add_right _ _)

theorem daysBeforeMonth_thirteen (year : Int) : daysBeforeMonth year 13 = yearLength year := by
  unfold yearLength daysBeforeMonth daysIn
  split <;> simp [*, List.range']

section

variable {year year' : Int} {month month' day day' : Nat}

/-- No date is beyond the month before the next one. -/
theorem daysBeforeMonth_add_day_le (h : isDate year month day = true) :
    daysBeforeMonth year month + day ≤ daysBeforeMonth year (month + 1) := by
  simp only [isDate, Bool.and_eq_true, decide_eq_true_eq] at h
  rw [daysBeforeMonth_succ year h.1.1.1]
  exact Nat.add_le_add_left h.2 _

/-- The earlier of two dates has the smaller number: the year decides, then the month, then the
day. -/
theorem dayNumber_lt (h : isDate year month day = true) (h' : isDate year' month' day' = true)
    (hlt : year < year' ∨ year = year' ∧ (month < month' ∨ month = month' ∧ day < day')) :
    dayNumber year month day < dayNumber year' month' day' := by
  have hend := daysBeforeMonth_add_day_le h
  simp only [isDate, Bool.and_eq_true, decide_eq_true_eq] at h h'
  unfold dayNumber
  rcases hlt with hyear | ⟨rfl, hmonth | ⟨rfl, hday⟩⟩
  · have hlast := daysBeforeMonth_mono year (by omega) (show month + 1 ≤ 13 by omega)
    rw [daysBeforeMonth_thirteen] at hlast
    have hnext := daysBeforeYear_mono (show year + 1 ≤ year' by omega)
    rw [daysBeforeYear_succ] at hnext
    omega
  · have hnext := daysBeforeMonth_mono year (by omega) (show month + 1 ≤ month' by omega)
    omega
  · omega

end

/-! ## From the clock -/

/-- The year, within 400 years, to which a day of them belongs. -/
theorem yearOfEra_bounds {dayOfEra yearOfEra : Nat} (h : dayOfEra < 146097)
    (hyear : yearOfEra =
      (dayOfEra - dayOfEra / 1460 + dayOfEra / 36524 - dayOfEra / 146096) / 365) :
    yearOfEra ≤ 399 ∧ 365 * yearOfEra + yearOfEra / 4 - yearOfEra / 100 ≤ dayOfEra ∧
      dayOfEra ≤ 365 * yearOfEra + yearOfEra / 4 - yearOfEra / 100 + 365 := by
  rcases Nat.lt_or_ge dayOfEra 146096 with hlt | hlast
  · have hera : dayOfEra / 146096 = 0 := Nat.div_eq_of_lt hlt
    rw [hera] at hyear
    have hcenturies : dayOfEra / 36524 ≤ 3 := by omega
    -- in each of the four centuries the divisions by 1460 are off by a known number
    have hcentury : yearOfEra / 100 = dayOfEra / 36524 := by
      generalize hcentury : dayOfEra / 36524 = century at *
      interval_cases century <;> omega
    have hlow : yearOfEra / 4 ≤ dayOfEra / 1460 := by
      generalize hdays : dayOfEra / 36524 = century at *
      interval_cases century <;> omega
    have hhigh : dayOfEra / 1460 ≤ yearOfEra / 4 + 1 := by omega
    omega
  · obtain rfl : dayOfEra = 146096 := by omega
    subst hyear
    decide

/-- Counted from 1 March, the months of a year begin at fifths of 153 days: those up to December, -/
theorem daysBeforeMonth_from_march (year : Int) {mp : Nat} (h : mp < 10) :
    daysBeforeMonth year (mp + 3) = 31 + daysIn year 2 + (153 * mp + 2) / 5 := by
  generalize hdays : daysIn year 2 = february
  interval_cases mp <;> simp [daysBeforeMonth, List.range', hdays] <;> simp [daysIn] <;> omega

/-- and January and February of the year after. -/
theorem daysBeforeMonth_after_december (year : Int) {mp : Nat} (hlow : 10 ≤ mp) (hhigh : mp < 12) :
    daysBeforeMonth year (mp - 9) + 306 = (153 * mp + 2) / 5 := by
  interval_cases mp <;> rfl

/-- The days before 1 March are those of the years before and of two months. -/
theorem daysBeforeYear_succ_march (year : Int) :
    daysBeforeYear (year + 1) = daysBeforeYear year + daysIn year 2 + 337 := by
  rw [daysBeforeYear_succ, yearLength]
  by_cases hleap : isLeapYear year = true <;> simp [daysIn, hleap] <;> omega

/-- After 400 years the leap years come again. -/
theorem daysBeforeYear_add_era (year era : Int) :
    daysBeforeYear (year + era * 400) = daysBeforeYear year + era * 146097 := by
  have hfour : (year + era * 400 + 3) / 4 = (year + 3) / 4 + era * 100 := by omega
  have hcentury : (year + era * 400 + 99) / 100 = (year + 99) / 100 + era * 4 := by omega
  have hera : (year + era * 400 + 399) / 400 = (year + 399) / 400 + era := by omega
  unfold daysBeforeYear
  omega

/-- The date of a day has the number of the day. -/
theorem dayNumber_ofDays (days : Int) :
    dayNumber (ofDays days).1 (ofDays days).2.1 (ofDays days).2.2 = days := by
  have hera : ((days + 719468) % 146097).toNat < 146097 := by omega
  obtain ⟨hlast, hlow, hhigh⟩ := yearOfEra_bounds hera rfl
  unfold ofDays
  simp only
  generalize hday : ((days + 719468) % 146097).toNat = dayOfEra at *
  generalize (dayOfEra - dayOfEra / 1460 + dayOfEra / 36524 - dayOfEra / 146096) / 365 =
    yearOfEra at *
  -- what is left of the day is a day of a year that begins on 1 March
  have hyear : daysBeforeYear ((yearOfEra : Int) + (days + 719468) / 146097 * 400 + 1) =
      (365 * yearOfEra + yearOfEra / 4 - yearOfEra / 100 : Nat) + 366 +
        (days + 719468) / 146097 * 146097 := by
    have hfour : ((yearOfEra : Int) + 1 + 3) / 4 = yearOfEra / 4 + 1 := by omega
    have hcentury : ((yearOfEra : Int) + 1 + 99) / 100 = yearOfEra / 100 + 1 := by omega
    have hera : ((yearOfEra : Int) + 1 + 399) / 400 = 1 := by omega
    rw [add_right_comm, daysBeforeYear_add_era, daysBeforeYear, hfour, hcentury, hera]
    omega
  generalize hstart : 365 * yearOfEra + yearOfEra / 4 - yearOfEra / 100 = start at *
  generalize hshown : (yearOfEra : Int) + (days + 719468) / 146097 * 400 = year at *
  have hdiv : 5 * ((153 * ((5 * (dayOfEra - start) + 2) / 153) + 2) / 5) ≤
      5 * (dayOfEra - start) := by
    omega
  have hmp : (5 * (dayOfEra - start) + 2) / 153 < 12 := by omega
  generalize (5 * (dayOfEra - start) + 2) / 153 = mp at *
  by_cases hmonth : mp < 10
  · have hbefore := daysBeforeMonth_from_march year hmonth
    have hnext := daysBeforeYear_succ_march year
    simp only [hmonth, if_true, dayNumber]
    rw [if_neg (by omega)]
    omega
  · have hbefore := daysBeforeMonth_after_december (year + 1) (by omega) hmp
    simp only [hmonth, if_false, dayNumber]
    rw [if_pos (by omega)]
    omega

/-- A point in time is where the clock that shows it has counted to. -/
theorem unixNanos_ofUnix (seconds : Int) (nano : Nat) :
    (ofUnix seconds nano).unixNanos = seconds * 1000000000 + nano := by
  have hday := dayNumber_ofDays (seconds / 86400)
  unfold ofUnix unixNanos
  simp only [hday]
  omega

/-! ## The order of time -/

section

variable {a b : Instant}

/-- The earlier of two points in time has counted less, if it is not in a leap second. -/
theorem unixNanos_lt (ha : a.IsValid) (hb : b.IsValid) (hleap : a.second ≠ 60)
    (h : a.parts < b.parts) : a.unixNanos < b.unixNanos := by
  simp only [parts, List.cons_lt_cons_iff, List.lt_irrefl, and_false, or_false, Int.ofNat_lt,
    Int.ofNat_inj] at h
  -- the parts of a date decide first, and then those of the time of day
  have hdays : dayNumber a.year a.month a.day < dayNumber b.year b.month b.day ∨
      dayNumber a.year a.month a.day = dayNumber b.year b.month b.day ∧
        (a.hour < b.hour ∨ a.hour = b.hour ∧ (a.minute < b.minute ∨ a.minute = b.minute ∧
          (a.second < b.second ∨ a.second = b.second ∧ a.nano < b.nano))) := by
    rcases h with hyear | ⟨hyear, hmonth | ⟨hmonth, hday | ⟨hday, htime⟩⟩⟩
    · exact .inl (dayNumber_lt ha.date hb.date (.inl hyear))
    · exact .inl (dayNumber_lt ha.date hb.date (.inr ⟨hyear, .inl hmonth⟩))
    · exact .inl (dayNumber_lt ha.date hb.date (.inr ⟨hyear, .inr ⟨hmonth, hday⟩⟩))
    · exact .inr ⟨by rw [hyear, hmonth, hday], htime⟩
  obtain ⟨-, hhour, hminute, hsecond, hnano, -⟩ := ha
  unfold unixNanos
  omega

/-- The texts of two points in time compare as the points do on the time line. -/
theorem toOffset_lt_iff (ha : a.IsValid) (hb : b.IsValid) (haLeap : a.second ≠ 60)
    (hbLeap : b.second ≠ 60) : a.toOffset < b.toOffset ↔ a.unixNanos < b.unixNanos := by
  rcases lt_trichotomy a.parts b.parts with hlt | heq | hgt
  · exact iff_of_true (toOffset_lt ha hb hlt) (unixNanos_lt ha hb haLeap hlt)
  · rw [parts_injective heq]
    exact iff_of_false (lt_irrefl _) (lt_irrefl _)
  · exact iff_of_false (toOffset_lt hb ha hgt).not_gt (unixNanos_lt hb ha hbLeap hgt).not_gt

/-- Points in time of the years 0 to 9999 that are in no leap second are stored in the order of
time: the octets of their texts compare as the points do on the time line, and so the store puts
them in order.  Each of them is read back as it was.  The time line is that of the clock. -/
theorem stored_in_time_order (ha : a.IsValid) (hb : b.IsValid) (haLeap : a.second ≠ 60)
    (hbLeap : b.second ≠ 60) :
    (Text.octets a.toOffset < Text.octets b.toOffset ↔ a.unixNanos < b.unixNanos) ∧
      ((Store.Cell.instant a).le (Store.Cell.instant b) = true ↔ a.unixNanos ≤ b.unixNanos) ∧
      Store.readInstant a.toOffset = .ok a ∧
      ∀ seconds nano, a = ofUnix seconds nano → a.unixNanos = seconds * 1000000000 + nano := by
  have hback := toOffset_lt_iff hb ha hbLeap haLeap
  refine ⟨Text.octets_lt_octets.trans (toOffset_lt_iff ha hb haLeap hbLeap), ?_, ?_, ?_⟩
  · rw [Store.Cell.instant, Store.Cell.instant, Store.Cell.le, decide_eq_true_eq, ← not_lt, hback,
      not_lt]
  · rw [Store.readInstant, parseStrict_toOffset ha]
  · rintro seconds nano rfl
    exact unixNanos_ofUnix seconds nano

end

/-- Three points in time of one second, written without a fraction, with three digits of it and with
nine. -/
theorem stored_in_time_order_fractions :
    let whole : Instant := ⟨2024, 2, 29, 23, 59, 59, 0⟩
    let tenth : Instant := ⟨2024, 2, 29, 23, 59, 59, 100000000⟩
    let later : Instant := ⟨2024, 2, 29, 23, 59, 59, 100000001⟩
    Text.octets whole.toOffset < Text.octets tenth.toOffset ∧
      Text.octets tenth.toOffset < Text.octets later.toOffset ∧
      later.toOffset = "2024-02-29T23:59:59.100000001+00:00" ∧
      Store.readInstant tenth.toOffset = .ok tenth ∧
      tenth.unixNanos = 1709251199100000000 := by
  intro whole tenth later
  have hwhole : whole.IsValid := by decide
  have htenth : tenth.IsValid := by decide
  have hlater : later.IsValid := by decide
  obtain ⟨hfirst, -, -, -⟩ := stored_in_time_order hwhole htenth (by decide) (by decide)
  obtain ⟨hsecond, -, hread, hclock⟩ :=
    stored_in_time_order htenth hlater (by decide) (by decide)
  exact ⟨hfirst.mpr (by decide), hsecond.mpr (by decide), by decide, hread,
    hclock 1709251199 100000000 (by decide)⟩

end FossilRecord.Instant
