import FossilRecord.Proofs.Except
import FossilRecord.Proofs.Instant
import Mathlib.Data.List.Induction

/-!
# What the lenient reader of points in time gives

Whatever text the reader takes, the point in time that it gives is one that a clock can show, in a
year that an instant can have (`inRange_of_parseRelaxed`).
-/

namespace FossilRecord.Instant

/-! ## Fractions -/

theorem digit?_le {c : Char} {d : Nat} (h : digit? c = some d) : d ≤ 9 := by
  rw [digit?] at h
  split at h
  · rename_i hrange
    cases h
    have hlast : c.toNat ≤ 57 := UInt32.le_iff_toNat_le.mp hrange.2
    omega
  · cases h

theorem valueOf_snoc (cs : List Char) (c : Char) :
    valueOf (cs ++ [c]) = valueOf cs * 10 + (digit? c).getD 0 := by
  rw [valueOf, List.foldl_append]
  rfl

/-- So many digits write a number below that power of ten. -/
theorem valueOf_lt (cs : List Char) : valueOf cs < 10 ^ cs.length := by
  induction cs using List.reverseRecOn with
  | nil => simp [valueOf]
  | append_singleton cs c ih =>
      have hlast : (digit? c).getD 0 ≤ 9 := by
        cases hc : digit? c with
        | none => simp
        | some d => simpa using digit?_le hc
      rw [valueOf_snoc, List.length_append, List.length_singleton, Nat.pow_succ]
      omega

theorem lt_of_readNumber {min max : Nat} {cs rest : List Char} {n : Nat}
    (h : readNumber min max cs = .ok (n, rest)) :
    cs.length - rest.length ≤ max ∧ n < 10 ^ (cs.length - rest.length) := by
  rw [readNumber] at h
  split_ifs at h
  cases h
  set front := (cs.take max).takeWhile fun c => (digit? c).isSome
  have hfront : front.length ≤ (cs.take max).length := (List.takeWhile_sublist _).length_le
  rw [List.length_take] at hfront
  have hread : cs.length - (cs.drop front.length).length = front.length := by
    rw [List.length_drop]
    omega
  rw [hread]
  exact ⟨by omega, valueOf_lt front⟩

theorem lt_of_readNano {cs rest : List Char} {nano : Nat} (h : readNano cs = .ok (nano, rest)) :
    nano < 1000000000 := by
  rw [readNano] at h
  obtain ⟨⟨n, rest'⟩, hnumber, h⟩ := bind_eq_ok h
  cases h
  obtain ⟨hplaces, hlt⟩ := lt_of_readNumber hnumber
  generalize cs.length - rest'.length = places at hplaces hlt
  calc n * Nat.pow 10 (9 - places) < 10 ^ places * 10 ^ (9 - places) :=
        Nat.mul_lt_mul_of_pos_right hlt (Nat.pow_pos (by decide))
    _ = 10 ^ 9 := by rw [← Nat.pow_add, Nat.add_sub_cancel' hplaces]

theorem lt_of_readFraction {cs rest : List Char} {nano : Nat}
    (h : readFraction cs = .ok (nano, rest)) : nano < 1000000000 := by
  rw [readFraction.eq_def] at h
  split at h
  · exact lt_of_readNano h
  · cases h
    decide

/-! ## Dates in UTC -/

theorem one_le_daysIn (year : Int) (month : Nat) : 1 ≤ daysIn year month := by
  unfold daysIn
  split_ifs <;> decide

/-- The day after a date is a date. -/
theorem isDate_nextDay {t : Instant} (h : isDate t.year t.month t.day = true) :
    isDate (nextDay t).year (nextDay t).month (nextDay t).day = true := by
  simp only [isDate, Bool.and_eq_true, decide_eq_true_eq] at h ⊢
  unfold nextDay
  split_ifs with hday hmonth
  · simp only
    omega
  · have hfirst := one_le_daysIn t.year (t.month + 1)
    simp only
    omega
  · have hfirst := one_le_daysIn (t.year + 1) 1
    simp only
    omega

/-- The day before a date is a date. -/
theorem isDate_previousDay {t : Instant} (h : isDate t.year t.month t.day = true) :
    isDate (previousDay t).year (previousDay t).month (previousDay t).day = true := by
  simp only [isDate, Bool.and_eq_true, decide_eq_true_eq] at h ⊢
  unfold previousDay
  split_ifs with hday hmonth
  · simp only
    omega
  · have hfirst := one_le_daysIn t.year (t.month - 1)
    simp only
    omega
  · have hlast : daysIn (t.year - 1) 12 = 31 := rfl
    simp only
    omega

@[simp] theorem nextDay_second (t : Instant) : (nextDay t).second = t.second := by
  unfold nextDay
  split_ifs <;> rfl

@[simp] theorem nextDay_nano (t : Instant) : (nextDay t).nano = t.nano := by
  unfold nextDay
  split_ifs <;> rfl

@[simp] theorem previousDay_second (t : Instant) : (previousDay t).second = t.second := by
  unfold previousDay
  split_ifs <;> rfl

@[simp] theorem previousDay_nano (t : Instant) : (previousDay t).nano = t.nano := by
  unfold previousDay
  split_ifs <;> rfl

/-- The time in UTC of what a clock less than a day off shows is one that a clock can show. -/
theorem inRange_toUtc {t : Instant} (hdate : isDate t.year t.month t.day = true)
    (hhour : t.hour ≤ 23) (hminute : t.minute ≤ 59) (hsecond : t.second ≤ 60)
    (hnano : t.nano < 1000000000) {offset : Int} (hoffset : -1440 < offset ∧ offset < 1440)
    (hyear : isYear (toUtc t offset).year = true) : (toUtc t offset).InRange := by
  unfold toUtc at hyear ⊢
  simp only at hyear ⊢
  split_ifs at hyear ⊢
  · exact
      { date := isDate_previousDay hdate
        hour := by simp only; omega
        minute := by simp only; omega
        second := by simpa using hsecond
        nano := by simpa using hnano
        year := hyear }
  · exact
      { date := isDate_nextDay hdate
        hour := by simp only; omega
        minute := by simp only; omega
        second := by simpa using hsecond
        nano := by simpa using hnano
        year := hyear }
  · exact
      { date := hdate
        hour := by simp only; omega
        minute := by simp only; omega
        second := hsecond
        nano := hnano
        year := hyear }

theorem inRange_of_ofFields {year : Int} {month day hour minute second nano : Nat} {offset : Int}
    {t : Instant} (hnano : nano < 1000000000)
    (h : ofFields year month day hour minute second nano offset = .ok t) : t.InRange := by
  rw [ofFields] at h
  split at h
  · cases h
  rename_i hfields
  split at h
  · cases h
  rename_i hoffset
  split at h
  · cases h
  simp only at h
  split at h
  · cases h
    rename_i hyear
    simp only [Bool.or_eq_true, Bool.not_eq_true', decide_eq_true_eq, not_or,
      Bool.not_eq_false] at hfields
    obtain ⟨⟨⟨hdate, hhour⟩, hminute⟩, hsecond⟩ := hfields
    exact inRange_toUtc hdate (by simp only; omega) (by simp only; omega) (by simp only; omega)
      hnano (by omega) hyear
  · cases h

/-! ## The reader -/

theorem inRange_of_parseRelaxed {s : String} {t : Instant} (h : parseRelaxed s = .ok t) :
    t.InRange := by
  rw [parseRelaxed] at h
  obtain ⟨⟨year, cs⟩, -, h⟩ := bind_eq_ok h
  obtain ⟨cs, -, h⟩ := bind_eq_ok h
  obtain ⟨⟨month, cs⟩, -, h⟩ := bind_eq_ok h
  simp only at h
  split at h
  · cases h
  · obtain ⟨cs, -, h⟩ := bind_eq_ok h
    obtain ⟨⟨day, cs⟩, -, h⟩ := bind_eq_ok h
    simp only at h
    split at h
    · cases h
    · split at h
      · cases h
      · split at h
        · obtain ⟨⟨hour, cs⟩, -, h⟩ := bind_eq_ok h
          simp only at h
          split at h
          · cases h
          · obtain ⟨cs, -, h⟩ := bind_eq_ok h
            obtain ⟨⟨minute, cs⟩, -, h⟩ := bind_eq_ok h
            simp only at h
            split at h
            · cases h
            · obtain ⟨cs, -, h⟩ := bind_eq_ok h
              obtain ⟨⟨second, cs⟩, -, h⟩ := bind_eq_ok h
              simp only at h
              split at h
              · cases h
              · obtain ⟨⟨nano, cs⟩, hfraction, h⟩ := bind_eq_ok h
                have hnano := lt_of_readFraction hfraction
                simp only at h
                -- the zone is a word or an offset, and the fields are put together alike
                split at h
                all_goals
                  obtain ⟨⟨offset, cs⟩, -, h⟩ := bind_eq_ok h
                  simp only at h
                  split at h
                  · cases h
                  · exact inRange_of_ofFields hnano h
        · cases h

end FossilRecord.Instant
