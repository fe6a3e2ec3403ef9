import FossilRecord.Proofs.Instant.Range
import FossilRecord.Proofs.Json.Number
import FossilRecord.Proofs.Text.Blank

/-!
# The lenient reader reads what is written

Every point in time in range is read from its form with the zone `Z`, also when its year has a sign
and more digits than four, or when its second is a leap second: `parseRelaxed_toZulu`.
-/

namespace FossilRecord.Instant

/-! ## Digits and blanks -/

theorem digit?_of_isDigit {c : Char} (hc : c.isDigit = true) : digit? c = some (c.toNat - 48) :=
  Json.digit?_of_isDigit hc

theorem isBlank_of_digit? {c : Char} (hc : (digit? c).isSome = true) : Text.isBlank c = false := by
  rw [digit?] at hc
  split at hc
  · rename_i hrange
    have hlow : 48 ≤ c.toNat := UInt32.le_iff_toNat_le.mp hrange.1
    have hhigh : c.toNat ≤ 57 := UInt32.le_iff_toNat_le.mp hrange.2
    simp only [Text.isBlank, Bool.or_eq_false_iff, Bool.and_eq_false_iff, decide_eq_false_iff_not,
      beq_eq_false_iff_ne]
    omega
  · cases hc

/-- Characters of which there are some, all of them digits. -/
structure AreDigits (ds : List Char) : Prop where
  nonempty : ds ≠ []
  digits : ∀ c ∈ ds, (digit? c).isSome = true

theorem areDigits_digits {count : Nat} (hcount : 0 < count) (n : Nat) :
    AreDigits (digits count n) where
  nonempty := by
    intro hnil
    have hlength := digits_length count n
    rw [hnil] at hlength
    exact absurd hlength (Nat.ne_of_lt hcount)
  digits := forall_mem_digits count n

theorem AreDigits.dropBlanks {ds : List Char} (h : AreDigits ds) (rest : List Char) :
    Text.dropBlanks (ds ++ rest) = ds ++ rest := by
  cases ds with
  | nil => exact absurd rfl h.nonempty
  | cons c ds => exact Text.dropBlanks_cons (isBlank_of_digit? (h.digits c (by simp))) (ds ++ rest)

theorem noDigitAhead_cons {c : Char} (hc : digit? c = none) (rest : List Char) :
    NoDigitAhead (c :: rest) := by
  intro d hd
  cases hd
  exact hc

/-- Two digits are read as a field that is followed by something other than a digit. -/
theorem readField_digits {n : Nat} (hn : n < 10 ^ 2) {rest : List Char}
    (hrest : NoDigitAhead rest) : readField 2 (digits 2 n ++ rest) = .ok (n, rest) := by
  have hread := readNumber_append 1 _ (forall_mem_digits 2 n) hrest (by simp)
    (digits_length 2 n).le
  rw [valueOf_digits, Nat.mod_eq_of_lt hn] at hread
  rw [readField, (areDigits_digits (by decide) n).dropBlanks, hread]

/-! ## Years -/

theorem valueOf_eq_ofDigitChars {ds : List Char} (hds : ∀ c ∈ ds, c.isDigit = true) :
    valueOf ds = Nat.ofDigitChars 10 ds 0 := by
  induction ds using List.reverseRecOn with
  | nil => rfl
  | append_singleton ds c ih =>
      have hc := digit?_of_isDigit (hds c (by simp))
      rw [valueOf_snoc, ih fun d hd => hds d (by simp [hd]), hc, Nat.ofDigitChars_append,
        Nat.ofDigitChars_cons, Nat.ofDigitChars_nil, Nat.mul_comm]
      rfl

/-- The digits of a year that has a sign. -/
def longYear (n : Nat) : List Char :=
  List.replicate (4 - (Nat.toDigits 10 n).length) '0' ++ Nat.toDigits 10 n

theorem isDigit_of_mem_longYear {n : Nat} {c : Char} (hc : c ∈ longYear n) : c.isDigit = true := by
  rw [longYear, List.mem_append] at hc
  rcases hc with hzero | hdigit
  · rw [List.eq_of_mem_replicate hzero]
    rfl
  · exact Nat.isDigit_of_mem_toDigits (by decide) (by decide) hdigit

theorem valueOf_longYear (n : Nat) : valueOf (longYear n) = n := by
  rw [valueOf_eq_ofDigitChars fun c hc => isDigit_of_mem_longYear hc, longYear,
    Nat.ofDigitChars_append, Nat.ofDigitChars_replicate_zero, Nat.mul_zero,
    Nat.ofDigitChars_toDigits (by decide) (by decide)]

theorem length_longYear_pos (n : Nat) : 0 < (longYear n).length := by
  have hpos : 0 < (Nat.toDigits 10 n).length := Nat.length_toDigits_pos
  rw [longYear, List.length_append]
  omega

theorem readNumber_longYear (n : Nat) {rest : List Char} (hrest : NoDigitAhead rest) :
    readNumber 1 (longYear n ++ rest).length (longYear n ++ rest) = .ok (n, rest) := by
  have hdigits : ∀ c ∈ longYear n, (digit? c).isSome = true := fun c hc => by
    rw [digit?_of_isDigit (isDigit_of_mem_longYear hc)]
    rfl
  have hread := readNumber_append 1 (longYear n ++ rest).length hdigits hrest
    (length_longYear_pos n) (by simp)
  rwa [valueOf_longYear] at hread

/-- A year is read back, with or without a sign. -/
theorem readYear_yearChars (year : Int) {rest : List Char} (hrest : NoDigitAhead rest) :
    readYear (yearChars year ++ rest) = .ok (year, rest) := by
  rw [yearChars]
  split_ifs with hplain hnegative
  · have hread := readNumber_append 1 _ (forall_mem_digits 4 year.toNat) hrest (by simp)
      (digits_length 4 year.toNat).le
    rw [valueOf_digits, Nat.mod_eq_of_lt (by omega)] at hread
    rw [readYear.eq_def, (areDigits_digits (by decide) year.toNat).dropBlanks]
    -- the first of the digits is no sign
    obtain ⟨d, ds, hcons⟩ := List.exists_cons_of_ne_nil
      (areDigits_digits (by decide : 0 < 4) year.toNat).nonempty
    have hd := forall_mem_digits 4 year.toNat d (by rw [hcons]; simp)
    rw [hcons, List.cons_append] at hread ⊢
    split
    · rename_i heq
      cases heq
      exact absurd hd (by decide)
    · rename_i heq
      cases heq
      exact absurd hd (by decide)
    · have hyear : ((year.toNat : Nat) : Int) = year := Int.toNat_of_nonneg hplain.1
      simp only [hread, Except.map, hyear]
  · have hread := readNumber_longYear year.natAbs hrest
    have hyear : -((year.natAbs : Nat) : Int) = year := by omega
    have hblanks : Text.dropBlanks ('-' :: (longYear year.natAbs ++ rest)) =
        '-' :: (longYear year.natAbs ++ rest) := Text.dropBlanks_cons (by decide) _
    rw [longYear] at hread hblanks
    simp only [List.cons_append]
    rw [readYear.eq_def, hblanks]
    simp only [hread, Except.map, hyear]
  · have hread := readNumber_longYear year.natAbs hrest
    have hyear : ((year.natAbs : Nat) : Int) = year := by omega
    have hblanks : Text.dropBlanks ('+' :: (longYear year.natAbs ++ rest)) =
        '+' :: (longYear year.natAbs ++ rest) := Text.dropBlanks_cons (by decide) _
    rw [longYear] at hread hblanks
    simp only [List.cons_append]
    rw [readYear.eq_def, hblanks]
    simp only [hread, Except.map, hyear]

/-! ## The whole text -/

/-- The lenient reader takes the text that is written in JSON documents. -/
theorem parseRelaxed_toZulu {t : Instant} (ht : t.InRange) : parseRelaxed t.toZulu = .ok t := by
  have hchars : t.toZulu.toList = yearChars t.year ++ '-' :: (digits 2 t.month ++ '-' ::
      (digits 2 t.day ++ 'T' :: (digits 2 t.hour ++ ':' :: (digits 2 t.minute ++ ':' ::
        (digits 2 t.second ++ (fractionChars t.nano ++ ['Z'])))))) := by
    rw [toZulu, String.toList_ofList, localChars]
    simp
  obtain ⟨hmonth, hday⟩ := lt_of_isDate ht.date
  have hdate := ht.date
  simp only [isDate, Bool.and_eq_true, decide_eq_true_eq] at hdate
  have hdays := daysIn_le t.year t.month
  have hhour : t.hour < 10 ^ 2 := Nat.lt_of_le_of_lt ht.hour (by decide)
  have hminute : t.minute < 10 ^ 2 := Nat.lt_of_le_of_lt ht.minute (by decide)
  have hsecond : t.second < 10 ^ 2 := Nat.lt_of_le_of_lt ht.second (by decide)
  have hzone : NoDigitAhead ['Z'] := noDigitAhead_cons (by decide) []
  have hfraction := readFraction_fractionChars ht.nano hzone (by decide)
  have hbehind : NoDigitAhead (fractionChars t.nano ++ ['Z']) := by
    unfold fractionChars
    split_ifs
    · exact hzone
    all_goals exact noDigitAhead_cons (by decide) _
  have hhyphen : ∀ rest, Text.dropBlanks ('-' :: rest) = '-' :: rest :=
    Text.dropBlanks_cons (by decide)
  have hcolon : ∀ rest, Text.dropBlanks (':' :: rest) = ':' :: rest :=
    Text.dropBlanks_cons (by decide)
  rw [parseRelaxed, hchars, readYear_yearChars t.year (noDigitAhead_cons (by decide) _)]
  simp only [bind, Except.bind, hhyphen, readChar_cons,
    readField_digits hmonth (noDigitAhead_cons (c := '-') (by decide) _)]
  rw [if_neg (by omega)]
  simp only [readField_digits hday (noDigitAhead_cons (c := 'T') (by decide) _)]
  rw [if_neg (by omega)]
  simp only [beq_self_eq_true, Bool.true_or, if_true, hcolon, readChar_cons,
    readField_digits hhour (noDigitAhead_cons (c := ':') (by decide) _)]
  rw [if_neg (Nat.not_lt.mpr ht.hour)]
  simp only [hcolon, readChar_cons,
    readField_digits hminute (noDigitAhead_cons (c := ':') (by decide) _)]
  rw [if_neg (Nat.not_lt.mpr ht.minute)]
  simp only [readField_digits hsecond hbehind]
  rw [if_neg (Nat.not_lt.mpr ht.second)]
  simp only [hfraction]
  exact ofFields_zero ht

/-- A leap second in another zone, with other letters and spaces. -/
example : (parseRelaxed "2024-2-29t 23:30:60.50 +00:30").toOption.map toZulu =
    some "2024-02-29T23:00:60.500Z" := by decide +kernel

end FossilRecord.Instant
