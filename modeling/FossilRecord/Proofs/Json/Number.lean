import FossilRecord.Json.Printer
import FossilRecord.Json.Reader
import Mathlib.Algebra.Group.Int.Defs
import Mathlib.Algebra.Group.Nat.Defs
import Mathlib.Tactic.Common

/-!
# Whole numbers read back

The decimal digits of a whole number are read as that number, if it fits 64 bits with or without a
sign, and reading stops where the digits do.
-/

namespace FossilRecord.Json

/-! ## Decimal digits -/

/-- Characters all of which are decimal digits. -/
def AllDigits (cs : List Char) : Prop :=
  ∀ c ∈ cs, c.isDigit = true

/-- A text that goes on with something other than a digit, if it goes on. -/
def NoDigitAhead (cs : List Char) : Prop :=
  ∀ c, cs.head? = some c → digit? c = none

/-- A text at whose front a whole number can end. -/
structure EndsNumber (cs : List Char) : Prop where
  noDigit : NoDigitAhead cs
  noMark : ∀ c, cs.head? = some c → c ≠ '.' ∧ c ≠ 'e' ∧ c ≠ 'E'

theorem endsNumber_nil : EndsNumber [] := ⟨by simp [NoDigitAhead], by simp⟩

theorem endsNumber_cons {c : Char} (hdigit : digit? c = none)
    (hmark : c ≠ '.' ∧ c ≠ 'e' ∧ c ≠ 'E') (cs : List Char) : EndsNumber (c :: cs) where
  noDigit := by
    intro d hd
    cases hd
    exact hdigit
  noMark := by
    intro d hd
    cases hd
    exact hmark

theorem digit?_of_isDigit {c : Char} (hc : c.isDigit = true) : digit? c = some (c.toNat - 48) := by
  rw [Char.isDigit_iff_toNat] at hc
  rw [digit?, if_pos]
  exact ⟨by rw [Char.le_def, UInt32.le_iff_toNat_le]; exact hc.1,
    by rw [Char.le_def, UInt32.le_iff_toNat_le]; exact hc.2⟩

theorem isDigit_of_digit? {c : Char} {d : Nat} (hc : digit? c = some d) : c.isDigit = true := by
  rw [digit?] at hc
  split at hc
  · rename_i hrange
    rw [Char.isDigit_iff_toNat]
    exact hrange
  · cases hc

theorem allDigits_toDigits (n : Nat) : AllDigits (Nat.toDigits 10 n) := fun _ hc =>
  Nat.isDigit_of_mem_toDigits (by decide) (by decide) hc

/-- Further digits do not make a number smaller. -/
theorem le_ofDigitChars (ds : List Char) (n : Nat) : n ≤ Nat.ofDigitChars 10 ds n := by
  rw [Nat.ofDigitChars_eq_ofDigitChars_zero]
  have hpos : 0 < 10 ^ ds.length := Nat.pow_pos (by decide)
  calc n ≤ 10 ^ ds.length * n := Nat.le_mul_of_pos_left n hpos
    _ ≤ 10 ^ ds.length * n + Nat.ofDigitChars 10 ds 0 := Nat.le_add_right _ _

/-- A number other than zero is written with a first digit that is no zero. -/
theorem head_toDigits_ne_zero {n : Nat} (hn : 0 < n) {c : Char} {ds : List Char}
    (h : Nat.toDigits 10 n = c :: ds) : c ≠ '0' := by
  induction n using Nat.strongRecOn generalizing c ds with
  | ind n ih =>
      rcases Nat.lt_or_ge n 10 with hsmall | hlarge
      · rw [Nat.toDigits_of_lt_base hsmall] at h
        cases h
        have hall : ∀ n, n < 10 → 0 < n → Nat.digitChar n ≠ '0' := by decide
        exact hall n hsmall hn
      · rw [Nat.toDigits_of_base_le (by decide) hlarge] at h
        cases hfront : Nat.toDigits 10 (n / 10) with
        | nil => exact absurd hfront Nat.toDigits_ne_nil
        | cons d front =>
            rw [hfront, List.cons_append] at h
            cases h
            exact ih (n / 10) (Nat.div_lt_self hn (by decide)) (by omega) hfront

/-- The digits of a number other than zero: a first one that is no zero, and the others. -/
theorem toDigits_eq_cons {n : Nat} (hn : 0 < n) :
    ∃ c ds, Nat.toDigits 10 n = c :: ds ∧ c ≠ '0' ∧ digit? c = some (c.toNat - 48) ∧
      AllDigits ds ∧ Nat.ofDigitChars 10 ds (c.toNat - 48) = n := by
  cases hdigits : Nat.toDigits 10 n with
  | nil => exact absurd hdigits Nat.toDigits_ne_nil
  | cons c ds =>
      have hall := allDigits_toDigits n
      rw [hdigits] at hall
      have hvalue : Nat.ofDigitChars 10 (Nat.toDigits 10 n) 0 = n := Nat.ofDigitChars_ten_toDigits
      rw [hdigits, Nat.ofDigitChars_cons] at hvalue
      refine ⟨c, ds, rfl, head_toDigits_ne_zero hn hdigits,
        digit?_of_isDigit (hall c (by simp)), fun d hd => hall d (by simp [hd]), ?_⟩
      simpa using hvalue

/-! ## Reading digits -/

/-- Digits are read one after the other as long as the number fits. -/
theorem readDigits_append (negative : Bool) {ds : List Char} (hds : AllDigits ds) {n : Nat}
    (hfits : Nat.ofDigitChars 10 ds n ≤ maxSignificand) (rest : List Char) :
    readDigits negative n (ds ++ rest) = readDigits negative (Nat.ofDigitChars 10 ds n) rest := by
  induction ds generalizing n with
  | nil => rw [List.nil_append, Nat.ofDigitChars_nil]
  | cons c ds ih =>
      have hvalue : 10 * n + (c.toNat - '0'.toNat) = n * 10 + (c.toNat - 48) := by
        rw [Nat.mul_comm]
        rfl
      rw [Nat.ofDigitChars_cons, hvalue] at hfits ⊢
      have hle := le_ofDigitChars ds (n * 10 + (c.toNat - 48))
      rw [List.cons_append, readDigits, digit?_of_isDigit (hds c (by simp))]
      simp only
      rw [if_neg (by omega)]
      exact ih (fun d hd => hds d (by simp [hd])) hfits

theorem readDigits_end (negative : Bool) (n : Nat) {rest : List Char} (hrest : NoDigitAhead rest) :
    readDigits negative n rest = readNumberTail negative n rest := by
  cases rest with
  | nil => rfl
  | cons c rest => rw [readDigits, hrest c rfl]

/-- The digits of a number that fits are read as the number, up to where they end. -/
theorem readNumber_toDigits (negative : Bool) {n : Nat} (hfits : n ≤ maxSignificand)
    {rest : List Char} (hrest : NoDigitAhead rest) :
    readNumber negative (Nat.toDigits 10 n ++ rest) = readNumberTail negative n rest := by
  rcases Nat.eq_zero_or_pos n with hzero | hpos
  · subst hzero
    rw [Nat.toDigits_zero]
    cases rest with
    | nil => rfl
    | cons c rest =>
        have hc : digit? c = none := hrest c rfl
        simp [readNumber, hc]
  · obtain ⟨c, ds, hdigits, hzero, hc, hds, hvalue⟩ := toDigits_eq_cons hpos
    rw [hdigits, List.cons_append, readNumber.eq_def]
    simp only [beq_iff_eq, if_neg hzero, hc]
    rw [readDigits_append negative hds (by rwa [hvalue]), hvalue, readDigits_end negative n hrest]

theorem readNumberTail_nat (n : Nat) {rest : List Char} (hrest : EndsNumber rest) :
    readNumberTail false n rest = .ok (.whole n, rest) := by
  unfold readNumberTail
  split
  · exact absurd rfl (hrest.noMark _ rfl).1
  · exact absurd rfl (hrest.noMark _ rfl).2.1
  · exact absurd rfl (hrest.noMark _ rfl).2.2
  · rfl

theorem readNumberTail_negative {n : Nat} (hpos : 0 < n) (hfits : n ≤ Nat.pow 2 63)
    {rest : List Char} (hrest : EndsNumber rest) :
    readNumberTail true n rest = .ok (.whole (-(n : Int)), rest) := by
  unfold readNumberTail
  split
  · exact absurd rfl (hrest.noMark _ rfl).1
  · exact absurd rfl (hrest.noMark _ rfl).2.1
  · exact absurd rfl (hrest.noMark _ rfl).2.2
  · rw [if_neg (by decide), if_pos ⟨hpos, hfits⟩]

/-! ## Whole numbers -/

/-- Whether a whole number fits 64 bits, with a sign or without one. -/
def FitsInt (n : Int) : Prop :=
  -(2 : Int) ^ 63 ≤ n ∧ n < (2 : Int) ^ 64

instance (n : Int) : Decidable (FitsInt n) := inferInstanceAs (Decidable (_ ∧ _))

/-- A character that starts a number is none that starts something else. -/
theorem digit_ne {c d : Char} (hc : (digit? c).isSome) (hd : digit? d = none := by decide) :
    c ≠ d := by
  rintro rfl
  rw [hd] at hc
  cases hc

theorem isSpace_of_digit? {c : Char} (hc : (digit? c).isSome) : isSpace c = false := by
  simp [isSpace, digit_ne hc (d := ' '), digit_ne hc (d := '\n'), digit_ne hc (d := '\t'),
    digit_ne hc (d := '\r')]

/-- A value that starts with a digit is a number. -/
theorem readValue_digit (depth : Nat) {c : Char} (hc : (digit? c).isSome) (rest : List Char) :
    readValue depth (c :: rest) =
      (readNumber false (c :: rest)).map fun p => (Json.number p.1, p.2) := by
  rw [readValue.eq_def]
  simp [skipSpaces, isSpace_of_digit? hc, hc, digit_ne hc (d := 'n'), digit_ne hc (d := 't'),
    digit_ne hc (d := 'f'), digit_ne hc (d := '-')]
  cases readNumber false (c :: rest) <;> rfl

/-- A value that starts with a minus is a number. -/
theorem readValue_minus (depth : Nat) (rest : List Char) :
    readValue depth ('-' :: rest) =
      (readNumber true rest).map fun p => (Json.number p.1, p.2) := by
  rw [readValue.eq_def]
  simp [skipSpaces, isSpace]
  cases readNumber true rest <;> rfl

theorem readValue_renderInt (depth : Nat) {n : Int} (hn : FitsInt n) {rest : List Char}
    (hrest : EndsNumber rest) :
    readValue depth (renderInt n ++ rest) = .ok (.number (.whole n), rest) := by
  obtain ⟨hlow, hhigh⟩ := hn
  have hfits : n.natAbs ≤ maxSignificand := by
    have hmax : maxSignificand = 2 ^ 64 - 1 := rfl
    omega
  have hread := fun negative => readNumber_toDigits negative hfits hrest.noDigit
  rw [renderInt]
  split
  · rename_i hneg
    have hnumber := readNumberTail_negative (n := n.natAbs) (by omega)
      (by rw [Nat.pow_eq]; omega) hrest
    have habs : -(n.natAbs : Int) = n := by omega
    rw [List.cons_append, readValue_minus, hread, hnumber, habs]
    rfl
  · rename_i hnonneg
    have hnumber := readNumberTail_nat n.natAbs hrest
    have habs : (n.natAbs : Int) = n := by omega
    cases hdigits : Nat.toDigits 10 n.natAbs with
    | nil => exact absurd hdigits Nat.toDigits_ne_nil
    | cons c ds =>
        have hc : c.isDigit = true := allDigits_toDigits n.natAbs c (by simp [hdigits])
        rw [List.cons_append, readValue_digit depth (by simp [digit?_of_isDigit hc]),
          ← List.cons_append, ← hdigits, hread, hnumber, habs]
        rfl

end FossilRecord.Json
