import FossilRecord.Proofs.Json.Canonical
import Mathlib.Data.List.DropRight

/-!
# Texts that are read as whole numbers

A number is read as a whole number exactly where it is written as one and fits 64 bits, with a sign
or without one (`readValue_whole_iff`).  Digits with a fraction or an exponent give a number that is
rounded, and so do more digits than 64 bits hold.
-/

namespace FossilRecord.Json

/-- The minus before a negative number. -/
def minus (negative : Bool) : List Char :=
  if negative then ['-'] else []

section

variable {negative : Bool} {m : Int} {cs rest : List Char}

theorem not_isReal_whole : ¬(Number.whole m).IsReal := id

/-! ## Digits -/

/-- A whole number ends where its digits do, and a mark would make it another number. -/
theorem whole_of_readNumberTail {n : Nat} (hdigit : NoDigitAhead cs)
    (h : readNumberTail negative n cs = .ok (.whole m, rest)) :
    minus negative ++ (Nat.toDigits 10 n ++ cs) = renderInt m ++ rest ∧ EndsNumber rest := by
  unfold readNumberTail at h
  split at h
  · exact absurd (isReal_of_readFraction h) not_isReal_whole
  · exact absurd (isReal_of_readExponent h) not_isReal_whole
  · exact absurd (isReal_of_readExponent h) not_isReal_whole
  · rename_i hpoint hlower hupper
    have hends : EndsNumber cs := by
      refine ⟨hdigit, fun c hc => ?_⟩
      obtain ⟨more, rfl⟩ := List.head?_eq_some_iff.mp hc
      exact ⟨fun hc => hpoint more (by rw [hc]), fun hc => hlower more (by rw [hc]),
        fun hc => hupper more (by rw [hc])⟩
    split_ifs at h with hsign hsmall
    · cases h
      have hplain : negative = false := by simpa using hsign
      refine ⟨?_, hends⟩
      rw [hplain, renderInt, if_neg (by omega)]
      rfl
    · cases h
      have hminus : negative = true := by simpa using hsign
      refine ⟨?_, hends⟩
      rw [hminus, renderInt, if_pos (by omega), Int.natAbs_neg]
      rfl
    · exact absurd (isReal_of_realOf h) not_isReal_whole

theorem digitChar_of_digit? {c : Char} {d : Nat} (hc : digit? c = some d) : d.digitChar = c := by
  have hdigit : 48 ≤ c.toNat ∧ c.toNat ≤ 57 := Char.isDigit_iff_toNat.mp (isDigit_of_digit? hc)
  rw [digit?_of_isDigit (isDigit_of_digit? hc), Option.some.injEq] at hc
  subst hc
  rw [← Char.toNat_inj, Nat.toNat_digitChar_of_lt_ten (by omega)]
  omega

/-- Digits that are read as a whole number are all of its digits. -/
theorem whole_of_readDigits {n : Nat} (hpos : 0 < n)
    (h : readDigits negative n cs = .ok (.whole m, rest)) :
    minus negative ++ (Nat.toDigits 10 n ++ cs) = renderInt m ++ rest ∧ EndsNumber rest := by
  induction cs generalizing n with
  | nil => exact whole_of_readNumberTail endsNumber_nil.noDigit h
  | cons c cs ih =>
      rw [readDigits] at h
      split at h
      · rename_i hc
        refine whole_of_readNumberTail (fun d hd => ?_) h
        cases hd
        exact hc
      · rename_i d hd
        split at h
        · exact absurd (isReal_of_readLong h) not_isReal_whole
        · have hread := ih (by omega) h
          have hle := digit?_le hd
          -- the digit is the last one of the number read so far
          rwa [Nat.toDigits_of_base_le (by decide) (by omega),
            show (n * 10 + d) / 10 = n by omega, show (n * 10 + d) % 10 = d by omega,
            digitChar_of_digit? hd, List.append_assoc, List.singleton_append] at hread

theorem whole_of_readNumber (h : readNumber negative cs = .ok (.whole m, rest)) :
    minus negative ++ cs = renderInt m ++ rest ∧ EndsNumber rest := by
  unfold readNumber at h
  split at h
  · cases h
  · rename_i c more
    split_ifs at h with hzero
    · have hc : c = '0' := by simpa using hzero
      subst hc
      split at h
      · rename_i d rest'
        split_ifs at h with hdigit
        · cases h
        · refine whole_of_readNumberTail (n := 0) (fun e he => ?_) h
          cases he
          simpa using hdigit
      · exact whole_of_readNumberTail (n := 0) endsNumber_nil.noDigit h
    · split at h
      · rename_i d hd
        have hle := digit?_le hd
        have hpos : 0 < d := by
          refine Nat.pos_of_ne_zero fun hd0 => hzero ?_
          rw [← digitChar_of_digit? hd, hd0]
          rfl
        have hread := whole_of_readDigits hpos h
        rwa [Nat.toDigits_of_lt_base (by omega), digitChar_of_digit? hd] at hread
      · cases h

/-! ## Values -/

theorem readValue_skipSpaces (depth : Nat) (cs : List Char) :
    readValue depth (skipSpaces cs) = readValue depth cs := by
  have hskip : skipSpaces (skipSpaces cs) = skipSpaces cs := List.dropWhile_idempotent _ cs
  rw [readValue.eq_def, readValue.eq_def depth cs]
  simp only [hskip]

/-- A number is read by its digits, behind a minus or without one. -/
theorem number_of_readValue {depth : Nat} {n : Number}
    (h : readValue depth cs = .ok (.number n, rest)) :
    ∃ negative more, skipSpaces cs = minus negative ++ more ∧
      readNumber negative more = .ok (n, rest) := by
  rw [readValue.eq_def] at h
  simp only at h
  split at h
  · cases h
  · rename_i c more hfront
    split_ifs at h
    · obtain ⟨_, -, h⟩ := bind_eq_ok h
      cases h
    · obtain ⟨_, -, h⟩ := bind_eq_ok h
      cases h
    · obtain ⟨_, -, h⟩ := bind_eq_ok h
      cases h
    · rename_i hminus
      obtain ⟨⟨k, _⟩, hk, h⟩ := bind_eq_ok h
      cases h
      have hc : c = '-' := by simpa using hminus
      exact ⟨true, more, by rw [hfront, hc]; rfl, hk⟩
    · obtain ⟨⟨k, _⟩, hk, h⟩ := bind_eq_ok h
      cases h
      exact ⟨false, c :: more, hfront, hk⟩
    · obtain ⟨_, -, h⟩ := bind_eq_ok h
      cases h
    · split at h
      · cases h
      · cases h
      · obtain ⟨_, -, h⟩ := bind_eq_ok h
        cases h
    · split at h
      · cases h
      · cases h
      · obtain ⟨_, -, h⟩ := bind_eq_ok h
        cases h
    · cases h

/-- A whole number is read exactly where it is written in decimal and fits 64 bits, with a sign or
without one. -/
theorem readValue_whole_iff {depth : Nat} :
    readValue depth cs = .ok (.int m, rest) ↔
      FitsInt m ∧ EndsNumber rest ∧ skipSpaces cs = renderInt m ++ rest := by
  constructor
  · intro h
    obtain ⟨negative, more, hfront, hnumber⟩ := number_of_readValue h
    obtain ⟨hwritten, hends⟩ := whole_of_readNumber hnumber
    exact ⟨fits_of_readNumber hnumber, hends, hfront.trans hwritten⟩
  · rintro ⟨hfits, hends, hwritten⟩
    rw [← readValue_skipSpaces, hwritten]
    exact readValue_renderInt depth hfits hends

end

end FossilRecord.Json
