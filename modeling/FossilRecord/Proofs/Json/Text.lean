import FossilRecord.Json.Printer
import FossilRecord.Json.Reader
import Mathlib.Tactic.Common

/-!
# JSON texts read back

Every character has a written form of its own, and reading that form gives the character again:
`readText_render`.  The quote ends the text, and nothing of what follows it is read.
-/

namespace FossilRecord.Json

/-! ## Hexadecimal digits -/

theorem hexValue?_hexDigit {n : Nat} (hn : n < 16) : hexValue? (hexDigit n) = some n := by
  have hall : ∀ n, n < 16 → hexValue? (hexDigit n) = some n := by decide
  exact hall n hn

theorem utf8Size_hexDigit {n : Nat} (hn : n < 16) : (hexDigit n).utf8Size = 1 := by
  have hall : ∀ n, n < 16 → (hexDigit n).utf8Size = 1 := by decide
  exact hall n hn

/-- Four digits are read as the number that they write. -/
theorem readHex4_hexDigits {a b c d : Nat} (ha : a < 16) (hb : b < 16) (hc : c < 16) (hd : d < 16)
    (rest : List Char) :
    readHex4 (hexDigit a :: hexDigit b :: hexDigit c :: hexDigit d :: rest) =
      .ok (((a * 16 + b) * 16 + c) * 16 + d, rest) := by
  have hcount : Text.octetCount
      ((hexDigit a :: hexDigit b :: hexDigit c :: hexDigit d :: rest).take 4) = 4 := by
    simp [Text.octetCount, utf8Size_hexDigit, ha, hb, hc, hd]
  rw [readHex4, if_neg (by omega)]
  simp [hexValue?_hexDigit, ha, hb, hc, hd]

/-- A control character is read back from its number. -/
theorem readUnicode_control {c : Char} (hc : c.toNat < 0x20) (rest : List Char) :
    readUnicode ('0' :: '0' :: hexDigit (c.toNat / 16) :: hexDigit (c.toNat % 16) :: rest) =
      .ok (c, rest) := by
  have hzero : '0' = hexDigit 0 := rfl
  have hread := readHex4_hexDigits (a := 0) (b := 0) (c := c.toNat / 16) (d := c.toNat % 16)
    (by omega) (by omega) (by omega) (by omega) rest
  have hvalue : ((0 * 16 + 0) * 16 + c.toNat / 16) * 16 + c.toNat % 16 = c.toNat := by omega
  rw [hvalue] at hread
  rw [readUnicode, hzero, hread]
  simp only [bind, Except.bind]
  rw [if_neg (by omega), if_pos (by omega), Char.ofNat_toNat]

/-! ## Characters -/

/-- An escape of two characters is read as the character that it stands for. -/
theorem readTextChars_short {fuel : Nat} {cs more rest : List Char} {mark c : Char}
    (hmark : readEscape (mark :: cs) = .ok (c, cs))
    (h : readTextChars fuel cs = .ok (more, rest)) :
    readTextChars (fuel + 1) ('\\' :: mark :: cs) = .ok (c :: more, rest) := by
  simp [readTextChars, hmark, h, bind, Except.bind]

/-- Reading the written form of a character gives the character and goes on behind it. -/
theorem readTextChars_escapedChar {fuel : Nat} {cs more rest : List Char} (c : Char)
    (h : readTextChars fuel cs = .ok (more, rest)) :
    readTextChars (fuel + 1) (escapedChar c ++ cs) = .ok (c :: more, rest) := by
  unfold escapedChar
  split_ifs with hquote hback hb hf hn hr ht hcontrol
  case pos =>
    rw [beq_iff_eq] at hquote
    subst hquote
    exact readTextChars_short rfl h
  case pos =>
    rw [beq_iff_eq] at hback
    subst hback
    exact readTextChars_short rfl h
  case pos =>
    rw [beq_iff_eq] at hb
    subst hb
    exact readTextChars_short rfl h
  case pos =>
    rw [beq_iff_eq] at hf
    subst hf
    exact readTextChars_short rfl h
  case pos =>
    rw [beq_iff_eq] at hn
    subst hn
    exact readTextChars_short rfl h
  case pos =>
    rw [beq_iff_eq] at hr
    subst hr
    exact readTextChars_short rfl h
  case pos =>
    rw [beq_iff_eq] at ht
    subst ht
    exact readTextChars_short rfl h
  case pos =>
    have hread := readUnicode_control hcontrol cs
    simp [readTextChars, readEscape, hread, h, bind, Except.bind]
  case neg =>
    simp [readTextChars, hquote, hback, hcontrol, h, bind, Except.bind]

/-- The characters of a text are read back, up to the quote. -/
theorem readTextChars_flatMap (chars rest : List Char) {fuel : Nat} (hfuel : chars.length < fuel) :
    readTextChars fuel (chars.flatMap escapedChar ++ '"' :: rest) = .ok (chars, rest) := by
  induction chars generalizing fuel with
  | nil =>
      obtain ⟨n, rfl⟩ := Nat.exists_eq_succ_of_ne_zero (Nat.ne_of_gt hfuel)
      simp [readTextChars]
  | cons c chars ih =>
      rw [List.length_cons] at hfuel
      obtain ⟨n, rfl⟩ := Nat.exists_eq_succ_of_ne_zero (Nat.ne_of_gt (Nat.zero_lt_of_lt hfuel))
      rw [List.flatMap_cons, List.append_assoc]
      exact readTextChars_escapedChar c (ih (by omega))

theorem escapedChar_ne_nil (c : Char) : escapedChar c ≠ [] := by
  unfold escapedChar
  split_ifs <;> simp

theorem length_le_flatMap_escapedChar (chars : List Char) :
    chars.length ≤ (chars.flatMap escapedChar).length := by
  induction chars with
  | nil => simp
  | cons c chars ih =>
      have hpos : 0 < (escapedChar c).length := List.length_pos_iff.mpr (escapedChar_ne_nil c)
      rw [List.flatMap_cons, List.length_append, List.length_cons]
      omega

/-- A written text whose opening quote is read gives the text. -/
theorem readText_render (s : String) (rest : List Char) :
    readText (s.toList.flatMap escapedChar ++ '"' :: rest) = .ok (s, rest) := by
  have hlength := length_le_flatMap_escapedChar s.toList
  have hfuel : s.toList.length < (s.toList.flatMap escapedChar ++ '"' :: rest).length := by
    rw [List.length_append, List.length_cons]
    omega
  rw [readText, readTextChars_flatMap s.toList rest hfuel]
  simp [bind, Except.bind]

end FossilRecord.Json
