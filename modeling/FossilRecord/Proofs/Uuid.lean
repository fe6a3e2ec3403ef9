import FossilRecord.Proofs.Json.Text
import FossilRecord.Uuid
import Mathlib.Tactic.Ring

/-!
# Identifiers read back

An identifier is read from the text that writes it, so that no two identifiers are written alike.
-/

namespace FossilRecord.Uuid

/-! ## Digits -/

theorem hexNumber?_append (value : Nat) (xs ys : List Char) :
    hexNumber? value (xs ++ ys) = (hexNumber? value xs).bind fun n => hexNumber? n ys := by
  induction xs generalizing value with
  | nil => rfl
  | cons c xs ih =>
      rw [List.cons_append, hexNumber?, hexNumber?]
      split
      · exact ih _
      · rfl

@[simp] theorem hexDigits_length (count n : Nat) : (hexDigits count n).length = count := by
  induction count generalizing n with
  | zero => rfl
  | succ count ih => rw [hexDigits, List.length_append, ih, List.length_singleton]

/-- Digits are read as the number that they write. -/
theorem hexNumber?_hexDigits (value count n : Nat) :
    hexNumber? value (hexDigits count n) = some (value * 16 ^ count + n % 16 ^ count) := by
  induction count generalizing n with
  | zero => simp [hexDigits, hexNumber?, Nat.mod_one]
  | succ count ih =>
      have hdigit := Json.hexValue?_hexDigit (Nat.mod_lt n (by decide : 0 < 16))
      have hmod : n % 16 ^ (count + 1) = n / 16 % 16 ^ count * 16 + n % 16 := by
        rw [Nat.pow_succ', Nat.mod_mul]
        omega
      rw [hexDigits, hexNumber?_append, ih]
      simp only [Option.bind_some, hexNumber?, hdigit]
      rw [hmod, Nat.pow_succ]
      ring_nf

/-- All digits of an identifier are read as the identifier. -/
theorem ofDigits?_hexDigits (u : Uuid) : ofDigits? (hexDigits 32 u.bits.toNat) = some u := by
  have hlt : u.bits.toNat < 16 ^ 32 := u.bits.isLt
  rw [ofDigits?, if_pos (hexDigits_length 32 _), hexNumber?_hexDigits, Nat.mod_eq_of_lt hlt]
  simp

/-! ## Groups -/

theorem cut_append {n : Nat} {xs : List Char} (hxs : xs.length = n) (ys : List Char) :
    cut n (xs ++ ys) = (xs, ys) := by
  rw [cut, List.take_left' hxs, List.drop_left' hxs]

/-- Digits in groups are read like the digits alone. -/
theorem ofGroups?_append {a b c d : List Char} (ha : a.length = 8) (hb : b.length = 4)
    (hc : c.length = 4) (hd : d.length = 4) (e : List Char) :
    ofGroups? (a ++ '-' :: b ++ '-' :: c ++ '-' :: d ++ '-' :: e) =
      ofDigits? (a ++ b ++ c ++ d ++ e) := by
  simp only [ofGroups?, List.append_assoc, List.cons_append, cut_append ha, cut_append hb,
    cut_append hc, cut_append hd]

theorem groups_append {ds : List Char} :
    ds.take 8 ++ (ds.drop 8).take 4 ++ (ds.drop 12).take 4 ++ (ds.drop 16).take 4 ++ ds.drop 20 =
      ds := by
  have hcut : ∀ n, (ds.drop n).take 4 ++ ds.drop (n + 4) = ds.drop n := by
    intro n
    rw [← List.drop_drop, List.take_append_drop]
  rw [List.append_assoc, List.append_assoc, List.append_assoc, hcut 16, hcut 12, hcut 8,
    List.take_append_drop]

theorem ofChars?_toChars (u : Uuid) : ofChars? u.toChars = some u := by
  have hlength := hexDigits_length 32 u.bits.toNat
  have hwhole : u.toChars.length = 36 := by
    simp [toChars]
  rw [ofChars?, if_neg (by omega), if_pos hwhole, toChars,
    ofGroups?_append (by simp) (by simp) (by simp) (by simp), groups_append, ofDigits?_hexDigits]

/-- An identifier is read from its text. -/
theorem parse_toString (u : Uuid) : parse (toString u) = .ok u := by
  have hchars : (toString u).toList = u.toChars := String.toList_ofList
  rw [parse, hchars, ofChars?_toChars]

theorem toString_injective {u v : Uuid} (h : toString u = toString v) : u = v := by
  have hu := parse_toString u
  rw [h, parse_toString v] at hu
  exact (Except.ok.inj hu).symm

end FossilRecord.Uuid
