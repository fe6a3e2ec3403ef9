import FossilRecord.Text.Octets
import Mathlib.Data.List.Lex
import Mathlib.Data.String.Basic

/-!
# Byte order

Texts are compared by their code points.  UTF-8 keeps that order, so comparing the octets of two
texts decides in the same way.
-/

namespace FossilRecord.Text

theorem toList_loop (octets : ByteArray) (i : Nat) (seen : List UInt8) :
    ByteArray.toList.loop octets i seen = seen.reverse ++ octets.data.toList.drop i := by
  fun_induction ByteArray.toList.loop octets i seen with
  | case1 i seen hi ih =>
      have hlt : i < octets.data.toList.length := by simpa using hi
      rw [ih, List.drop_eq_getElem_cons hlt]
      simp [ByteArray.get!, hi]
  | case2 i seen hi =>
      rw [List.drop_eq_nil_of_le (by simpa using Nat.le_of_not_lt hi), List.append_nil]

theorem octets_eq (s : String) : octets s = s.toList.flatMap String.utf8EncodeChar := by
  have hbytes : s.toByteArray = (s.toList.flatMap String.utf8EncodeChar).toByteArray := by
    change s.toByteArray = s.toList.utf8Encode
    rw [← String.toByteArray_ofList, String.ofList_toList]
  rw [octets, String.toUTF8_eq_toByteArray, hbytes, ByteArray.toList, toList_loop]
  simp

/-! ## One character -/

/-- The octets that follow the first one of a character, each with six more bits of its number. -/
def following : (count : Nat) → (v : Nat) → List UInt8
  | 0, _ => []
  | count + 1, v => UInt8.ofNat (v / 64 ^ count % 64 + 0x80) :: following count v

/-- How many octets follow the first one of a character, and the mark that the first one has. -/
def shape (v : Nat) : Nat × Nat :=
  if v ≤ 0x7f then (0, 0)
  else if v ≤ 0x7ff then (1, 0xc0)
  else if v ≤ 0xffff then (2, 0xe0)
  else (3, 0xf0)

/-- The octets of a shape. -/
def shaped (s : Nat × Nat) (v : Nat) : List UInt8 :=
  UInt8.ofNat (v / 64 ^ s.1 + s.2) :: following s.1 v

theorem encode_eq_shaped {c : Char} (hc : c.val.toNat < 0x110000) :
    String.utf8EncodeChar c = shaped (shape c.val.toNat) c.val.toNat := by
  unfold String.utf8EncodeChar shape
  generalize c.val.toNat = v at hc
  simp only
  split_ifs
  · simp [shaped, following]
  · have hlead : v / 64 % 32 = v / 64 := by omega
    simp [shaped, following, hlead]
  · have hlead : v / 4096 % 16 = v / 4096 := by omega
    simp [shaped, following, hlead]
  · have hlead : v / 262144 % 8 = v / 262144 := by omega
    simp [shaped, following, hlead]

theorem cons_lt_of_lt {m n : Nat} (h : m < n) (hn : n < 256) (xs ys : List UInt8) :
    UInt8.ofNat m :: xs < UInt8.ofNat n :: ys := by
  rw [List.cons_lt_cons_iff]
  left
  rw [UInt8.lt_iff_toNat_lt, UInt8.toNat_ofNat', UInt8.toNat_ofNat']
  omega

/-- Where the larger bits agree, the octets that follow decide. -/
theorem following_lt {count v w : Nat} (h : v < w) (hagree : v / 64 ^ count = w / 64 ^ count)
    (xs ys : List UInt8) : following count v ++ xs < following count w ++ ys := by
  induction count with
  | zero =>
      simp only [pow_zero, Nat.div_one] at hagree
      omega
  | succ count ih =>
      rw [following, following, List.cons_append, List.cons_append]
      -- the first of these octets has the next six bits, and decides unless they are equal
      by_cases heq : v / 64 ^ count = w / 64 ^ count
      · rw [heq, List.cons_lt_cons_iff]
        exact .inr ⟨rfl, ih heq⟩
      · have hle : v / 64 ^ count ≤ w / 64 ^ count := Nat.div_le_div_right h.le
        rw [pow_succ, ← Nat.div_div_eq_div_mul, ← Nat.div_div_eq_div_mul] at hagree
        exact cons_lt_of_lt (by omega) (by omega) _ _

theorem shaped_lt_self {s : Nat × Nat} {v w : Nat} (h : v < w) (hw : w / 64 ^ s.1 + s.2 < 256)
    (xs ys : List UInt8) : shaped s v ++ xs < shaped s w ++ ys := by
  rw [shaped, shaped, List.cons_append, List.cons_append]
  by_cases heq : v / 64 ^ s.1 = w / 64 ^ s.1
  · rw [heq, List.cons_lt_cons_iff]
    exact .inr ⟨rfl, following_lt h heq xs ys⟩
  · have hle : v / 64 ^ s.1 ≤ w / 64 ^ s.1 := Nat.div_le_div_right h.le
    exact cons_lt_of_lt (by omega) hw _ _

theorem lead_lt {v : Nat} (hv : v < 0x110000) : v / 64 ^ (shape v).1 + (shape v).2 < 256 := by
  unfold shape
  split_ifs <;> simp only [pow_zero, pow_one, Nat.reducePow] <;> omega

/-- A longer code starts with a larger octet. -/
theorem lead_lt_lead {v w : Nat} (h : v < w) (hshape : shape v ≠ shape w) :
    v / 64 ^ (shape v).1 + (shape v).2 < w / 64 ^ (shape w).1 + (shape w).2 := by
  unfold shape at hshape ⊢
  split_ifs at hshape ⊢ <;>
    first
    | exact absurd rfl hshape
    | (simp only [pow_zero, pow_one, Nat.reducePow]; omega)

/-- The octets of the smaller of two characters stand before those of the other one, whatever
follows. -/
theorem encode_lt_encode {c d : Char} (h : c < d) (xs ys : List UInt8) :
    String.utf8EncodeChar c ++ xs < String.utf8EncodeChar d ++ ys := by
  have hlt : c.val.toNat < d.val.toNat := h
  have hbound : d.val.toNat < 0x110000 := by
    have hvalid := d.valid
    simp only [UInt32.isValidChar, Nat.isValidChar] at hvalid
    omega
  rw [encode_eq_shaped (by omega), encode_eq_shaped hbound]
  -- with equal shapes the bits decide octet by octet, else the first octet alone does
  by_cases hshape : shape c.val.toNat = shape d.val.toNat
  · rw [hshape]
    exact shaped_lt_self hlt (lead_lt hbound) xs ys
  · exact cons_lt_of_lt (lead_lt_lead hlt hshape) (lead_lt hbound) _ _

/-! ## Whole texts -/

theorem flatMap_encode_lt {cs ds : List Char} (h : cs < ds) :
    cs.flatMap String.utf8EncodeChar < ds.flatMap String.utf8EncodeChar := by
  induction h with
  | nil =>
      rw [List.flatMap_cons, List.flatMap_nil]
      cases hd : String.utf8EncodeChar _ with
      | nil => exact absurd hd String.utf8EncodeChar_ne_nil
      | cons octet rest => exact List.nil_lt_cons _ _
  | rel hcd =>
      rw [List.flatMap_cons, List.flatMap_cons]
      exact encode_lt_encode hcd _ _
  | cons h ih =>
      rw [List.flatMap_cons, List.flatMap_cons]
      exact List.Lex.append_left _ ih _

/-- The order of texts is that of their octets. -/
theorem octets_lt_octets {s t : String} : octets s < octets t ↔ s < t := by
  have hmono : ∀ {s t : String}, s < t → octets s < octets t := by
    intro s t hst
    rw [octets_eq, octets_eq]
    exact flatMap_encode_lt (String.lt_iff_toList_lt.mp hst)
  refine ⟨fun h => ?_, hmono⟩
  rcases lt_trichotomy s t with hst | rfl | hts
  · exact hst
  · exact absurd h (List.lt_irrefl _)
  · exact absurd (hmono hts) (List.lt_asymm h)

end FossilRecord.Text
