import FossilRecord.Proofs.Text.ByteOrder

/-!
# Octets that are read strictly

A text that was read strictly from octets has those octets and no others: no piece is replaced, and
none is left out.  The octets of a text are always read, and give the text.
-/

namespace FossilRecord.Text

/-! ## One character -/

theorem encode_ofNat {v : Nat} (hv : v.isValidChar) :
    String.utf8EncodeChar (Char.ofNat v) = shaped (shape v) v := by
  have hval : (Char.ofNat v).val.toNat = v := by
    rw [Char.ofNat, dif_pos hv]
    rfl
  have hlt : (Char.ofNat v).val.toNat < 0x110000 := by
    rw [hval]
    rcases hv with h | h <;> omega
  rw [encode_eq_shaped hlt, hval]

theorem ofNat_of_toNat {a : UInt8} {n : Nat} (h : n = a.toNat) : UInt8.ofNat n = a := by
  rw [h, UInt8.ofNat_toNat]

theorem within_iff {range : Nat × Nat} {b : UInt8} :
    within range b = true ↔ range.1 ≤ b.toNat ∧ b.toNat ≤ range.2 := by
  rw [within, Bool.and_eq_true, decide_eq_true_eq, decide_eq_true_eq]

/-- A second octet never makes a character too long, half of a pair, or too large. -/
theorem within_second_iff {a b : UInt8} :
    within (secondRange a) b = true ↔
      (0x80 ≤ b.toNat ∧ b.toNat ≤ 0xBF) ∧ (a.toNat = 0xE0 → 0xA0 ≤ b.toNat) ∧
        (a.toNat = 0xED → b.toNat ≤ 0x9F) ∧ (a.toNat = 0xF0 → 0x90 ≤ b.toNat) ∧
        (a.toNat = 0xF4 → b.toNat ≤ 0x8F) := by
  rw [within_iff, secondRange]
  simp only [beq_iff_eq, ← UInt8.toNat_inj, UInt8.reduceToNat]
  split_ifs <;> omega

theorem encode_one {a : UInt8} (ha : a.toNat < 0x80) :
    String.utf8EncodeChar (Char.ofNat a.toNat) = [a] := by
  have hshape : shape a.toNat = (0, 0) := if_pos (by omega)
  rw [encode_ofNat (.inl (by omega)), hshape, shaped, following]
  simp

theorem encode_two {a b : UInt8} (hlow : 0xC2 ≤ a.toNat) (hhigh : a.toNat < 0xE0)
    (hb : within (secondRange a) b = true) :
    String.utf8EncodeChar (Char.ofNat ((a.toNat - 0xC0) * 64 + low6 b)) = [a, b] := by
  obtain ⟨⟨hb, hb'⟩, -⟩ := within_second_iff.mp hb
  unfold low6
  generalize hv : (a.toNat - 0xC0) * 64 + b.toNat % 64 = v
  have hshape : shape v = (1, 0xC0) := by
    unfold shape
    rw [if_neg (by omega), if_pos (by omega)]
  rw [encode_ofNat (.inl (by omega)), hshape, shaped, following, following,
    ofNat_of_toNat (a := a) (by simp; omega), ofNat_of_toNat (a := b) (by simp; omega)]

theorem encode_three {a b c : UInt8} (hlow : 0xE0 ≤ a.toNat) (hhigh : a.toNat < 0xF0)
    (hb : within (secondRange a) b = true) (hc : within (0x80, 0xBF) c = true) :
    String.utf8EncodeChar
      (Char.ofNat (((a.toNat - 0xE0) * 64 + low6 b) * 64 + low6 c)) = [a, b, c] := by
  obtain ⟨⟨hb, hb'⟩, hlong, hpair, -⟩ := within_second_iff.mp hb
  obtain ⟨hc, hc'⟩ := within_iff.mp hc
  unfold low6
  generalize hv : ((a.toNat - 0xE0) * 64 + b.toNat % 64) * 64 + c.toNat % 64 = v
  have hvalid : v.isValidChar := by
    unfold Nat.isValidChar
    omega
  have hshape : shape v = (2, 0xE0) := by
    unfold shape
    rw [if_neg (by omega), if_neg (by omega), if_pos (by omega)]
  rw [encode_ofNat hvalid, hshape, shaped, following, following, following,
    ofNat_of_toNat (a := a) (by simp; omega), ofNat_of_toNat (a := b) (by simp; omega),
    ofNat_of_toNat (a := c) (by simp; omega)]

theorem encode_four {a b c d : UInt8} (hlow : 0xF0 ≤ a.toNat) (hhigh : a.toNat ≤ 0xF4)
    (hb : within (secondRange a) b = true) (hc : within (0x80, 0xBF) c = true)
    (hd : within (0x80, 0xBF) d = true) :
    String.utf8EncodeChar
      (Char.ofNat ((((a.toNat - 0xF0) * 64 + low6 b) * 64 + low6 c) * 64 + low6 d)) =
        [a, b, c, d] := by
  obtain ⟨⟨hb, hb'⟩, -, -, hlong, hlarge⟩ := within_second_iff.mp hb
  obtain ⟨hc, hc'⟩ := within_iff.mp hc
  obtain ⟨hd, hd'⟩ := within_iff.mp hd
  unfold low6
  generalize hv :
    (((a.toNat - 0xF0) * 64 + b.toNat % 64) * 64 + c.toNat % 64) * 64 + d.toNat % 64 = v
  have hvalid : v.isValidChar := by
    unfold Nat.isValidChar
    omega
  have hshape : shape v = (3, 0xF0) := by
    unfold shape
    rw [if_neg (by omega), if_neg (by omega), if_neg (by omega)]
  rw [encode_ofNat hvalid, hshape, shaped, following, following, following, following,
    ofNat_of_toNat (a := a) (by simp; omega), ofNat_of_toNat (a := b) (by simp; omega),
    ofNat_of_toNat (a := c) (by simp; omega), ofNat_of_toNat (a := d) (by simp; omega)]

/-- The octets before the rest are those of the character at the front. -/
theorem eq_of_front?_char {octets rest : List UInt8} {c : Char}
    (h : front? octets = some (.char c rest)) : octets = String.utf8EncodeChar c ++ rest := by
  unfold front? at h
  split at h
  · cases h
  · rename_i a after
    rw [Option.some.injEq] at h
    split at h
    · rename_i hone
      cases h
      rw [encode_one hone]
      rfl
    · split at h
      · cases h
      · rename_i hlead
        rw [Bool.or_eq_true, decide_eq_true_eq, decide_eq_true_eq, not_or] at hlead
        obtain ⟨hlow, hhigh⟩ := hlead
        -- the longer characters are told apart octet by octet, and only whole ones are left
        split at h
        · cases h
        · rename_i b after
          split at h
          · cases h
          · rename_i hb
            rw [Bool.not_eq_true', Bool.not_eq_false] at hb
            split at h
            · rename_i htwo
              cases h
              rw [encode_two (by omega) htwo hb]
              rfl
            · split at h
              · cases h
              · rename_i c after
                split at h
                · cases h
                · rename_i hc
                  rw [Bool.not_eq_true', Bool.not_eq_false] at hc
                  split at h
                  · rename_i hthree
                    cases h
                    rw [encode_three (by omega) hthree hb hc]
                    rfl
                  · split at h
                    · cases h
                    · rename_i d after
                      split at h
                      · cases h
                      · rename_i hd
                        rw [Bool.not_eq_true', Bool.not_eq_false] at hd
                        cases h
                        rw [encode_four (by omega) (by omega) hb hc hd]
                        rfl

theorem eq_nil_of_front?_none {octets : List UInt8} (h : front? octets = none) : octets = [] := by
  cases octets with
  | nil => rfl
  | cons a rest => simp [front?] at h

/-! ## The character at the front -/

section

variable {a b c d : UInt8} (rest : List UInt8)

theorem front?_one (ha : a.toNat < 0x80) :
    front? (a :: rest) = some (.char (Char.ofNat a.toNat) rest) := by
  simp only [front?, if_pos ha]

/-- An octet that may start a longer character. -/
theorem lead_of_bounds (hlow : 0xC2 ≤ a.toNat) (hhigh : a.toNat ≤ 0xF4) :
    ¬a.toNat < 0x80 ∧ (decide (a.toNat < 0xC2) || decide (0xF4 < a.toNat)) = false := by
  refine ⟨by omega, ?_⟩
  rw [Bool.or_eq_false_iff, decide_eq_false_iff_not, decide_eq_false_iff_not]
  omega

theorem front?_two (hlow : 0xC2 ≤ a.toNat) (hhigh : a.toNat < 0xE0)
    (hb : within (secondRange a) b = true) :
    front? (a :: b :: rest) =
      some (.char (Char.ofNat ((a.toNat - 0xC0) * 64 + low6 b)) rest) := by
  obtain ⟨hlong, hlead⟩ := lead_of_bounds hlow (by omega)
  simp only [front?, hlong, hlead, hb, hhigh, Bool.not_true, Bool.false_eq_true, if_true, if_false]

theorem front?_three (hlow : 0xE0 ≤ a.toNat) (hhigh : a.toNat < 0xF0)
    (hb : within (secondRange a) b = true) (hc : within (0x80, 0xBF) c = true) :
    front? (a :: b :: c :: rest) =
      some (.char (Char.ofNat (((a.toNat - 0xE0) * 64 + low6 b) * 64 + low6 c)) rest) := by
  obtain ⟨hlong, hlead⟩ := lead_of_bounds (a := a) (by omega) (by omega)
  have htwo : ¬a.toNat < 0xE0 := by omega
  simp only [front?, hlong, hlead, hb, htwo, hc, hhigh, Bool.not_true, Bool.false_eq_true, if_true,
    if_false]

theorem front?_four (hlow : 0xF0 ≤ a.toNat) (hhigh : a.toNat ≤ 0xF4)
    (hb : within (secondRange a) b = true) (hc : within (0x80, 0xBF) c = true)
    (hd : within (0x80, 0xBF) d = true) :
    front? (a :: b :: c :: d :: rest) =
      some (.char (Char.ofNat
        ((((a.toNat - 0xF0) * 64 + low6 b) * 64 + low6 c) * 64 + low6 d)) rest) := by
  obtain ⟨hlong, hlead⟩ := lead_of_bounds (a := a) (by omega) hhigh
  have htwo : ¬a.toNat < 0xE0 := by omega
  have hthree : ¬a.toNat < 0xF0 := by omega
  simp only [front?, hlong, hlead, hb, htwo, hc, hthree, hd, Bool.not_true, Bool.false_eq_true,
    if_false]

end

theorem toNat_octet {n : Nat} (hn : n < 256) : (UInt8.ofNat n).toNat = n :=
  UInt8.toNat_ofNat_of_lt' hn

/-- The character whose octets stand at the front is read there. -/
theorem front?_encode (c : Char) (rest : List UInt8) :
    front? (String.utf8EncodeChar c ++ rest) = some (.char c rest) := by
  have hvalid : c.val.toNat.isValidChar := c.valid
  have hself : Char.ofNat c.val.toNat = c := Char.ofNat_toNat c
  have hlt : c.val.toNat < 0x110000 := by
    rcases hvalid with h | h <;> omega
  rw [encode_eq_shaped hlt]
  generalize c.val.toNat = v at *
  unfold Nat.isValidChar at hvalid
  unfold shape
  split_ifs with hone htwo hthree
  · have ha := toNat_octet (n := v) (by omega)
    simp only [shaped, following, pow_zero, Nat.div_one, Nat.add_zero, List.cons_append,
      List.nil_append]
    rw [front?_one _ (by omega), ha, hself]
  · have ha := toNat_octet (n := v / 64 + 0xc0) (by omega)
    have hb := toNat_octet (n := v % 64 + 0x80) (by omega)
    simp only [shaped, following, pow_zero, pow_one, Nat.div_one, List.cons_append,
      List.nil_append]
    rw [front?_two _ (by omega) (by omega) (by rw [within_second_iff]; omega), low6, ha, hb,
      ← hself]
    congr 3
    omega
  · have ha := toNat_octet (n := v / 4096 + 0xe0) (by omega)
    have hb := toNat_octet (n := v / 64 % 64 + 0x80) (by omega)
    have hc := toNat_octet (n := v % 64 + 0x80) (by omega)
    simp only [shaped, following, pow_zero, pow_one, Nat.reducePow, Nat.div_one, List.cons_append,
      List.nil_append]
    rw [front?_three _ (by omega) (by omega) (by rw [within_second_iff]; omega)
      (by rw [within_iff]; omega), low6, low6, ha, hb, hc, ← hself]
    congr 3
    omega
  · have ha := toNat_octet (n := v / 262144 + 0xf0) (by omega)
    have hb := toNat_octet (n := v / 4096 % 64 + 0x80) (by omega)
    have hc := toNat_octet (n := v / 64 % 64 + 0x80) (by omega)
    have hd := toNat_octet (n := v % 64 + 0x80) (by omega)
    simp only [shaped, following, pow_zero, pow_one, Nat.reducePow, Nat.div_one, List.cons_append,
      List.nil_append]
    rw [front?_four _ (by omega) (by omega) (by rw [within_second_iff]; omega)
      (by rw [within_iff]; omega) (by rw [within_iff]; omega), low6, low6, low6, ha, hb, hc, hd,
      ← hself]
    congr 3
    omega

/-! ## Whole texts -/

/-- The characters that were read have the octets that they were read from, if every octet was
looked at. -/
theorem flatMap_encode_of_strictChars {fuel index : Nat} {octets : List UInt8} {cs : List Char}
    (hfuel : octets.length ≤ fuel) (h : strictChars fuel index octets = .ok cs) :
    cs.flatMap String.utf8EncodeChar = octets := by
  induction fuel generalizing index octets cs with
  | zero =>
      cases h
      rw [List.flatMap_nil, List.eq_nil_of_length_eq_zero (Nat.le_zero.mp hfuel)]
  | succ fuel ih =>
      rw [strictChars] at h
      split at h
      · rename_i hend
        cases h
        rw [eq_nil_of_front?_none hend, List.flatMap_nil]
      · rename_i c rest hfront
        have hsplit := eq_of_front?_char hfront
        -- the character took an octet at least, so the fuel is enough for the rest
        have hpos : 0 < (String.utf8EncodeChar c).length :=
          List.length_pos_of_ne_nil String.utf8EncodeChar_ne_nil
        have hrest : rest.length ≤ fuel := by
          rw [hsplit, List.length_append] at hfuel
          omega
        cases hchars : strictChars fuel (index + c.utf8Size) rest with
        | error fault =>
            rw [hchars] at h
            cases h
        | ok more =>
            rw [hchars] at h
            cases h
            rw [List.flatMap_cons, ih hrest hchars, hsplit]
      · cases h
      · cases h

/-- A text that was read strictly has the octets that it was read from. -/
theorem octets_of_strict {bytes : List UInt8} {text : String} (h : strict bytes = .ok text) :
    octets text = bytes := by
  unfold strict at h
  cases hchars : strictChars bytes.length 0 bytes with
  | error fault =>
      rw [hchars] at h
      cases h
  | ok cs =>
      rw [hchars] at h
      cases h
      rw [octets_eq, String.toList_ofList]
      exact flatMap_encode_of_strictChars (Nat.le_refl _) hchars

theorem strictChars_flatMap_encode {fuel : Nat} (index : Nat) {cs : List Char}
    (hfuel : (cs.flatMap String.utf8EncodeChar).length ≤ fuel) :
    strictChars fuel index (cs.flatMap String.utf8EncodeChar) = .ok cs := by
  induction cs generalizing fuel index with
  | nil => cases fuel <;> rfl
  | cons c cs ih =>
      have hpos : 0 < (String.utf8EncodeChar c).length :=
        List.length_pos_of_ne_nil String.utf8EncodeChar_ne_nil
      rw [List.flatMap_cons, List.length_append] at hfuel
      obtain ⟨fuel, rfl⟩ : ∃ k, fuel = k + 1 := ⟨fuel - 1, by omega⟩
      rw [List.flatMap_cons, strictChars, front?_encode]
      have hrest : (cs.flatMap String.utf8EncodeChar).length ≤ fuel := by omega
      simp only [ih _ hrest]
      rfl

/-- A text is read strictly from its octets. -/
theorem strict_octets (s : String) : strict (octets s) = .ok s := by
  rw [strict, octets_eq, strictChars_flatMap_encode 0 (Nat.le_refl _), Except.map,
    String.ofList_toList]

end FossilRecord.Text
