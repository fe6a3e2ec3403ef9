import FossilRecord.Text.Blank
import FossilRecord.Text.Case
import Mathlib.Data.List.DropRight

/-!
# Blanks at the ends and letters in any case

Trimming a text twice trims it once, and blanks around a text do not matter to what is left of it.  A
text is as long in any case, and has blanks at its ends in any case or in none, so that a text which
is trimmed up to case is trimmed.
-/

namespace FossilRecord.Text

/-! ## Trimming -/

theorem dropBlanks_cons {c : Char} (hc : isBlank c = false) (cs : List Char) :
    dropBlanks (c :: cs) = c :: cs :=
  List.dropWhile_cons_of_neg (by simp [hc])

theorem dropBlanksEnd_cons {c : Char} (hc : isBlank c = false) (cs : List Char) :
    dropBlanksEnd (c :: cs) = c :: dropBlanksEnd cs := by
  rw [dropBlanksEnd, dropBlanksEnd, List.reverse_cons, List.dropWhile_append]
  split
  · rename_i hempty
    rw [List.isEmpty_iff] at hempty
    simp [hempty, List.dropWhile_cons_of_neg, hc]
  · simp

theorem dropBlanksEnd_idem (cs : List Char) :
    dropBlanksEnd (dropBlanksEnd cs) = dropBlanksEnd cs := by
  rw [dropBlanksEnd, dropBlanksEnd, List.reverse_reverse, List.dropWhile_idempotent]

/-- What is left of a text is nothing, or starts with something other than a blank. -/
theorem dropBlanks_cases (cs : List Char) :
    dropBlanks cs = [] ∨ ∃ c rest, dropBlanks cs = c :: rest ∧ isBlank c = false := by
  induction cs with
  | nil => exact .inl rfl
  | cons c cs ih =>
      cases hc : isBlank c with
      | true =>
          have hdrop : dropBlanks (c :: cs) = dropBlanks cs := List.dropWhile_cons_of_pos hc
          rwa [hdrop]
      | false => exact .inr ⟨c, cs, dropBlanks_cons hc cs, hc⟩

theorem trimChars_idem (cs : List Char) : trimChars (trimChars cs) = trimChars cs := by
  rcases dropBlanks_cases cs with hnil | ⟨c, rest, hcons, hc⟩
  · rw [trimChars, trimChars, hnil]
    rfl
  · rw [trimChars, trimChars, hcons, dropBlanksEnd_cons hc, dropBlanks_cons hc,
      dropBlanksEnd_cons hc, dropBlanksEnd_idem]

theorem trim_idem (s : String) : trim (trim s) = trim s := by
  rw [trim, trim, String.toList_ofList, trimChars_idem]

theorem trimChars_sublist (cs : List Char) : (trimChars cs).Sublist cs := by
  rw [trimChars, dropBlanksEnd, ← List.reverse_sublist, List.reverse_reverse]
  exact (List.dropWhile_sublist _).trans (List.dropWhile_sublist _).reverse

/-- Trimming that changes a text makes it shorter. -/
theorem trim_eq_self_of_length {s : String} (h : (trim s).length = s.length) : trim s = s := by
  rw [trim, String.length_ofList, ← String.length_toList] at h
  rw [trim, (trimChars_sublist s.toList).eq_of_length h, String.ofList_toList]

/-! ## Blanks around a text -/

/-- Blanks at the end of a text do not count. -/
theorem dropBlanksEnd_append_blanks {after : List Char} (hafter : ∀ c ∈ after, isBlank c = true)
    (cs : List Char) : dropBlanksEnd (cs ++ after) = dropBlanksEnd cs := by
  have hreverse : ∀ c ∈ after.reverse, isBlank c = true := by simpa using hafter
  rw [dropBlanksEnd, List.reverse_append, List.dropWhile_append_of_pos hreverse]
  rfl

/-- A text that does not end in a blank is kept to its end. -/
theorem dropBlanksEnd_eq_self {cs : List Char} (h : ∀ c ∈ cs.getLast?, isBlank c = false) :
    dropBlanksEnd cs = cs := by
  apply List.rdropWhile_eq_self_iff.mpr
  intro hne
  rw [h _ (List.getLast?_eq_some_getLast hne)]
  decide

/-- What is left of a text does not end in a blank. -/
theorem isBlank_getLast_dropBlanksEnd {cs : List Char} {c : Char}
    (h : c ∈ (dropBlanksEnd cs).getLast?) : isBlank c = false := by
  obtain ⟨hne, hlast⟩ := List.mem_getLast?_eq_getLast h
  have hkept : ¬isBlank ((dropBlanksEnd cs).getLast hne) = true :=
    List.rdropWhile_last_not isBlank cs hne
  rw [hlast]
  simpa using hkept

/-- Of a text and another one behind it, which is not blank, only the latter is cut. -/
theorem dropBlanksEnd_append {back : List Char} (hback : dropBlanksEnd back ≠ [])
    (front : List Char) : dropBlanksEnd (front ++ back) = front ++ dropBlanksEnd back := by
  have hsplit : front ++ back = (front ++ dropBlanksEnd back) ++ back.rtakeWhile isBlank := by
    rw [List.append_assoc]
    exact congrArg (front ++ ·) List.rdropWhile_append_rtakeWhile.symm
  rw [hsplit, dropBlanksEnd_append_blanks fun c hc => List.mem_rtakeWhile_imp hc]
  apply dropBlanksEnd_eq_self
  intro c hc
  rw [List.getLast?_append_of_ne_nil _ hback] at hc
  exact isBlank_getLast_dropBlanksEnd hc

/-- Blanks around a text do not count. -/
theorem trimChars_append_blanks {before after : List Char}
    (hbefore : ∀ c ∈ before, isBlank c = true) (hafter : ∀ c ∈ after, isBlank c = true)
    (cs : List Char) : trimChars (before ++ cs ++ after) = trimChars cs := by
  rw [trimChars, dropBlanks, List.append_assoc, List.dropWhile_append_of_pos hbefore]
  rcases dropBlanks_cases cs with hnil | ⟨c, rest, hcons, -⟩
  · -- there are only blanks, so all of the text goes from the front
    have hall : ∀ c ∈ cs, isBlank c = true := List.dropWhile_eq_nil_iff.mp hnil
    rw [List.dropWhile_append_of_pos hall, trimChars, hnil, List.dropWhile_eq_nil_iff.mpr hafter]
  · have hfront : (cs ++ after).dropWhile isBlank = dropBlanks cs ++ after := by
      rw [dropBlanks] at hcons ⊢
      rw [List.dropWhile_append, hcons]
      rfl
    rw [hfront, dropBlanksEnd_append_blanks hafter, trimChars]

/-- Trimming the end first changes nothing. -/
theorem trimChars_dropBlanksEnd (cs : List Char) : trimChars (dropBlanksEnd cs) = trimChars cs := by
  have hsplit : cs = [] ++ dropBlanksEnd cs ++ cs.rtakeWhile isBlank :=
    List.rdropWhile_append_rtakeWhile.symm
  conv_rhs => rw [hsplit]
  rw [trimChars_append_blanks (by simp) fun c hc => List.mem_rtakeWhile_imp hc]

/-- What trimming leaves does not start with a blank. -/
theorem isBlank_head_trimChars {cs : List Char} {c : Char} (h : c ∈ (trimChars cs).head?) :
    isBlank c = false := by
  rcases dropBlanks_cases cs with hnil | ⟨first, rest, hcons, hfirst⟩
  · rw [trimChars, hnil] at h
    cases h
  · rw [trimChars, hcons, dropBlanksEnd_cons hfirst, List.head?_cons, Option.mem_some_iff] at h
    rwa [← h]

theorem trimChars_isInfix (cs : List Char) : trimChars cs <:+: cs :=
  (List.rdropWhile_prefix isBlank _).isInfix.trans (List.dropWhile_suffix isBlank).isInfix

/-! ## Case -/

/-- What trimming leaves depends on where the blanks are. -/
theorem trimChars_map {f : Char → Char} (hf : ∀ c, isBlank (f c) = isBlank c) (cs : List Char) :
    trimChars (cs.map f) = (trimChars cs).map f := by
  have hblank : isBlank ∘ f = isBlank := funext hf
  rw [trimChars, dropBlanks, dropBlanksEnd, List.dropWhile_map, hblank, ← List.map_reverse,
    List.dropWhile_map, hblank, ← List.map_reverse]
  rfl

theorem isBlank_of_letter {c : Char} (hlow : 65 ≤ c.toNat) (hhigh : c.toNat ≤ 122) :
    isBlank c = false := by
  simp only [isBlank, Bool.or_eq_false_iff, Bool.and_eq_false_iff, decide_eq_false_iff_not,
    beq_eq_false_iff_ne]
  omega

/-- No letter is a blank, so lowering letters makes and takes none. -/
theorem isBlank_toLower (c : Char) : isBlank c.toLower = isBlank c := by
  by_cases hc : c.val ≥ 'A'.val ∧ c.val ≤ 'Z'.val
  · have hlow : 65 ≤ c.toNat := UInt32.le_iff_toNat_le.mp hc.1
    have hhigh : c.toNat ≤ 90 := UInt32.le_iff_toNat_le.mp hc.2
    have hlower : c.toLower.toNat = c.toNat + 32 := by
      have hval : c.toLower.val = c.val + ('a'.val - 'A'.val) :=
        congrArg Char.val (dif_pos hc)
      have hsum := congrArg UInt32.toNat hval
      rw [UInt32.toNat_add] at hsum
      have hdiff : ('a'.val - 'A'.val).toNat = 32 := by decide
      rw [hdiff] at hsum
      change c.toLower.toNat = (c.toNat + 32) % 2 ^ 32 at hsum
      omega
    rw [isBlank_of_letter hlow (by omega), isBlank_of_letter (by omega) (by omega)]
  · exact congrArg isBlank (dif_neg hc)

theorem foldAscii_length (s : String) : (foldAscii s).length = s.length := by
  rw [foldAscii, String.length_ofList, List.length_map, String.length_toList]

theorem trim_foldAscii (s : String) : trim (foldAscii s) = foldAscii (trim s) := by
  rw [trim, foldAscii, foldAscii, trim, String.toList_ofList, String.toList_ofList,
    trimChars_map isBlank_toLower]

/-- Texts that are the same up to case are of one length. -/
theorem length_eq_of_foldAscii {s t : String} (h : foldAscii s = foldAscii t) :
    s.length = t.length := by
  rw [← foldAscii_length, h, foldAscii_length]

/-- A text that is trimmed up to case is trimmed. -/
theorem trim_eq_self_of_foldAscii {s t : String} (h : foldAscii s = foldAscii (trim t)) :
    trim s = s := by
  apply trim_eq_self_of_length
  apply length_eq_of_foldAscii
  rw [← trim_foldAscii, h, trim_foldAscii, trim_idem]

end FossilRecord.Text
