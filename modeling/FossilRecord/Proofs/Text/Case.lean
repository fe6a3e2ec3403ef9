import FossilRecord.Text.Case
import FossilRecord.Text.Search
import Mathlib.Data.List.Basic

/-!
# Letter case inside a text

The lower-case form of a character is its own, whatever stands around it, with one exception: a
capital sigma that ends a word becomes the final form.  Whether it ends one is told by the nearest
characters on both sides that are not case-ignorable.  So the lower-case form of a part is found in
that of the whole wherever every capital sigma of the part ends a word there as it does in the part
alone (`StandsIn`).

`keepsSigmas_iff` states that there is no more to it: a part whose sigmas may change in some
surroundings stands in a text whose lower-case form does not have that of the part.
-/

namespace FossilRecord.Text

/-! ## The nearest character -/

section

variable {c : Char} (hc : isCaseIgnorable c = false)

include hc

/-- What stands beyond a character that is not case-ignorable does not matter. -/
theorem meetsCased_append_cons (cs rest : List Char) :
    meetsCased (cs ++ c :: rest) = meetsCased (cs ++ [c]) := by
  induction cs with
  | nil => simp [meetsCased, hc]
  | cons d cs ih =>
      cases hd : isCaseIgnorable d with
      | true => simpa [meetsCased, hd] using ih
      | false => simp [meetsCased, hd]

end

theorem meetsCased_append_of_ignorable {cs : List Char} (h : ∀ c ∈ cs, isCaseIgnorable c = true)
    (rest : List Char) : meetsCased (cs ++ rest) = meetsCased rest := by
  rw [meetsCased, List.dropWhile_append_of_pos h, meetsCased]

/-- A text that has a character that is not case-ignorable decides by itself. -/
theorem meetsCased_append_of_not_ignorable {cs : List Char}
    (h : ¬∀ c ∈ cs, isCaseIgnorable c = true) (rest : List Char) :
    meetsCased (cs ++ rest) = meetsCased cs := by
  simp only [not_forall, Bool.not_eq_true] at h
  obtain ⟨c, hmem, hc⟩ := h
  obtain ⟨front, back, rfl⟩ := List.append_of_mem hmem
  rw [List.append_assoc, List.cons_append, meetsCased_append_cons hc,
    meetsCased_append_cons hc front back]

/-- A text that meets a cased character has one that is not case-ignorable. -/
theorem meetsCased_append_of_meetsCased {cs : List Char} (h : meetsCased cs = true)
    (rest : List Char) : meetsCased (cs ++ rest) = true := by
  rw [meetsCased_append_of_not_ignorable _ rest, h]
  intro hall
  have hnil := meetsCased_append_of_ignorable hall []
  rw [List.append_nil, h] at hnil
  cases hnil

/-! ## Sigmas -/

/-- Whether a sigma between two texts, the first of them backwards, ends a word. -/
def endsWord (before after : List Char) : Bool :=
  meetsCased before && !meetsCased after

/-- The lower-case form of a capital sigma. -/
def lowerSigma (final : Bool) : Char :=
  if final then 'ς' else 'σ'

/-- The lower-case form of what stands between two texts, the first of them backwards. -/
def lowerBetween (after : List Char) : (before : List Char) → List Char → List Char
  | _, [] => []
  | before, c :: rest =>
      (if c == 'Σ' then [lowerSigma (endsWord before (rest ++ after))] else lowerChar c) ++
        lowerBetween after (c :: before) rest

theorem lowerAfter_append (before cs after : List Char) :
    lowerAfter before (cs ++ after) =
      lowerBetween after before cs ++ lowerAfter (cs.reverse ++ before) after := by
  induction cs generalizing before with
  | nil => rfl
  | cons c cs ih =>
      rw [List.cons_append, lowerAfter, lowerBetween, ih]
      simp [lowerSigma, endsWord]

theorem lowerAfter_eq (before cs : List Char) :
    lowerAfter before cs = lowerBetween [] before cs := by
  have happend := lowerAfter_append before cs []
  rwa [List.append_nil, lowerAfter, List.append_nil] at happend

theorem lowerBetween_append (after before cs rest : List Char) :
    lowerBetween after before (cs ++ rest) =
      lowerBetween (rest ++ after) before cs ++
        lowerBetween after (cs.reverse ++ before) rest := by
  induction cs generalizing before with
  | nil => rfl
  | cons c cs ih =>
      rw [List.cons_append, lowerBetween, lowerBetween, ih]
      simp

/-- Surroundings matter to the sigmas only. -/
theorem lowerBetween_congr {after after' before before' cs : List Char}
    (h : ∀ front back, cs = front ++ 'Σ' :: back →
      endsWord (front.reverse ++ before) (back ++ after) =
        endsWord (front.reverse ++ before') (back ++ after')) :
    lowerBetween after before cs = lowerBetween after' before' cs := by
  induction cs generalizing before before' with
  | nil => rfl
  | cons c cs ih =>
      rw [lowerBetween, lowerBetween, ih fun front back hsplit => ?_]
      · congr 1
        split
        · rename_i hc
          rw [beq_iff_eq] at hc
          exact congrArg (fun final => [lowerSigma final]) (h [] cs (by rw [hc]; rfl))
        · rfl
      · have hwhole := h (c :: front) back (by rw [hsplit]; rfl)
        simpa using hwhole

/-- Whether every capital sigma of a text ends a word between two others if and only if it does in
the text alone. -/
def KeepsSigmas (before cs after : List Char) : Prop :=
  ∀ front back, cs = front ++ 'Σ' :: back →
    endsWord (front.reverse ++ before.reverse) (back ++ after) = endsWord front.reverse back

/-- Whether a part stands somewhere in a text, character for character. -/
def Occurs (part s : String) : Prop :=
  ∃ before after, s.toList = before ++ part.toList ++ after

/-- Whether a part stands somewhere in a text, character for character, and every capital sigma of
the part ends a word there if and only if it does in the part alone. -/
def StandsIn (part s : String) : Prop :=
  ∃ before after, s.toList = before ++ part.toList ++ after ∧
    KeepsSigmas before part.toList after

theorem keepsSigmas_of_notMem {cs : List Char} (h : 'Σ' ∉ cs) (before after : List Char) :
    KeepsSigmas before cs after := by
  rintro front back rfl
  simp at h

/-- A part that stands in a text is found there in any case. -/
theorem contains_lower_of_standsIn {part s : String} (h : StandsIn part s) :
    contains (lower s) (lower part) = true := by
  obtain ⟨before, after, hs, hkeeps⟩ := h
  have hpart : lowerBetween after before.reverse part.toList = lowerChars part.toList := by
    rw [lowerChars, lowerAfter_eq]
    refine lowerBetween_congr fun front back hsplit => ?_
    rw [hkeeps front back hsplit, List.append_nil, List.append_nil]
  rw [contains, occursIn_iff, lower, lower, String.toList_ofList, String.toList_ofList, hs]
  refine ⟨lowerBetween (part.toList ++ after) [] before,
    lowerAfter (part.toList.reverse ++ before.reverse) after, ?_⟩
  rw [← hpart, lowerChars, List.append_assoc, lowerAfter_append, lowerAfter_append,
    List.append_nil, List.append_assoc]

/-! ## Parts that surroundings change -/

theorem not_isCaseIgnorable_sigma : isCaseIgnorable 'Σ' = false := by decide +kernel

/-- Beside a capital sigma neither side depends on the other. -/
theorem lowerBetween_sigma (after before front back : List Char) :
    lowerBetween after before (front ++ 'Σ' :: back) =
      lowerBetween ['Σ'] before front ++
        lowerSigma (endsWord (front.reverse ++ before) (back ++ after)) ::
          lowerBetween after ['Σ'] back := by
  have hfront : lowerBetween ('Σ' :: back ++ after) before front =
      lowerBetween ['Σ'] before front := by
    refine lowerBetween_congr fun u v _ => ?_
    rw [endsWord, endsWord, List.cons_append, meetsCased_append_cons not_isCaseIgnorable_sigma]
  have hback : lowerBetween after ('Σ' :: (front.reverse ++ before)) back =
      lowerBetween after ['Σ'] back := by
    refine lowerBetween_congr fun u v _ => ?_
    rw [endsWord, endsWord, meetsCased_append_cons not_isCaseIgnorable_sigma]
  rw [lowerBetween_append, hfront, lowerBetween, hback]
  rfl

theorem lowerBetween_of_ignorable {cs : List Char} (h : ∀ c ∈ cs, isCaseIgnorable c = true)
    (after after' before before' : List Char) :
    lowerBetween after before cs = lowerBetween after' before' cs := by
  refine lowerBetween_congr fun front back hsplit => ?_
  -- a sigma is not case-ignorable
  have hsigma := h 'Σ' (by simp [hsplit])
  rw [not_isCaseIgnorable_sigma] at hsigma
  cases hsigma

theorem lowerChars_sigma (front back : List Char) :
    lowerChars (front ++ 'Σ' :: back) =
      lowerBetween ['Σ'] [] front ++
        lowerSigma (endsWord front.reverse back) :: lowerBetween [] ['Σ'] back := by
  rw [lowerChars, lowerAfter_eq, lowerBetween_sigma, List.append_nil, List.append_nil]

/-- A letter behind a part whose last sigma would be final without it. -/
theorem lowerChars_sigma_letter {front back : List Char}
    (hback : ∀ c ∈ back, isCaseIgnorable c = true) :
    lowerChars (front ++ 'Σ' :: back ++ ['A']) =
      lowerBetween ['Σ'] [] front ++ 'σ' :: lowerBetween [] ['Σ'] back ++ ['a'] := by
  have hletter : endsWord (front.reverse ++ []) (back ++ ['A']) = false := by
    rw [endsWord, meetsCased_append_of_ignorable hback, Bool.and_eq_false_iff]
    exact .inr (by decide +kernel)
  rw [lowerChars, lowerAfter_append, lowerBetween_sigma, hletter,
    lowerBetween_of_ignorable hback ['A'] []]
  rfl

/-- A letter before a part whose first sigma is final behind it. -/
theorem lowerChars_letter_sigma {front back : List Char}
    (hfront : ∀ c ∈ front, isCaseIgnorable c = true) (hback : meetsCased back = false) :
    lowerChars ('A' :: (front ++ 'Σ' :: back)) =
      'a' :: (lowerBetween ['Σ'] [] front ++ 'ς' :: lowerBetween [] ['Σ'] back) := by
  have hletter : endsWord (front.reverse ++ ['A']) (back ++ []) = true := by
    rw [endsWord, meetsCased_append_of_ignorable (by simpa using hfront), List.append_nil, hback]
    decide +kernel
  have hfirst : lowerChars ('A' :: (front ++ 'Σ' :: back)) =
      'a' :: lowerAfter ['A'] (front ++ 'Σ' :: back) := rfl
  rw [hfirst, lowerAfter_eq, lowerBetween_sigma, hletter,
    lowerBetween_of_ignorable hfront ['Σ'] ['Σ'] ['A'] []]
  rfl

/-- The lower-case form of a text that has some character less often than that of a part does not
have the part. -/
theorem contains_lower_of_count_lt {part s : String} (c : Char)
    (h : (lowerChars s.toList).count c < (lowerChars part.toList).count c) :
    contains (lower s) (lower part) = false := by
  rw [Bool.eq_false_iff, Ne, contains, occursIn_iff, lower, lower, String.toList_ofList,
    String.toList_ofList]
  rintro ⟨before, after, hsplit⟩
  rw [hsplit, List.count_append, List.count_append] at h
  omega

/-- A part whose sigmas some surroundings change stands in a text without being found there. -/
theorem exists_occurs_not_contains {part : String} {before after : List Char}
    (h : ¬KeepsSigmas before part.toList after) :
    ∃ s, Occurs part s ∧ contains (lower s) (lower part) = false := by
  simp only [KeepsSigmas, not_forall] at h
  obtain ⟨front, back, hsplit, hchanged⟩ := h
  cases halone : endsWord front.reverse back with
  | true =>
      -- only a cased character behind the sigma, beyond what is case-ignorable, takes this away
      have hboth := halone
      rw [endsWord, Bool.and_eq_true, Bool.not_eq_true'] at hboth
      have hback : ∀ c ∈ back, isCaseIgnorable c = true := by
        by_contra hnot
        refine hchanged ?_
        rw [halone, endsWord, meetsCased_append_of_meetsCased hboth.1,
          meetsCased_append_of_not_ignorable hnot, hboth.2]
        rfl
      refine ⟨String.ofList (part.toList ++ ['A']), ⟨[], ['A'], by simp⟩,
        contains_lower_of_count_lt 'ς' ?_⟩
      rw [String.toList_ofList, hsplit, lowerChars_sigma_letter hback, lowerChars_sigma, halone]
      simp [lowerSigma]
  | false =>
      -- only a cased character before the sigma, beyond what is case-ignorable, makes it final
      rw [halone, Bool.not_eq_false, endsWord, Bool.and_eq_true, Bool.not_eq_true'] at hchanged
      obtain ⟨hbefore, hafter⟩ := hchanged
      have hback : meetsCased back = false := by
        by_contra hmeets
        rw [Bool.not_eq_false] at hmeets
        rw [meetsCased_append_of_meetsCased hmeets] at hafter
        cases hafter
      have hfront : ∀ c ∈ front, isCaseIgnorable c = true := by
        by_contra hnot
        rw [meetsCased_append_of_not_ignorable (by simpa using hnot)] at hbefore
        rw [endsWord, hbefore, hback] at halone
        cases halone
      refine ⟨String.ofList ('A' :: part.toList), ⟨['A'], [], by simp⟩,
        contains_lower_of_count_lt 'σ' ?_⟩
      rw [String.toList_ofList, hsplit, lowerChars_letter_sigma hfront hback, lowerChars_sigma,
        halone]
      simp [lowerSigma]

/-- The sigmas of a part are the same in all surroundings if and only if the part is found in every
text in which it stands. -/
theorem keepsSigmas_iff (part : String) :
    (∀ before after, KeepsSigmas before part.toList after) ↔
      ∀ s, Occurs part s → contains (lower s) (lower part) = true := by
  constructor
  · rintro hkeeps s ⟨before, after, hs⟩
    exact contains_lower_of_standsIn ⟨before, after, hs, hkeeps before after⟩
  · intro hfound before after
    by_contra hnot
    obtain ⟨s, hs, hmissed⟩ := exists_occurs_not_contains hnot
    rw [hfound s hs] at hmissed
    cases hmissed

end FossilRecord.Text
