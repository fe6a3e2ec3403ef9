import FossilRecord.Text.Blank

/-!
# Words with one space between them

Collapsing the blanks of a text gives its words with one space between any two of them, and takes
away no other character.
-/

namespace FossilRecord.Text

/-- The characters that are no blanks. -/
def bare (cs : List Char) : List Char :=
  cs.filter fun c => !isBlank c

@[simp] theorem bare_append (cs ds : List Char) : bare (cs ++ ds) = bare cs ++ bare ds :=
  List.filter_append ..

theorem mem_bare {c : Char} {cs : List Char} : c ∈ bare cs ↔ c ∈ cs ∧ isBlank c = false := by
  simp [bare]

theorem bare_eq_self {cs : List Char} (h : ∀ c ∈ cs, isBlank c = false) : bare cs = cs :=
  List.filter_eq_self.mpr (by simpa using h)

/-- A word: some characters, and no blank among them. -/
structure IsWord (w : List Char) : Prop where
  ne_nil : w ≠ []
  solid : ∀ c ∈ w, isBlank c = false

/-- Whether a text consists of words with one space between any two of them, so that it has no
blanks at its ends and none after another one. -/
def IsCollapsed (cs : List Char) : Prop :=
  ∃ ws : List (List Char), cs = [' '].intercalate ws ∧ ∀ w ∈ ws, IsWord w

/-- The words are words, and between them there are only blanks. -/
theorem wordsFrom_spec {word : List Char} (hword : ∀ c ∈ word, isBlank c = false)
    (cs : List Char) :
    (∀ w ∈ wordsFrom word cs, IsWord w) ∧
      (wordsFrom word cs).flatten = word.reverse ++ bare cs := by
  have hdone : word ≠ [] → IsWord word.reverse :=
    fun hne => ⟨by simpa using hne, by simpa using hword⟩
  induction cs generalizing word with
  | nil =>
      cases word with
      | nil => exact ⟨by simp [wordsFrom], rfl⟩
      | cons c word => exact ⟨by simpa [wordsFrom] using hdone, by simp [wordsFrom, bare]⟩
  | cons c cs ih =>
      cases hc : isBlank c with
      | true =>
          obtain ⟨hwords, hflat⟩ := ih (List.forall_mem_nil _) (by simp)
          cases word with
          | nil => simpa [wordsFrom, hc, bare] using ⟨hwords, hflat⟩
          | cons d word =>
              have hstep : wordsFrom (d :: word) (c :: cs) =
                  (d :: word).reverse :: wordsFrom [] cs := by simp [wordsFrom, hc]
              rw [hstep, List.flatten_cons, hflat]
              refine ⟨?_, by simp [bare, hc]⟩
              rintro w (_ | ⟨_, hw⟩)
              · exact hdone (by simp)
              · exact hwords w hw
      | false =>
          have hlonger : ∀ d ∈ c :: word, isBlank d = false := by simpa [hc] using hword
          have hstep : wordsFrom word (c :: cs) = wordsFrom (c :: word) cs := by
            simp [wordsFrom, hc]
          obtain ⟨hwords, hflat⟩ := ih hlonger fun _ => ⟨by simp, by simpa [or_comm] using hlonger⟩
          rw [hstep]
          exact ⟨hwords, by rw [hflat]; simp [bare, hc]⟩

theorem bare_intercalate (ws : List (List Char)) :
    bare ([' '].intercalate ws) = (ws.map bare).flatten := by
  induction ws with
  | nil => rfl
  | cons w ws ih =>
      cases ws with
      | nil => simp [List.intercalate]
      | cons v ws =>
          have hspace : bare [' '] = [] := rfl
          rw [List.intercalate_cons_cons, bare_append, bare_append, ih, hspace]
          simp

theorem isCollapsed_collapse (cs : List Char) : IsCollapsed (collapse cs) :=
  ⟨words cs, rfl, (wordsFrom_spec (by simp) cs).1⟩

/-- Collapsing the blanks changes nothing else. -/
theorem bare_collapse (cs : List Char) : bare (collapse cs) = bare cs := by
  obtain ⟨hwords, hflat⟩ := wordsFrom_spec (List.forall_mem_nil _) cs
  have hsame : (words cs).map bare = words cs :=
    (List.map_congr_left fun w hw => bare_eq_self (hwords w hw).solid).trans (List.map_id' _)
  rw [collapse, bare_intercalate, hsame]
  exact hflat

end FossilRecord.Text
