import FossilRecord.Proofs.Store.Reading
import FossilRecord.Proofs.Text.Blank

/-!
# Names that lead to their own project

A name is trimmed before it is looked up, while a project keeps the name that it was registered
with.  A project is therefore found under its own name if that name is plain: not empty, and without
blanks at its ends.  Any other name may lead to some other project, but never to its own.
-/

namespace FossilRecord.Store

/-- Whether a name is not empty and has no blanks at its ends. -/
def IsPlain (name : String) : Prop :=
  name ≠ "" ∧ Text.trim name = name

instance (name : String) : Decidable (IsPlain name) := inferInstanceAs (Decidable (_ ∧ _))

section

variable {s : Store} {name : String}

theorem text_of_textSatisfies {test : String → Bool} {c : Cell}
    (h : textSatisfies test c = true) : ∃ own, c = .text own ∧ test own = true := by
  cases c with
  | text own => exact ⟨own, rfl, h⟩
  | null | integer | real => cases h

/-- A row is found strictly by its own name or by that name in another case. -/
theorem name_of_projectRow? {r : ProjectRow} (h : s.projectRow? name .strict = some r) :
    ∃ own, r.name = .text own ∧ Text.foldAscii own = Text.foldAscii name := by
  unfold projectRow? at h
  simp only at h
  rcases orElse_eq_some h with hexact | h
  · exact ⟨name, by simpa using List.find?_some hexact, rfl⟩
  · rcases orElse_eq_some h with hcase | hnone
    · have htest := (List.mem_filter.mp (mem_of_head?_orderBy hcase)).2
      obtain ⟨own, hown, hsame⟩ := text_of_textSatisfies htest
      exact ⟨own, hown, of_decide_eq_true hsame⟩
    · cases hnone

/-- A row is found, strictly or not, by a part of its name in any case. -/
theorem contains_of_projectRow? {mode : ProjectLookup} {r : ProjectRow}
    (h : s.projectRow? name mode = some r) :
    ∃ own, r.name = .text own ∧
      Text.contains (Text.foldAscii own) (Text.foldAscii name) = true := by
  have hself : ∀ own, Text.foldAscii own = Text.foldAscii name →
      Text.contains (Text.foldAscii own) (Text.foldAscii name) = true := by
    intro own hsame
    rw [hsame, Text.contains, Text.occursIn_iff]
    exact ⟨[], [], by simp⟩
  unfold projectRow? at h
  simp only at h
  rcases orElse_eq_some h with hexact | h
  · exact ⟨name, by simpa using List.find?_some hexact, hself name rfl⟩
  · rcases orElse_eq_some h with hcase | hpart
    · have htest := (List.mem_filter.mp (mem_of_head?_orderBy hcase)).2
      obtain ⟨own, hown, hsame⟩ := text_of_textSatisfies htest
      exact ⟨own, hown, hself own (of_decide_eq_true hsame)⟩
    · cases mode with
      | strict => cases hpart
      | fuzzy =>
          have htest := (List.mem_filter.mp (mem_of_head?_orderBy hpart)).2
          exact text_of_textSatisfies htest

/-- A row with exactly a name is what the name leads to. -/
theorem projectRow?_self (hnames : s.DistinctProjectNames) {r : ProjectRow} (hr : r ∈ s.projects)
    (hname : r.name = .text name) : s.projectRow? name .strict = some r := by
  have hall : s.projects.filter (isVisible .strict) = s.projects :=
    List.filter_eq_self.mpr fun _ _ => rfl
  -- there is a row of that name, and there is no other
  have hexact : s.projects.find? (fun q => q.name = .text name) = some r :=
    (find?_key_eq_some hnames).mpr ⟨hr, hname⟩
  unfold projectRow?
  simp only
  rw [hall, hexact]
  rfl

end

namespace Sound

variable {past : List Step} {s : Store} {name : String} {project : Project}

/-- The name of a project that was found strictly is the trimmed name, up to case. -/
theorem foldAscii_of_findProject (h : Sound past s)
    (hfound : s.findProject name .strict = .ok (some project)) :
    Text.foldAscii project.name = Text.foldAscii (Text.trim name) := by
  obtain ⟨-, hrow, -⟩ := h.legible.row_of_findProject hfound
  obtain ⟨own, hown, hfold⟩ := name_of_projectRow? hrow
  cases hown
  exact hfold

/-- A project that was found has a name that is not empty. -/
theorem name_ne_empty_of_findProject (h : Sound past s) {mode : ProjectLookup}
    (hfound : s.findProject name mode = .ok (some project)) : project.name ≠ "" := by
  obtain ⟨hname, hrow, -⟩ := h.legible.row_of_findProject hfound
  obtain ⟨own, hown, hpart⟩ := contains_of_projectRow? hrow
  obtain rfl : project.name = own := Cell.text.inj hown
  intro hempty
  rw [Text.contains, Text.occursIn_iff] at hpart
  obtain ⟨before, after, hsplit⟩ := hpart
  -- a part is not longer than the whole
  have hlength := congrArg List.length hsplit
  rw [List.length_append, List.length_append, String.length_toList, String.length_toList,
    Text.foldAscii_length, Text.foldAscii_length, hempty, String.length_empty] at hlength
  have hzero : (Text.trim name).length = 0 := by omega
  exact hname (String.length_eq_zero_iff.mp hzero)

/-- A project that was found strictly has a plain name. -/
theorem isPlain_of_findProject (h : Sound past s)
    (hfound : s.findProject name .strict = .ok (some project)) : IsPlain project.name := by
  have hfold := h.foldAscii_of_findProject hfound
  obtain ⟨hname, -, -⟩ := h.legible.row_of_findProject hfound
  refine ⟨?_, Text.trim_eq_self_of_foldAscii hfold⟩
  intro hempty
  have hlength := Text.length_eq_of_foldAscii hfold
  rw [hempty, String.length_empty] at hlength
  exact hname (String.length_eq_zero_iff.mp hlength.symm)

/-- A project with a plain name is found under that name. -/
theorem findProject_self (h : Sound past s) {r : ProjectRow} (hr : r ∈ s.projects)
    (hname : r.name = .text name) (hplain : IsPlain name) :
    ∃ p, r = projectRow p ∧ s.findProject name .strict = .ok (some p) := by
  obtain ⟨p, rfl, hp⟩ := h.legible.projects r hr
  refine ⟨p, rfl, findProject_of_row ?_ ?_ hp⟩
  · rw [hplain.2]
    exact hplain.1
  · rw [hplain.2]
    exact projectRow?_self h.coherent.projectNames hr hname

/-- A name with blanks at its ends never leads strictly to the project that has it. -/
theorem name_ne_of_findProject (h : Sound past s) (hnot : ¬IsPlain name)
    (hfound : s.findProject name .strict = .ok (some project)) : project.name ≠ name := by
  intro hname
  exact hnot (hname ▸ h.isPlain_of_findProject hfound)

/-- A project is known by its identifier. -/
theorem eq_of_projectId (h : Sound past s) {p q : ProjectRow} (hp : p ∈ s.projects)
    (hq : q ∈ s.projects) (hid : p.projectId = q.projectId) : p = q :=
  List.inj_on_of_nodup_map h.coherent.projectIds hp hq hid

end Sound

end FossilRecord.Store
