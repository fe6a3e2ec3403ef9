import FossilRecord.Proofs.Store.Addressing
import FossilRecord.Proofs.Store.Resolution

/-!
# Names that are known alike

A lookup leads from a name to some project or to none.  Which project it is depends on how the name
is written, since a project with exactly that name comes first, but whether there is one does not:
it depends on the name without the blanks at its ends and with the letters A to Z in lower case, and
on nothing less (`sameName_iff`).

Only those letters are folded.  Names that differ in the case of another letter are different, and a
project that is registered with one of them is not found by the other.
-/

namespace FossilRecord

namespace Text

/-! ## Texts that contain each other -/

theorem contains_self (s : String) : contains s s = true := by
  rw [contains, occursIn_iff]
  exact ⟨[], [], by simp⟩

theorem length_le_of_contains {s part : String} (h : contains s part = true) :
    part.length ≤ s.length := by
  rw [contains, occursIn_iff] at h
  obtain ⟨before, after, hsplit⟩ := h
  have hlength := congrArg List.length hsplit
  rw [List.length_append, List.length_append, String.length_toList, String.length_toList]
    at hlength
  omega

/-- Texts that contain each other are the same. -/
theorem eq_of_contains {s t : String} (hst : contains s t = true)
    (hts : contains t s = true) : s = t := by
  have hlength := length_le_of_contains hts
  rw [contains, occursIn_iff] at hst
  obtain ⟨before, after, hsplit⟩ := hst
  have hsum := congrArg List.length hsplit
  rw [List.length_append, List.length_append, String.length_toList, String.length_toList] at hsum
  have hbefore : before = [] := List.eq_nil_of_length_eq_zero (by omega)
  have hafter : after = [] := List.eq_nil_of_length_eq_zero (by omega)
  apply String.toList_inj.mp
  rw [hsplit, hbefore, hafter, List.nil_append, List.append_nil]

end Text

namespace Store

/-- Whether two names are the same up to blanks at their ends and the case of the letters A to Z. -/
def SameName (a b : String) : Prop :=
  Text.foldAscii (Text.trim a) = Text.foldAscii (Text.trim b)

instance (a b : String) : Decidable (SameName a b) := inferInstanceAs (Decidable (_ = _))

/-- Whether a lookup leads from a name to a project. -/
def Knows (s : Store) (mode : ProjectLookup) (name : String) : Prop :=
  ∃ p, s.findProject name mode = .ok (some p)

/-- Whether a lookup for a name accepts a project of another name, in one way or another. -/
def Accepts : ProjectLookup → (own wanted : String) → Prop
  | .strict, own, wanted => Text.foldAscii own = Text.foldAscii wanted
  | .fuzzy, own, wanted => Text.contains (Text.foldAscii own) (Text.foldAscii wanted) = true

/-! ## What a lookup accepts -/

section

variable {mode : ProjectLookup} {own wanted : String}

theorem accepts_of_foldAscii (h : Text.foldAscii own = Text.foldAscii wanted) :
    Accepts mode own wanted := by
  cases mode with
  | strict => exact h
  | fuzzy =>
      rw [Accepts, h]
      exact Text.contains_self _

theorem accepts_congr {other : String} (h : Text.foldAscii wanted = Text.foldAscii other) :
    Accepts mode own wanted ↔ Accepts mode own other := by
  cases mode <;> rw [Accepts, Accepts, h]

/-- Names that a lookup accepts for each other are the same. -/
theorem foldAscii_eq_of_accepts (h : Accepts mode own wanted) (hback : Accepts mode wanted own) :
    Text.foldAscii own = Text.foldAscii wanted := by
  cases mode with
  | strict => exact h
  | fuzzy => exact Text.eq_of_contains h hback

end

/-! ## What is known -/

section

variable {past : List Step} {s : Store} {mode : ProjectLookup} {wanted : String}

/-- Nothing is found first only where there is nothing. -/
theorem eq_nil_of_head?_orderBy {α : Type} {key : α → List Cell} {rows : List α}
    (h : (orderBy key rows).head? = none) : rows = [] := by
  rw [List.head?_eq_none_iff] at h
  exact List.perm_nil.mp (h ▸ (orderBy_perm key rows).symm)

/-- A project with a name that is the same up to case is found, or another one of that kind. -/
theorem projectRow?_of_foldAscii {r : ProjectRow} (hr : s.Offers mode r) {own : String}
    (hown : r.name = .text own) (hfold : Text.foldAscii own = Text.foldAscii wanted) :
    ∃ q other, s.projectRow? wanted mode = some q ∧ q.name = .text other ∧
      Text.foldAscii other = Text.foldAscii wanted := by
  let visible := s.projects.filter (isVisible mode)
  let matching := visible.filter fun q =>
    textSatisfies (fun n => Text.foldAscii n = Text.foldAscii wanted) q.name
  have hmem : r ∈ matching := by
    refine List.mem_filter.mpr ⟨mem_visible_iff.mpr hr, ?_⟩
    rw [hown]
    exact decide_eq_true hfold
  unfold projectRow?
  simp only
  cases hexact : visible.find? fun q => q.name = .text wanted with
  | some q => exact ⟨q, wanted, rfl, by simpa using List.find?_some hexact, rfl⟩
  | none =>
      cases hcase : (orderBy (fun q => [ProjectRow.name q]) matching).head? with
      | none =>
          rw [eq_nil_of_head?_orderBy hcase] at hmem
          cases hmem
      | some q =>
          have htest := (List.mem_filter.mp (mem_of_head?_orderBy hcase)).2
          obtain ⟨other, hother, hsame⟩ := text_of_textSatisfies htest
          exact ⟨q, other, rfl, hother, of_decide_eq_true hsame⟩

/-- A row is found exactly where there is one that the lookup offers and accepts. -/
theorem isSome_projectRow? : (s.projectRow? wanted mode).isSome = true ↔
    ∃ r own, s.Offers mode r ∧ r.name = .text own ∧ Accepts mode own wanted := by
  constructor
  · intro h
    obtain ⟨r, hr⟩ := Option.isSome_iff_exists.mp h
    have hoffers := mem_visible_iff.mp (mem_visible_of_projectRow? hr)
    cases mode with
    | strict =>
        obtain ⟨own, hown, hfold⟩ := name_of_projectRow? hr
        exact ⟨r, own, hoffers, hown, hfold⟩
    | fuzzy =>
        obtain ⟨own, hown, hpart⟩ := contains_of_projectRow? hr
        exact ⟨r, own, hoffers, hown, hpart⟩
  · rintro ⟨r, own, hoffers, hown, haccepts⟩
    cases mode with
    | strict =>
        obtain ⟨q, -, hq, -⟩ := projectRow?_of_foldAscii hoffers hown haccepts
        rw [hq]
        rfl
    | fuzzy =>
        rw [Option.isSome_iff_ne_none]
        intro hnone
        unfold projectRow? at hnone
        simp only at hnone
        -- that no way gives a row means that the last one accepts none
        have hnext := (Option.orElse_eq_none _ _).mp ((Option.orElse_eq_none _ _).mp hnone).2
        have hpart := eq_nil_of_head?_orderBy hnext.2
        have htest := List.filter_eq_nil_iff.mp hpart r (mem_visible_iff.mpr hoffers)
        rw [hown] at htest
        exact htest haccepts

theorem Sound.knows_iff (h : Sound past s) (name : String) : s.Knows mode name ↔
    Text.trim name ≠ "" ∧
      ∃ r own, s.Offers mode r ∧ r.name = .text own ∧ Accepts mode own (Text.trim name) := by
  rw [← isSome_projectRow?]
  constructor
  · rintro ⟨p, hp⟩
    obtain ⟨hname, hrow, -⟩ := h.legible.row_of_findProject hp
    exact ⟨hname, by rw [hrow]; rfl⟩
  · rintro ⟨hname, hsome⟩
    obtain ⟨row, hrow⟩ := Option.isSome_iff_exists.mp hsome
    obtain ⟨p, rfl, hp⟩ := h.legible.projects row (mem_of_projectRow? hrow)
    exact ⟨p, findProject_of_row hname hrow hp⟩

/-- A name of no length is the same as no other. -/
theorem trim_ne_empty_congr {a b : String} (h : SameName a b) :
    Text.trim a ≠ "" ↔ Text.trim b ≠ "" := by
  have hlength := Text.length_eq_of_foldAscii h
  rw [Ne, Ne, ← String.length_eq_zero_iff, ← String.length_eq_zero_iff, hlength]

theorem Sound.knows_congr (h : Sound past s) {a b : String} (hsame : SameName a b) :
    s.Knows mode a ↔ s.Knows mode b := by
  have haccepts : ∀ own, Accepts mode own (Text.trim a) ↔ Accepts mode own (Text.trim b) :=
    fun own => accepts_congr hsame
  simp only [h.knows_iff, trim_ne_empty_congr hsame, haccepts]

/-- A project with a plain name is known by every spelling of it, to a strict lookup and, if it is
active, to a fuzzy one.  The latter leads to a project with a plain name. -/
theorem Sound.knows_of_registered (h : Sound past s) {r : ProjectRow} (hr : r ∈ s.projects)
    {own name : String} (hown : r.name = .text own) (hplain : IsPlain own)
    (hsame : SameName own name) :
    s.Knows .strict name ∧ (r.status = .text ProjectStatus.active.label →
      ∃ p, s.findProject name .fuzzy = .ok (some p) ∧ IsPlain p.name) := by
  have hfold : Text.foldAscii own = Text.foldAscii (Text.trim name) := by
    rwa [SameName, hplain.2] at hsame
  have hname : Text.trim name ≠ "" := by
    rw [← trim_ne_empty_congr hsame, hplain.2]
    exact hplain.1
  constructor
  · rw [h.knows_iff]
    exact ⟨hname, r, own, ⟨hr, by simp⟩, hown, hfold⟩
  · intro hactive
    have hoffers : s.Offers .fuzzy r := ⟨hr, fun _ => hactive⟩
    obtain ⟨q, other, hq, hother, hsame'⟩ := projectRow?_of_foldAscii hoffers hown hfold
    obtain ⟨p, rfl, hp⟩ := h.legible.projects q (mem_of_projectRow? hq)
    obtain rfl : p.name = other := Cell.text.inj hother
    refine ⟨p, findProject_of_row hname hq hp, ?_, Text.trim_eq_self_of_foldAscii hsame'⟩
    intro hempty
    have hlength := Text.length_eq_of_foldAscii hsame'
    rw [hempty, String.length_empty] at hlength
    exact hname (String.length_eq_zero_iff.mp hlength.symm)

end

/-! ## Names that are told apart -/

section

variable {mode : ProjectLookup} {a b : String}

/-- A name is known in a store with one project if a lookup for it accepts the name of that. -/
theorem knows_alone {fresh : Fresh} (hnow : fresh.now.IsValid) (own name : String) :
    ((blank false false).run [⟨fresh, .register ⟨own, "", ""⟩⟩]).Knows mode name ↔
      Text.trim name ≠ "" ∧ Accepts mode own (Text.trim name) := by
  let row := newProjectRow fresh ⟨own, "", ""⟩
  have hclock : ∀ step ∈ [(⟨fresh, .register ⟨own, "", ""⟩⟩ : Step)], step.fresh.now.IsValid := by
    simpa using hnow
  have hsound := (Sound.blank false false).run hclock
  have hprojects : ((blank false false).run [⟨fresh, .register ⟨own, "", ""⟩⟩]).projects = [row] :=
    rfl
  have hoffers : ∀ r, ((blank false false).run [⟨fresh, .register ⟨own, "", ""⟩⟩]).Offers mode r ↔
      r = row := by
    intro r
    rw [Offers, hprojects, List.mem_singleton]
    exact ⟨And.left, fun hr => ⟨hr, fun _ => hr ▸ rfl⟩⟩
  rw [hsound.knows_iff]
  refine and_congr_right fun _ => ⟨?_, ?_⟩
  · rintro ⟨r, other, hr, hother, haccepts⟩
    obtain rfl := (hoffers r).mp hr
    cases hother
    exact haccepts
  · intro haccepts
    exact ⟨row, own, (hoffers row).mpr rfl, rfl, haccepts⟩

/-- Of two names of which a lookup for one does not accept the other, some store knows only one. -/
theorem exists_apart {fresh : Fresh} (hnow : fresh.now.IsValid)
    (hnot : ¬Accepts mode (Text.trim a) (Text.trim b)) :
    ∃ own, ¬(((blank false false).run [⟨fresh, .register ⟨own, "", ""⟩⟩]).Knows mode a ↔
      ((blank false false).run [⟨fresh, .register ⟨own, "", ""⟩⟩]).Knows mode b) := by
  by_cases ha : Text.trim a = ""
  · -- a blank name is never known, so the other one is not blank and becomes that of a project
    have hb : Text.trim b ≠ "" := fun hb => hnot (accepts_of_foldAscii (by rw [ha, hb]))
    refine ⟨Text.trim b, fun hiff => ?_⟩
    rw [knows_alone hnow, knows_alone hnow] at hiff
    exact (hiff.mpr ⟨hb, accepts_of_foldAscii rfl⟩).1 ha
  · refine ⟨Text.trim a, fun hiff => ?_⟩
    rw [knows_alone hnow, knows_alone hnow] at hiff
    exact hnot (hiff.mp ⟨ha, accepts_of_foldAscii rfl⟩).2

/-- Two names are the same if and only if every history leaves them both known or both unknown. -/
theorem sameName_iff (mode : ProjectLookup) (a b : String) : SameName a b ↔
    ∀ uniqueSummaries uniqueSymbolNames steps, (∀ step ∈ steps, step.fresh.now.IsValid) →
      (((blank uniqueSummaries uniqueSymbolNames).run steps).Knows mode a ↔
        ((blank uniqueSummaries uniqueSymbolNames).run steps).Knows mode b) := by
  constructor
  · intro hsame uniqueSummaries uniqueSymbolNames steps hclock
    exact ((Sound.blank uniqueSummaries uniqueSymbolNames).run hclock).knows_congr hsame
  · intro hknown
    by_contra hnot
    let fresh : Fresh := ⟨fun k => ⟨BitVec.ofNat 128 k⟩, ⟨2024, 2, 29, 12, 0, 0, 0⟩⟩
    have hnow : fresh.now.IsValid := by decide
    have hsteps : ∀ own, ∀ step ∈ [(⟨fresh, .register ⟨own, "", ""⟩⟩ : Step)],
        step.fresh.now.IsValid := by simpa using hnow
    by_cases hab : Accepts mode (Text.trim a) (Text.trim b)
    · have hba : ¬Accepts mode (Text.trim b) (Text.trim a) :=
        fun hba => hnot (foldAscii_eq_of_accepts hab hba)
      obtain ⟨own, hapart⟩ := exists_apart hnow hba
      exact hapart (hknown false false _ (hsteps own)).symm
    · obtain ⟨own, hapart⟩ := exists_apart hnow hab
      exact hapart (hknown false false _ (hsteps own))

end

end Store

end FossilRecord
