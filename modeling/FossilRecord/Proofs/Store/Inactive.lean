import FossilRecord.Proofs.Store.Own

/-!
# Two stores that differ in one project

Two stores may differ in what was ingested for one project alone.  A name that does not lead to that
project leads to the same project in both, and what is asked of that one is answered alike, since it
is answered from its own rows.  A fuzzy lookup never leads to a project that is inactive.
-/

namespace FossilRecord.Store

/-- The row of a project without the time of its last indexing, if it has an identifier. -/
def ProjectRow.unindexed (id : Uuid) (r : ProjectRow) : ProjectRow :=
  if r.projectId = Cell.uuid id then { r with lastIndexed := .null } else r

section

variable (id : Uuid) (r : ProjectRow)

theorem unindexed_of_ne {r : ProjectRow} (h : r.projectId ≠ Cell.uuid id) : r.unindexed id = r :=
  if_neg h

@[simp] theorem unindexed_projectId : (r.unindexed id).projectId = r.projectId := by
  unfold ProjectRow.unindexed
  split <;> rfl

@[simp] theorem unindexed_name : (r.unindexed id).name = r.name := by
  unfold ProjectRow.unindexed
  split <;> rfl

@[simp] theorem unindexed_status : (r.unindexed id).status = r.status := by
  unfold ProjectRow.unindexed
  split <;> rfl

end

/-- Where the rows of one owner are left out, those of another one are all kept. -/
theorem filter_filter_of_ne {α : Type} (owner : α → Cell) {c d : Cell} (hne : d ≠ c)
    (rows : List α) :
    (rows.filter fun r => owner r ≠ c).filter (fun r => owner r = d) =
      rows.filter fun r => owner r = d := by
  rw [List.filter_filter]
  apply List.filter_congr
  intro r _
  by_cases hr : owner r = d
  · simp [hr, hne]
  · simp [hr]

theorem filter_map_unindexed {id other : Uuid} (hne : Cell.uuid other ≠ Cell.uuid id)
    (rows : List ProjectRow) :
    (rows.map (ProjectRow.unindexed id)).filter (fun r => r.projectId = Cell.uuid other) =
      rows.filter fun r => r.projectId = Cell.uuid other := by
  induction rows with
  | nil => rfl
  | cons r rest ih =>
      rw [List.map_cons]
      by_cases hr : r.projectId = Cell.uuid other
      · have hkeep : r.unindexed id = r := by
          apply unindexed_of_ne
          rw [hr]
          exact hne
        rw [hkeep, List.filter_cons_of_pos (by simp [hr]), List.filter_cons_of_pos (by simp [hr]),
          ih]
      · rw [List.filter_cons_of_neg (by simp [hr]), List.filter_cons_of_neg (by simp [hr]), ih]

/-- Whether two stores have the same projects, fossils and symbols but for what was ingested for one
project: its fossils, their symbols, and the time at which it was indexed last. -/
structure DifferIn (id : Uuid) (s t : Store) : Prop where
  projects : s.projects.map (ProjectRow.unindexed id) = t.projects.map (ProjectRow.unindexed id)
  fossils : s.fossils.filter (fun r => r.projectId ≠ Cell.uuid id) =
    t.fossils.filter fun r => r.projectId ≠ Cell.uuid id
  symbols : s.symbols.filter (fun r => r.projectId ≠ Cell.uuid id) =
    t.symbols.filter fun r => r.projectId ≠ Cell.uuid id

/-- Whether the project of an identifier is inactive. -/
def IsInactive (s : Store) (id : Uuid) : Prop :=
  ∀ r ∈ s.projects, r.projectId = Cell.uuid id → r.status = .text ProjectStatus.inactive.label

instance (s : Store) (id : Uuid) : Decidable (s.IsInactive id) :=
  inferInstanceAs (Decidable (∀ r ∈ s.projects, _ → _))

/-- Whether a name leads strictly to the project of an identifier. -/
def LeadsTo (s : Store) (name : String) (id : Uuid) : Prop :=
  ∃ p, s.findProject name .strict = .ok (some p) ∧ p.projectId = id

/-- A fuzzy lookup does not lead to a project that is inactive. -/
theorem Legible.projectId_ne_of_fuzzy {s : Store} (h : s.Legible) {id : Uuid}
    (hinactive : s.IsInactive id) {name : String} {p : Project}
    (hfound : s.findProject name .fuzzy = .ok (some p)) : p.projectId ≠ id := by
  obtain ⟨-, hrow, -⟩ := h.row_of_findProject hfound
  obtain ⟨hmem, hvisible⟩ := List.mem_filter.mp (mem_visible_of_projectRow? hrow)
  have hactive : (projectRow p).status = .text "active" := of_decide_eq_true hvisible
  intro hid
  have hstatus := hinactive _ hmem (congrArg Cell.uuid hid)
  rw [hactive] at hstatus
  exact absurd hstatus (by decide)

namespace DifferIn

variable {id : Uuid} {s t : Store} {name : String} {mode : ProjectLookup}

/-- In both stores a name leads to the same row, up to the time of the last indexing. -/
theorem map_projectRow? (h : DifferIn id s t) (name : String) (mode : ProjectLookup) :
    (s.projectRow? name mode).map (ProjectRow.unindexed id) =
      (t.projectRow? name mode).map (ProjectRow.unindexed id) := by
  rw [← projectRow?_map (unindexed_name id) (unindexed_status id),
    ← projectRow?_map (unindexed_name id) (unindexed_status id), h.projects]
  rfl

/-- A name that leads to another project leads to the same row in both stores. -/
theorem projectRow?_eq (h : DifferIn id s t)
    (hother : ∀ r, s.projectRow? name mode = some r → r.projectId ≠ Cell.uuid id) :
    t.projectRow? name mode = s.projectRow? name mode := by
  have hmap := h.map_projectRow? name mode
  cases hs : s.projectRow? name mode with
  | none =>
      rw [hs, Option.map_none] at hmap
      exact Option.map_eq_none_iff.mp hmap.symm
  | some r =>
      have hr := hother r hs
      rw [hs, Option.map_some, unindexed_of_ne id hr] at hmap
      obtain ⟨r', ht, hsame⟩ := Option.map_eq_some_iff.mp hmap.symm
      -- the other row has the same identifier, so it is not that of the project either
      have hr' : r'.projectId ≠ Cell.uuid id := by
        rw [← unindexed_projectId id r', hsame]
        exact hr
      rw [unindexed_of_ne id hr'] at hsame
      rw [ht, hsame]

/-- A name that leads to another project leads to the same project in both stores. -/
theorem findProject_eq (h : DifferIn id s t) (hlegible : s.Legible)
    (hother : ∀ p, s.findProject name mode = .ok (some p) → p.projectId ≠ id) :
    t.findProject name mode = s.findProject name mode := by
  by_cases hname : Text.trim name = ""
  · unfold findProject
    simp only
    rw [if_pos hname, if_pos hname]
  · have hrow : t.projectRow? (Text.trim name) mode = s.projectRow? (Text.trim name) mode := by
      apply h.projectRow?_eq
      intro r hr
      obtain ⟨p, rfl, hp⟩ := hlegible.projects r (mem_of_projectRow? hr)
      have hne := hother p (findProject_of_row hname hr hp)
      intro hid
      exact hne (Uuid.toString_injective (Cell.text.inj hid))
    unfold findProject
    simp only
    rw [hrow]

/-- What is asked of another project is answered alike in both stores. -/
theorem readsAlike_of_ne {past more : List Step} (h : DifferIn id s t) (hs : Sound past s)
    (ht : Sound more t) {p : Project} (hfound : s.findProject name .strict = .ok (some p))
    (hne : p.projectId ≠ id) : ReadsAlike name s t := by
  have hfound' : t.findProject name .strict = .ok (some p) := by
    rw [h.findProject_eq hs.legible, hfound]
    intro q hq
    rw [hfound] at hq
    cases hq
    exact hne
  have hcell : Cell.uuid p.projectId ≠ Cell.uuid id :=
    fun hid => hne (Uuid.toString_injective (Cell.text.inj hid))
  have hprojects : (s.only p.projectId).projects = (t.only p.projectId).projects := by
    show s.projects.filter _ = t.projects.filter _
    rw [← filter_map_unindexed hcell, h.projects, filter_map_unindexed hcell]
  have hfossils : (s.only p.projectId).fossils = (t.only p.projectId).fossils := by
    show s.fossils.filter _ = t.fossils.filter _
    rw [← filter_filter_of_ne FossilRow.projectId hcell, h.fossils,
      filter_filter_of_ne FossilRow.projectId hcell]
  have hsymbols : (s.only p.projectId).symbols = (t.only p.projectId).symbols := by
    show s.symbols.filter _ = t.symbols.filter _
    rw [← filter_filter_of_ne SymbolRow.projectId hcell, h.symbols,
      filter_filter_of_ne SymbolRow.projectId hcell]
  -- each store answers from the rows of the project, and those are the same
  have hown : ReadsAlike name (s.only p.projectId) (t.only p.projectId) :=
    .of_tables hprojects hfossils hsymbols
  exact (hs.readsAlike_only hfound).symm.trans (hown.trans (ht.readsAlike_only hfound'))

/-- What is asked under a name that does not lead to the project is answered alike in both stores. -/
theorem readsAlike (h : DifferIn id s t) {past more : List Step} (hs : Sound past s)
    (ht : Sound more t) (hother : ¬s.LeadsTo name id) : ReadsAlike name s t := by
  have hne : ∀ p, s.findProject name .strict = .ok (some p) → p.projectId ≠ id :=
    fun p hp hid => hother ⟨p, hp, hid⟩
  obtain ⟨found, hfound⟩ := hs.legible.findProject_total name .strict
  cases found with
  | none =>
      have hfound' : t.findProject name .strict = .ok none := by
        rw [h.findProject_eq hs.legible hne, hfound]
      exact ReadsAlike.of_unknown hfound hfound'
  | some p => exact h.readsAlike_of_ne hs ht hfound (hne p hfound)

end DifferIn

end FossilRecord.Store
