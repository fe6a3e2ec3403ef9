import FossilRecord.Proofs.Store.Legible
import FossilRecord.Proofs.Store.Order

/-!
# Finding projects

A name leads to a project by the names and the statuses of the rows alone, so a write that keeps
those leads every name to the same project as before.
-/

namespace FossilRecord.Store

theorem mem_of_head?_orderBy {α : Type} {key : α → List Cell} {rows : List α} {r : α}
    (h : (orderBy key rows).head? = some r) : r ∈ rows :=
  (orderBy_perm key rows).subset (List.mem_of_head? h)

theorem orElse_eq_some {α : Type} {first : Option α} {second : Unit → Option α} {x : α}
    (h : first.orElse second = some x) : first = some x ∨ second () = some x := by
  cases first with
  | none => exact .inr h
  | some y => exact .inl h

theorem map_orElse {α β : Type} (f : α → β) (first : Option α) (second : Unit → Option α) :
    (first.orElse second).map f = (first.map f).orElse fun u => (second u).map f := by
  cases first <;> rfl

/-- A name leads to one of the projects that the lookup may give. -/
theorem mem_visible_of_projectRow? {s : Store} {name : String} {mode : ProjectLookup}
    {r : ProjectRow} (h : s.projectRow? name mode = some r) :
    r ∈ s.projects.filter (isVisible mode) := by
  have hsorted : ∀ {key : ProjectRow → List Cell} {test : ProjectRow → Bool},
      (orderBy key ((s.projects.filter (isVisible mode)).filter test)).head? = some r →
        r ∈ s.projects.filter (isVisible mode) := by
    intro key test hhead
    exact List.mem_of_mem_filter (mem_of_head?_orderBy hhead)
  unfold projectRow? at h
  simp only at h
  rcases orElse_eq_some h with hexact | h
  · exact List.mem_of_find?_eq_some hexact
  · rcases orElse_eq_some h with hcase | hpart
    · exact hsorted hcase
    · cases mode with
      | strict => cases hpart
      | fuzzy => exact hsorted hpart

theorem mem_of_projectRow? {s : Store} {name : String} {mode : ProjectLookup} {r : ProjectRow}
    (h : s.projectRow? name mode = some r) : r ∈ s.projects :=
  List.mem_of_mem_filter (mem_visible_of_projectRow? h)

/-- A change of the projects that keeps their names, and whether the lookup may give them, changes
what a name leads to and nothing else. -/
theorem projectRow?_map_of_visible (s : Store) (mode : ProjectLookup)
    (change : ProjectRow → ProjectRow) (hname : ∀ r, (change r).name = r.name)
    (hvisible : ∀ r, isVisible mode (change r) = isVisible mode r) (name : String) :
    ({ s with projects := s.projects.map change } : Store).projectRow? name mode =
      (s.projectRow? name mode).map change := by
  have hlength : ∀ r, lengthAndName (change r) = lengthAndName r := by
    intro r
    rw [lengthAndName, lengthAndName, hname]
  have hfilter : ∀ (rows : List ProjectRow) (test : ProjectRow → Bool),
      (∀ r, test (change r) = test r) → (rows.map change).filter test =
        (rows.filter test).map change := by
    intro rows test htest
    rw [List.filter_map]
    congr 2
    funext r
    exact htest r
  have hexact : ∀ rows : List ProjectRow, (rows.map change).find? (fun r => r.name = .text name) =
      (rows.find? fun r => r.name = .text name).map change := by
    intro rows
    rw [List.find?_map]
    congr 2
    funext r
    simp only [Function.comp_apply, hname]
  -- the change commutes with each of the ways of looking that are tried in turn
  unfold projectRow?
  simp only
  rw [hfilter _ _ hvisible, hexact, hfilter _ _ fun r => by rw [hname],
    orderBy_map fun r => by rw [hname], List.head?_map]
  cases mode with
  | strict => rw [map_orElse, map_orElse]; rfl
  | fuzzy =>
      simp only
      rw [hfilter _ _ fun r => by rw [hname], orderBy_map hlength, List.head?_map, map_orElse,
        map_orElse]

/-- A change of the projects that keeps their names and statuses changes what a name leads to and
nothing else. -/
theorem projectRow?_map {s : Store} {change : ProjectRow → ProjectRow}
    (hname : ∀ r, (change r).name = r.name) (hstatus : ∀ r, (change r).status = r.status)
    (name : String) (mode : ProjectLookup) :
    ({ s with projects := s.projects.map change } : Store).projectRow? name mode =
      (s.projectRow? name mode).map change := by
  refine projectRow?_map_of_visible s mode change hname (fun r => ?_) name
  cases mode
  · rfl
  · simp only [isVisible, hstatus]

/-! ## Rows that can be read -/

/-- A project that was found has the row that its write left. -/
theorem Legible.row_of_findProject {s : Store} (h : s.Legible) {name : String}
    {mode : ProjectLookup} {p : Project} (hfound : s.findProject name mode = .ok (some p)) :
    Text.trim name ≠ "" ∧ s.projectRow? (Text.trim name) mode = some (projectRow p) ∧
      ∀ t ∈ p.lastIndexed, t.IsValid := by
  unfold findProject at hfound
  simp only at hfound
  split at hfound
  · cases hfound
  · rename_i hname
    split at hfound
    · rename_i row hrow
      obtain ⟨q, rfl, hq⟩ := h.projects row (mem_of_projectRow? hrow)
      rw [decode_projectRow hq] at hfound
      cases hfound
      exact ⟨hname, hrow, hq⟩
    · cases hfound

theorem findProject_of_row {s : Store} {name : String} {mode : ProjectLookup} {p : Project}
    (hname : Text.trim name ≠ "")
    (hrow : s.projectRow? (Text.trim name) mode = some (projectRow p))
    (hp : ∀ t ∈ p.lastIndexed, t.IsValid) : s.findProject name mode = .ok (some p) := by
  unfold findProject
  simp only
  rw [if_neg hname, hrow]
  simp only [decode_projectRow hp]
  rfl

/-- What is stored can be read, so a name leads to a project or to none. -/
theorem Legible.findProject_total {s : Store} (h : s.Legible) (name : String)
    (mode : ProjectLookup) : ∃ found, s.findProject name mode = .ok found := by
  by_cases hname : Text.trim name = ""
  · refine ⟨none, ?_⟩
    unfold findProject
    exact if_pos hname
  · cases hrow : s.projectRow? (Text.trim name) mode with
    | none =>
        refine ⟨none, ?_⟩
        unfold findProject
        simp only
        rw [if_neg hname, hrow]
    | some row =>
        obtain ⟨p, rfl, hp⟩ := h.projects row (mem_of_projectRow? hrow)
        exact ⟨some p, findProject_of_row hname hrow hp⟩

end FossilRecord.Store
