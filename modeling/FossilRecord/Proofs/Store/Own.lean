import FossilRecord.Corpus
import FossilRecord.Proofs.Store.Naming

/-!
# The rows of one project

What is asked of a project is answered from its own rows: the answer is the same when the rows of all
other projects are left out.  `only` leaves them out, and every read that goes through a project gives
the same before and after.  A write that goes through a project leaves the rows of all others alone,
which are those that `without` keeps.
-/

namespace FossilRecord.Store

/-! ## Leaving rows out -/

/-- The store with the project, the fossils and the symbols of one identifier alone. -/
def only (s : Store) (id : Uuid) : Store :=
  { s with
    projects := s.projects.filter fun r => r.projectId = Cell.uuid id
    fossils := s.fossils.filter fun r => r.projectId = Cell.uuid id
    symbols := s.symbols.filter fun r => r.projectId = Cell.uuid id }

/-- The store without the project, the fossils and the symbols of one identifier. -/
def without (s : Store) (id : Uuid) : Store :=
  { s with
    projects := s.projects.filter fun r => r.projectId ≠ Cell.uuid id
    fossils := s.fossils.filter fun r => r.projectId ≠ Cell.uuid id
    symbols := s.symbols.filter fun r => r.projectId ≠ Cell.uuid id }

/-- Whether an answer stands when only what is kept is asked: it is given again if it is kept, and
if there was none, there is none. -/
structure StandsIn {α : Type} (keep : α → Bool) (all kept : Option α) : Prop where
  again : ∀ x, all = some x → keep x = true → kept = some x
  none : all = none → kept = none

namespace StandsIn

variable {α : Type} {keep : α → Bool}

theorem nothing : StandsIn keep Option.none Option.none where
  again _ hx := nomatch hx
  none _ := rfl

theorem find? (test : α → Bool) (xs : List α) :
    StandsIn keep (xs.find? test) ((xs.filter keep).find? test) where
  again := by
    intro x hx hkeep
    obtain ⟨htest, before, after, rfl, hbefore⟩ := List.find?_eq_some_iff_append.mp hx
    rw [List.find?_eq_some_iff_append]
    refine ⟨htest, before.filter keep, after.filter keep, ?_, ?_⟩
    · rw [List.filter_append, List.filter_cons_of_pos hkeep]
    · intro y hy
      exact hbefore y (List.mem_of_mem_filter hy)
  none := by
    intro hnone
    rw [List.find?_eq_none] at hnone ⊢
    intro y hy
    exact hnone y (List.mem_of_mem_filter hy)

theorem head? (xs : List α) : StandsIn keep xs.head? (xs.filter keep).head? := by
  have htest : ∀ ys : List α, ys.head? = ys.find? fun _ => true := by
    intro ys
    cases ys <;> rfl
  rw [htest, htest]
  exact find? _ xs

theorem orElse {first first' : Option α} {second second' : Unit → Option α}
    (hfirst : StandsIn keep first first') (hsecond : StandsIn keep (second ()) (second' ())) :
    StandsIn keep (first.orElse second) (first'.orElse second') := by
  cases first with
  | none =>
      rw [hfirst.none rfl]
      exact hsecond
  | some y =>
      constructor
      · intro x hx hkeep
        obtain rfl : y = x := Option.some.inj hx
        rw [hfirst.again y rfl hkeep]
        rfl
      · intro hnone
        cases hnone

end StandsIn

/-- What a name leads to stands when some of the projects are left out. -/
theorem projectRow?_filter {s t : Store} {keep : ProjectRow → Bool}
    (hprojects : t.projects = s.projects.filter keep) (name : String) (mode : ProjectLookup) :
    StandsIn keep (s.projectRow? name mode) (t.projectRow? name mode) := by
  have hhead : ∀ (key : ProjectRow → List Cell) (test : ProjectRow → Bool)
      (rows : List ProjectRow), StandsIn keep (orderBy key (rows.filter test)).head?
        (orderBy key ((rows.filter keep).filter test)).head? := by
    intro key test rows
    rw [List.filter_comm, orderBy_filter key keep]
    exact .head? _
  have hrows : t.projects.filter (isVisible mode) =
      (s.projects.filter (isVisible mode)).filter keep := by
    rw [hprojects, List.filter_comm]
  -- each of the ways of looking that are tried in turn stands
  unfold projectRow?
  simp only
  rw [hrows]
  apply StandsIn.orElse
  · exact .find? _ _
  · apply StandsIn.orElse
    · apply hhead
    · cases mode with
      | strict => exact .nothing
      | fuzzy => apply hhead

/-! ## Reading rows of a project -/

section

variable {past : List Step} {s : Store} {id : Uuid}

/-- A project that a name leads to is led to when the others are left out. -/
theorem Sound.findProject_only (h : Sound past s) {name : String} {mode : ProjectLookup}
    {p : Project} (hfound : s.findProject name mode = .ok (some p)) :
    (s.only p.projectId).findProject name mode = .ok (some p) := by
  obtain ⟨hname, hrow, hp⟩ := h.legible.row_of_findProject hfound
  apply findProject_of_row hname _ hp
  exact (projectRow?_filter rfl _ _).again _ hrow (decide_eq_true rfl)

theorem withProject_eq {α : Type} {name : String} {p : Project}
    (hfound : s.findProject name .strict = .ok (some p))
    (go : Project → Except Failure (Lookup α)) : s.withProject name go = go p := by
  rw [withProject, hfound]
  rfl

theorem only_fossilRows (s : Store) (id : Uuid) :
    (s.only id).fossilRows (Cell.uuid id) = s.fossilRows (Cell.uuid id) := by
  simp only [only, fossilRows, List.filter_filter, Bool.and_self]

theorem only_fossilsOf (s : Store) (id : Uuid) :
    (s.only id).fossilsOf (Cell.uuid id) = s.fossilsOf (Cell.uuid id) :=
  congrArg (newestFirst FossilRow.version) (only_fossilRows s id)

theorem only_highestVersion (s : Store) (id : Uuid) :
    (s.only id).highestVersion (Cell.uuid id) = s.highestVersion (Cell.uuid id) := by
  rw [highestVersion, highestVersion, only_fossilsOf]

/-- Symbols of a project stand beside fossils of that project, so the others are not missed. -/
theorem Coherent.only_joined (h : Coherent past s) {wanted : SymbolRow → Bool}
    (hwanted : ∀ r ∈ s.symbols, wanted r = true → r.projectId = Cell.uuid id) :
    (s.only id).joined wanted = s.joined wanted := by
  have hsymbols : (s.only id).symbols.filter wanted = s.symbols.filter wanted := by
    rw [only, List.filter_filter]
    refine List.filter_congr fun r hr => ?_
    by_cases hr' : wanted r = true
    · simp [hwanted r hr hr']
    · simp [hr']
  rw [joined, joined, hsymbols]
  refine List.flatMap_congr fun r hr => ?_
  obtain ⟨hr, hr'⟩ := List.mem_filter.mp hr
  have hfossils : (s.only id).fossils.filter (fun g => g.fossilId = r.fossilId) =
      s.fossils.filter fun g => g.fossilId = r.fossilId := by
    rw [only, List.filter_filter]
    refine List.filter_congr fun g hg => ?_
    by_cases hgr : g.fossilId = r.fossilId
    · have howner := h.projectId_of_fossilId hg hr hgr.symm
      simp [← howner, hwanted r hr hr']
    · simp [hgr]
  rw [hfossils]

theorem Coherent.only_searchRows (h : Coherent past s) (looksAt : SymbolRow → Bool)
    (scope : SymbolScope) :
    (s.only id).searchRows (Cell.uuid id) looksAt scope =
      s.searchRows (Cell.uuid id) looksAt scope := by
  have hjoined : (s.only id).joined (fun r => r.projectId = Cell.uuid id && looksAt r) =
      s.joined fun r => r.projectId = Cell.uuid id && looksAt r := by
    apply h.only_joined
    intro r _ hr
    rw [Bool.and_eq_true, decide_eq_true_eq] at hr
    exact hr.1
  cases scope with
  | latest => rw [searchRows, searchRows, hjoined, only_highestVersion]
  | allFossils => rw [searchRows, searchRows, hjoined]

variable {f : FossilRow} {fossilId : Uuid}

theorem Coherent.only_symbolsForFossil (h : Coherent past s) (hf : f ∈ s.fossils)
    (howner : f.projectId = Cell.uuid id) (hid : f.fossilId = Cell.uuid fossilId) :
    (s.only id).symbolsForFossil fossilId = s.symbolsForFossil fossilId := by
  have hjoined : (s.only id).joined (·.fossilId = Cell.uuid fossilId) =
      s.joined (·.fossilId = Cell.uuid fossilId) := by
    apply h.only_joined
    intro r hr hr'
    rw [← howner]
    exact h.projectId_of_fossilId hf hr ((of_decide_eq_true hr').trans hid.symm)
  have hall : (s.fossils.any fun g => g.fossilId = Cell.uuid fossilId) = true :=
    List.any_eq_true.mpr ⟨f, hf, decide_eq_true hid⟩
  have honly : ((s.only id).fossils.any fun g => g.fossilId = Cell.uuid fossilId) = true :=
    List.any_eq_true.mpr
      ⟨f, List.mem_filter.mpr ⟨hf, decide_eq_true howner⟩, decide_eq_true hid⟩
  rw [symbolsForFossil, symbolsForFossil, if_pos hall, if_pos honly, hjoined]

theorem Coherent.only_symbolTypeCounts (h : Coherent past s) (hf : f ∈ s.fossils)
    (howner : f.projectId = Cell.uuid id) (hid : f.fossilId = Cell.uuid fossilId) :
    (s.only id).symbolTypeCounts fossilId = s.symbolTypeCounts fossilId := by
  have hrows : (s.only id).symbols.filter (fun r => r.fossilId = Cell.uuid fossilId) =
      s.symbols.filter fun r => r.fossilId = Cell.uuid fossilId := by
    rw [only, List.filter_filter]
    refine List.filter_congr fun r hr => ?_
    by_cases hr' : r.fossilId = Cell.uuid fossilId
    · have hproject := h.projectId_of_fossilId hf hr (hr'.trans hid.symm)
      simp [hr', hproject, howner]
    · simp [hr']
  rw [symbolTypeCounts, symbolTypeCounts, hrows]

end

/-! ## Reads that go through a project -/

/-- Whether all that is asked of a project by its name is answered alike in two stores, down to the
symbols of the fossil that is its latest one. -/
structure ReadsAlike (name : String) (s t : Store) : Prop where
  latest : s.latestFossil name = t.latestFossil name
  history : s.fossilHistory name = t.fossilHistory name
  symbols : ∀ wanted scope, s.findSymbols name wanted scope = t.findSymbols name wanted scope
  related : ∀ part, RelatedFiles.resolve s name part = RelatedFiles.resolve t name part
  shown : ∀ latest, s.latestFossil name = .ok (.found latest) →
    s.symbolsForFossil latest.fossilId = t.symbolsForFossil latest.fossilId

namespace ReadsAlike

variable {name : String} {s t u : Store}

theorem symm (h : ReadsAlike name s t) : ReadsAlike name t s where
  latest := h.latest.symm
  history := h.history.symm
  symbols wanted scope := (h.symbols wanted scope).symm
  related part := (h.related part).symm
  shown latest hlatest := (h.shown latest (h.latest.trans hlatest)).symm

theorem trans (h : ReadsAlike name s t) (h' : ReadsAlike name t u) : ReadsAlike name s u where
  latest := h.latest.trans h'.latest
  history := h.history.trans h'.history
  symbols wanted scope := (h.symbols wanted scope).trans (h'.symbols wanted scope)
  related part := (h.related part).trans (h'.related part)
  shown latest hlatest :=
    (h.shown latest hlatest).trans (h'.shown latest (h.latest.symm.trans hlatest))

/-- Nothing but the projects, the fossils and the symbols is read. -/
theorem of_tables (hprojects : s.projects = t.projects) (hfossils : s.fossils = t.fossils)
    (hsymbols : s.symbols = t.symbols) : ReadsAlike name s t := by
  cases s
  cases t
  cases hprojects
  cases hfossils
  cases hsymbols
  exact ⟨rfl, rfl, fun _ _ => rfl, fun _ => rfl, fun _ _ => rfl⟩

/-- A name that leads to no project is told so in the same way. -/
theorem of_unknown (hs : s.findProject name .strict = .ok none)
    (ht : t.findProject name .strict = .ok none) : ReadsAlike name s t := by
  have hmissing : ∀ {α : Type} (go go' : Project → Except Failure (Lookup α)),
      s.withProject name go = t.withProject name go' := by
    intro α go go'
    rw [withProject, withProject, hs, ht]
    rfl
  have hsymbols : ∀ wanted scope, s.findSymbols name wanted scope =
      t.findSymbols name wanted scope := by
    intro wanted scope
    rw [findSymbols, findSymbols]
    apply hmissing
  exact
    { latest := hmissing _ _
      history := hmissing _ _
      symbols := hsymbols
      related := by
        intro part
        have hreached : RelatedFiles.reachedBy s name = RelatedFiles.reachedBy t name := by
          funext symbol
          rw [RelatedFiles.reachedBy, RelatedFiles.reachedBy, hsymbols]
        rw [RelatedFiles.resolve, RelatedFiles.resolve, hsymbols, hreached]
      shown := by
        intro latest hlatest
        rw [latestFossil, withProject, hs] at hlatest
        cases hlatest }

end ReadsAlike

namespace Sound

variable {past : List Step} {s : Store} {name : String} {p : Project}

section

variable (h : Sound past s) (hfound : s.findProject name .strict = .ok (some p))

include h hfound

theorem latestFossil_only : (s.only p.projectId).latestFossil name = s.latestFossil name := by
  rw [latestFossil, latestFossil, withProject_eq (h.findProject_only hfound),
    withProject_eq hfound, only_fossilsOf]

theorem fossilHistory_only :
    (s.only p.projectId).fossilHistory name = s.fossilHistory name := by
  have hrows : ((s.only p.projectId).fossils.filter fun f =>
      f.projectId = Cell.uuid p.projectId) =
        s.fossils.filter fun f => f.projectId = Cell.uuid p.projectId :=
    only_fossilRows s p.projectId
  rw [fossilHistory, fossilHistory, withProject_eq (h.findProject_only hfound),
    withProject_eq hfound, hrows]

theorem findSymbols_only (wanted : NameMatch) (scope : SymbolScope) :
    (s.only p.projectId).findSymbols name wanted scope = s.findSymbols name wanted scope := by
  rw [findSymbols, findSymbols, withProject_eq (h.findProject_only hfound),
    withProject_eq hfound]
  simp only [only_fossilsOf, h.coherent.only_searchRows]

theorem resolve_only (part : String) :
    RelatedFiles.resolve (s.only p.projectId) name part = RelatedFiles.resolve s name part := by
  have hreached : RelatedFiles.reachedBy (s.only p.projectId) name =
      RelatedFiles.reachedBy s name := by
    funext symbol
    rw [RelatedFiles.reachedBy, RelatedFiles.reachedBy, h.findSymbols_only hfound]
  rw [RelatedFiles.resolve, RelatedFiles.resolve, h.findSymbols_only hfound, hreached]

/-- The section of a project of that name and identifier is written from its own rows. -/
theorem sectionOf_only {q : Project} (hname : q.name = name) :
    Corpus.sectionOf (s.only p.projectId) q = Corpus.sectionOf s q := by
  rw [Corpus.sectionOf, Corpus.sectionOf, hname, h.fossilHistory_only hfound,
    h.fossilHistory_eq hfound]
  have hvalue : ∀ history, ((answerOf p.name history).value?.getD []) = history := by
    intro history
    rw [answerOf]
    split
    · rename_i hnil
      rw [hnil]
      rfl
    · rfl
  simp only [bind, Except.bind, hvalue]
  cases hlast : (s.history (Cell.uuid p.projectId)).getLast? with
  | none => rfl
  | some latest =>
      -- the counts are those of a fossil of the project
      obtain ⟨r, hr, howner, hread⟩ := h.exists_of_mem_history (List.mem_of_getLast? hlast)
      simp only
      rw [h.coherent.only_symbolTypeCounts hr howner hread.fossilId]

end

/-- All that is asked of a project that a name strictly leads to is answered from its own rows. -/
theorem readsAlike_only (h : Sound past s) (hfound : s.findProject name .strict = .ok (some p)) :
    ReadsAlike name (s.only p.projectId) s where
  latest := h.latestFossil_only hfound
  history := h.fossilHistory_only hfound
  symbols := h.findSymbols_only hfound
  related := h.resolve_only hfound
  shown := by
    intro latest hlatest
    rw [h.latestFossil_only hfound, h.latestFossil_eq hfound] at hlatest
    cases hlast : (s.history (Cell.uuid p.projectId)).getLast? with
    | none =>
        rw [hlast] at hlatest
        cases hlatest
    | some last =>
        rw [hlast] at hlatest
        cases hlatest
        obtain ⟨r, hr, howner, hread⟩ := h.exists_of_mem_history (List.mem_of_getLast? hlast)
        exact h.coherent.only_symbolsForFossil hr howner hread.fossilId

/-- The corpus of a project with a plain name is written from its own rows. -/
theorem build_only (h : Sound past s) (hfound : s.findProject name .strict = .ok (some p))
    (hname : p.name = name) :
    Corpus.build (s.only p.projectId) (some name) = Corpus.build s (some name) := by
  have hsection : Corpus.sectionOf (s.only p.projectId) p = Corpus.sectionOf s p :=
    h.sectionOf_only hfound hname
  have husage : ∀ limit, (s.only p.projectId).queryUsage limit = s.queryUsage limit :=
    fun _ => rfl
  have hrecent : ∀ tool limit,
      (s.only p.projectId).recentQueries tool limit = s.recentQueries tool limit :=
    fun _ _ => rfl
  rw [Corpus.build, Corpus.build, h.findProject_only hfound, hfound]
  simp only [bind, Except.bind, Corpus.ofProjects, List.mapM_cons, List.mapM_nil, hsection,
    husage, hrecent]

end Sound

end FossilRecord.Store
