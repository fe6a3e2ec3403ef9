import FossilRecord.Proofs.Store.Naming

/-!
# What was stored stays

Tables only ever grow: a write puts rows behind those that are there, and changes none of them but
projects, whose identifiers and names it keeps.  `Extends` says this of two stores; one write
extends the tables, hence every history does.

`history_immutable` is what follows for whoever reads: the history of a project only gets longer,
the symbols of a fossil are the same forever, and nothing leaves the logs.
-/

namespace FossilRecord.Store

/-! ## Tables that grow -/

/-- What a project keeps: its identifier and its name. -/
def ProjectRow.key (r : ProjectRow) : Cell × Cell :=
  (r.projectId, r.name)

/-- Whether all rows of a store stand in another one as they were, with new ones behind them. -/
structure Extends (s t : Store) : Prop where
  projects : s.projects.map ProjectRow.key <+: t.projects.map ProjectRow.key
  fossils : s.fossils <+: t.fossils
  symbols : s.symbols <+: t.symbols
  /-- No symbol is added to a fossil that was there. -/
  symbolsOf : ∀ f ∈ s.fossils, t.symbolsOf f.fossilId = s.symbolsOf f.fossilId
  queryLog : ∀ rows, s.queryLog = some rows → ∃ later, t.queryLog = some (rows ++ later)
  insights : s.insights <+: t.insights
  prompts : s.prompts <+: t.prompts

namespace Extends

variable {s t u : Store}

theorem refl (s : Store) : s.Extends s where
  projects := List.prefix_refl _
  fossils := List.prefix_refl _
  symbols := List.prefix_refl _
  symbolsOf _ _ := rfl
  queryLog rows hrows := ⟨[], by rw [hrows, List.append_nil]⟩
  insights := List.prefix_refl _
  prompts := List.prefix_refl _

theorem trans (hst : s.Extends t) (htu : t.Extends u) : s.Extends u where
  projects := hst.projects.trans htu.projects
  fossils := hst.fossils.trans htu.fossils
  symbols := hst.symbols.trans htu.symbols
  symbolsOf f hf := (htu.symbolsOf f (hst.fossils.subset hf)).trans (hst.symbolsOf f hf)
  queryLog rows hrows := by
    obtain ⟨some, hsome⟩ := hst.queryLog rows hrows
    obtain ⟨more, hmore⟩ := htu.queryLog (rows ++ some) hsome
    exact ⟨some ++ more, by rw [hmore, List.append_assoc]⟩
  insights := hst.insights.trans htu.insights
  prompts := hst.prompts.trans htu.prompts

/-- Projects may change in all but their identifiers and names. -/
theorem mapProjects (s : Store) {change : ProjectRow → ProjectRow}
    (hkey : ∀ r, (change r).key = r.key) :
    s.Extends { s with projects := s.projects.map change } :=
  { refl s with
    projects := by
      have hkeys : ProjectRow.key ∘ change = ProjectRow.key := funext hkey
      rw [List.map_map, hkeys] }

/-- A fossil under an identifier that no fossil has may be added with its symbols. -/
theorem withFossil (s : Store) {fresh : Fresh} {projectId : Uuid} {version : Int} {p : Payload}
    {promptUsed : String} (hkey : s.hasFossil (Cell.uuid (fresh.id 0)) = false) :
    s.Extends (s.withFossil fresh projectId version p promptUsed) where
  projects := (mapProjects s fun r => by split <;> rfl).projects
  fossils := List.prefix_append _ _
  symbols := List.prefix_append _ _
  symbolsOf f hf := symbolsOf_withFossil_of_ne (ne_of_hasFossil hkey f hf)
  queryLog := (refl s).queryLog
  insights := List.prefix_refl _
  prompts := List.prefix_refl _

end Extends

/-- Whatever a write does, it extends the tables. -/
theorem Effect.extends {s s' : Store} {fresh : Fresh} {w : Write} (h : Effect s fresh w s') :
    s.Extends s' := by
  cases h with
  | unchanged => exact Extends.refl s
  | described input => exact Extends.mapProjects s fun r => by split <;> rfl
  | registered input =>
      exact { Extends.refl s with projects := by simp }
  | restated name status project =>
      exact Extends.mapProjects s fun r => by split <;> rfl
  | stored name raw promptUsed payload project prompt drawn version hparse hfound hprompt hversion
      hkey => exact Extends.withFossil s hkey
  | logged input rows hrows =>
      refine { Extends.refl s with queryLog := ?_ }
      intro found hfound
      rw [hrows, Option.some.injEq] at hfound
      rw [← hfound]
      exact ⟨_, rfl⟩
  | noted input => exact { Extends.refl s with insights := List.prefix_append _ _ }
  | instructed input => exact { Extends.refl s with prompts := List.prefix_append _ _ }

namespace Coherent

variable {past : List Step} {s : Store}

theorem perform_extends (h : Coherent past s) (step : Step) : s.Extends (s.perform step) :=
  (perform_effect s h.projectNames step).extends

/-- Every history extends the tables. -/
theorem run_extends (h : Coherent past s) (steps : List Step) : s.Extends (s.run steps) := by
  induction steps generalizing past s with
  | nil => exact Extends.refl s
  | cons step rest ih => exact (h.perform_extends step).trans (ih (h.perform step))

end Coherent

/-! ## What is read of tables that have grown -/

section

variable {past more : List Step} {s t : Store}

theorem Extends.fossilRows (h : s.Extends t) (projectId : Cell) :
    s.fossilRows projectId <+: t.fossilRows projectId :=
  h.fossils.filter _

/-- The history of a project only gets longer. -/
theorem Extends.history (h : s.Extends t) (projectId : Cell) :
    s.history projectId <+: t.history projectId :=
  (h.fossilRows projectId).filterMap _

/-- The symbols of a fossil that was there are read as they were. -/
theorem Extends.listing (h : s.Extends t) (hs : Coherent past s) (ht : Coherent more t)
    {f : FossilRow} (hf : f ∈ s.fossils) : t.listing f.fossilId = s.listing f.fossilId := by
  rw [Store.listing, Store.listing, hs.joined_fossilId hf, ht.joined_fossilId (h.fossils.subset hf),
    h.symbolsOf f hf]

/-- A project with a plain name is found under it in tables that have grown. -/
theorem Extends.findProject (h : s.Extends t) (ht : Sound more t) {r : ProjectRow}
    (hr : r ∈ s.projects) {name : String} (hname : r.name = .text name) (hplain : IsPlain name) :
    ∃ p, t.findProject name .strict = .ok (some p) ∧ Cell.uuid p.projectId = r.projectId := by
  obtain ⟨q, hq, hkey⟩ := List.mem_map.mp (h.projects.subset (List.mem_map_of_mem hr))
  rw [ProjectRow.key, ProjectRow.key, Prod.mk.injEq] at hkey
  obtain ⟨p, rfl, hfound⟩ := ht.findProject_self hq (hkey.2.trans hname) hplain
  exact ⟨p, hfound, hkey.1⟩

end

/-- Whether a fossil is the one of a receipt: its project is found under its name and has it in its
history, and nothing else is read under its identifier. -/
structure Keeps (t : Store) (receipt : FossilReceipt) (f : Fossil) : Prop where
  fossilId : f.fossilId = receipt.fossilId
  projectId : f.projectId = receipt.projectId
  project : ∃ kept, t.findProject receipt.projectName .strict = .ok (some kept) ∧
    kept.projectId = receipt.projectId
  history : f ∈ t.history (Cell.uuid receipt.projectId)
  only : ∀ g ∈ t.history (Cell.uuid receipt.projectId), g.fossilId = receipt.fossilId → g = f

/-- A payload that was stored is a fossil wherever the tables have grown since. -/
theorem keeps_of_stored {past more : List Step} {s t : Store} (hs : Sound past s)
    (ht : Sound more t) {fresh : Fresh} (hnow : fresh.now.IsValid) {name raw : String}
    {promptUsed : Option String} {receipt : FossilReceipt}
    (hstored : (s.ingest fresh name raw promptUsed).1 = .ok (.stored receipt))
    (hgrown : (s.ingest fresh name raw promptUsed).2.Extends t) :
    ∃ payload project prompt drawn version f, Payload.parse raw = .ok payload ∧
      project.projectId = receipt.projectId ∧ s.promptFor project promptUsed = .ok prompt ∧
      f = storedFossil (fresh.after drawn) receipt.projectId version payload prompt ∧
      t.Keeps receipt f := by
  rcases ingest_cases s fresh name raw promptUsed with
    ⟨payload, project, prompt, drawn, version, hparse, hfound, hprompt, -, hkey, -, hresult⟩ |
    ⟨result, hother, hresult⟩
  · rw [hresult] at hstored hgrown
    cases hstored
    let row := fossilRow (fresh.after drawn) project.projectId version payload prompt
    have hrow : row ∈ t.fossils := hgrown.fossils.subset (by simp [withFossil_fossils, row])
    have hlater : (fresh.after drawn).now.IsValid := hnow
    have hread := readsFossil_fossilRow hlater project.projectId version hparse prompt
    -- the project is found under its name wherever it is
    obtain ⟨-, hproject, -⟩ := hs.legible.row_of_findProject hfound
    obtain ⟨kept, hkept, hid⟩ := ((Extends.withFossil s hkey).trans hgrown).findProject ht
      (mem_of_projectRow? hproject) rfl (hs.isPlain_of_findProject hfound)
    refine ⟨payload, project, prompt, drawn, version, _, hparse, rfl, hprompt, rfl,
      ⟨rfl, rfl, ⟨kept, hkept, Uuid.toString_injective (Cell.text.inj hid)⟩, ?_, ?_⟩⟩
    · exact List.mem_filterMap.mpr
        ⟨row, List.mem_filter.mpr ⟨hrow, decide_eq_true rfl⟩, hread.read?⟩
    · intro g hg hsame
      obtain ⟨r, hr, -, hreads⟩ := ht.exists_of_mem_history hg
      have hrid : r.fossilId = row.fossilId := by
        rw [hreads.fossilId, hsame]
        rfl
      have hreq : r = row := List.inj_on_of_nodup_map ht.coherent.fossilIds hr hrow hrid
      have hdecode := hreads.decode
      rw [hreq, hread.decode, Except.ok.injEq] at hdecode
      exact hdecode.symm
  · rw [hresult] at hstored
    exact absurd hstored (hother receipt)

/-- Whether what is read of a store is read of another one as well, with nothing put in before it or
left out. -/
structure Preserves (s t : Store) : Prop where
  /-- The history of a project can be read.  The project keeps its name, and under whatever name its
  history is asked for later, it starts with this one. -/
  histories : ∀ name project, s.findProject name .strict = .ok (some project) → ∃ history,
    s.fossilHistory name = .ok (answerOf project.name history) ∧
    (∃ kept, t.findProject project.name .strict = .ok (some kept) ∧
      kept.projectId = project.projectId) ∧
    ∀ again kept, t.findProject again .strict = .ok (some kept) →
      kept.projectId = project.projectId →
      ∃ later, t.fossilHistory again = .ok (answerOf kept.name (history ++ later))
  /-- The symbols of a fossil can be read, and are the same. -/
  symbols : ∀ id, s.hasFossil (Cell.uuid id) = true → ∃ symbols,
    s.symbolsForFossil id = .ok (some symbols) ∧ t.symbolsForFossil id = .ok (some symbols)
  fossilRows : s.fossils <+: t.fossils
  symbolRows : s.symbols <+: t.symbols
  queryLog : ∃ rows later, s.queryLog = some rows ∧ t.queryLog = some (rows ++ later)
  insights : s.insights <+: t.insights
  prompts : s.prompts <+: t.prompts

/-- Sound tables with a query log are preserved by whatever extends them. -/
theorem Extends.preserves {past more : List Step} {s t : Store} (h : s.Extends t)
    (hs : Sound past s) (ht : Sound more t) {rows : List QueryRow} (hrows : s.queryLog = some rows) :
    s.Preserves t where
  histories := by
    intro name project hproject
    obtain ⟨-, hrow, -⟩ := hs.legible.row_of_findProject hproject
    obtain ⟨kept, hkept, hid⟩ := h.findProject ht (mem_of_projectRow? hrow) rfl
      (hs.isPlain_of_findProject hproject)
    refine ⟨_, hs.fossilHistory_eq hproject,
      ⟨kept, hkept, Uuid.toString_injective (Cell.text.inj hid)⟩, ?_⟩
    intro again found hfound hsame
    obtain ⟨later, hlater⟩ := h.history (Cell.uuid project.projectId)
    exact ⟨later, by rw [ht.fossilHistory_eq hfound, hsame, hlater]⟩
  symbols := by
    intro id hid
    obtain ⟨f, hf, hfid⟩ : ∃ f ∈ s.fossils, f.fossilId = Cell.uuid id := by
      simpa [hasFossil] using hid
    have hlisting := h.listing hs.coherent ht.coherent hf
    rw [hfid] at hlisting
    refine ⟨_, hs.coherent.symbolsForFossil_eq hf hfid, ?_⟩
    rw [ht.coherent.symbolsForFossil_eq (h.fossils.subset hf) hfid, hlisting]
  fossilRows := h.fossils
  symbolRows := h.symbols
  queryLog := by
    obtain ⟨later, hlater⟩ := h.queryLog rows hrows
    exact ⟨rows, later, hrows, hlater⟩
  insights := h.insights
  prompts := h.prompts

/-- Whatever is done after a history, all that could be read of it can still be read as it was:
nothing that was stored is altered or removed, and nothing is put in before it. -/
theorem history_immutable (uniqueSummaries uniqueSymbolNames : Bool) (steps more : List Step)
    (hclock : ∀ step ∈ steps ++ more, step.fresh.now.IsValid) :
    ((blank uniqueSummaries uniqueSymbolNames).run steps).Preserves
      ((blank uniqueSummaries uniqueSymbolNames).run (steps ++ more)) := by
  have hblank := Sound.blank uniqueSummaries uniqueSymbolNames
  have hs := hblank.run fun step hstep => hclock step (List.mem_append_left more hstep)
  have ht := hblank.run hclock
  -- a history starts with a log that has no rows, so there is one
  obtain ⟨rows, hrows⟩ := (hblank.coherent.run_extends steps).queryLog [] rfl
  have hextends := hs.coherent.run_extends more
  rw [← run_append] at hextends
  exact hextends.preserves hs ht hrows

/-- A project gets a second fossil after the first one, which stays what it was. -/
theorem history_immutable_two_fossils :
    let fresh (first : Nat) : Fresh :=
      ⟨fun k => ⟨BitVec.ofNat 128 (first + k)⟩, ⟨2024, 2, 29, 12, 0, 0, 0⟩⟩
    let steps : List Step := [⟨fresh 1, .register ⟨"demo", "/d", "rust"⟩⟩,
      ⟨fresh 2, .ingest "demo" "\x7b\"symbols\":[\x7b\"name\":\"f\"\x7d]\x7d" none⟩]
    let more : List Step := [⟨fresh 4, .ingest "DEMO" "\x7b\"summary\":\"later\"\x7d" none⟩]
    ((blank false false).run steps).Preserves ((blank false false).run (steps ++ more)) :=
  history_immutable false false _ _ (by decide)

end FossilRecord.Store
