import FossilRecord.Corpus
import FossilRecord.Proofs.Store.Ingested
import FossilRecord.Proofs.Store.Listing
import FossilRecord.Proofs.Store.RelatedFiles
import FossilRecord.Proofs.Store.Tally
import FossilRecord.Store.Log

/-!
# Everything that is stored can be read

Beside fossils, symbols, projects and prompts, which other modules read, a store holds logged
questions and insights.  After every history all six tables can be read (`Readable`), and so no read
of the store fails, whatever it asks for (`ReadsAll`).
-/

namespace FossilRecord.Store

/-! ## Logged questions -/

/-- A logged question whose row can be read. -/
structure IsLogged (e : QueryLogEntry) : Prop where
  params : ∀ j ∈ e.queryParams, Json.Fits Json.depthLimit j
  timestamp : e.timestamp.IsValid

/-- The logged question that is read of a row; only numbers with a fraction may differ. -/
def loggedBack (e : QueryLogEntry) : QueryLogEntry :=
  { e with queryParams := e.queryParams.map Json.readBack }

/-- A logged question as its row holds it. -/
def typedQuery (e : QueryLogEntry) : TypedQuery where
  entryId := toString e.entryId
  toolName := e.toolName
  projectName := e.projectName
  queryParams := e.queryParams.map Json.compact
  timestamp := e.timestamp.toOffset

theorem typed_queryRow (e : QueryLogEntry) : (queryRow e).typed = .ok (typedQuery e) := by
  simp [QueryRow.typed, queryRow, typedQuery, Cell.uuid, Cell.instant, bind, Except.bind]

theorem decode_typedQuery {e : QueryLogEntry} (he : IsLogged e) :
    (typedQuery e).decode = .ok (loggedBack e) := by
  have hparams : readOption (readJson Json.parse) (e.queryParams.map Json.compact) =
      .ok (e.queryParams.map Json.readBack) := by
    refine readOption_map fun j hj => ?_
    rw [readJson, Json.parse_compact (he.params j hj)]
  simp [TypedQuery.decode, typedQuery, loggedBack, readUuid_toString, hparams,
    readInstant_toOffset he.timestamp, bind, Except.bind]

/-! ## Insights -/

/-- An insight as its row holds it. -/
def typedInsight (i : Insight) : TypedInsight where
  insightId := toString i.insightId
  projectId := i.projectId.map toString
  fossilId := i.fossilId.map toString
  insightType := i.insightType
  content := i.content
  modelUsed := i.modelUsed
  projectsInvolved := Json.compact (.texts i.projectsInvolved)
  createdAt := i.createdAt.toOffset

theorem optUuid_eq_optText (id : Option Uuid) : optUuid id = .optText (id.map toString) := by
  cases id <;> rfl

theorem typed_insightRow (i : Insight) : (insightRow i).typed = .ok (typedInsight i) := by
  simp [InsightRow.typed, insightRow, typedInsight, Cell.uuid, Cell.instant, optUuid_eq_optText,
    bind, Except.bind]

/-- Texts are read back from the text of their list. -/
theorem readTexts_texts (items : List String) : readTexts (Json.compact (.texts items)) = .ok items :=
  Json.parseWith_readList fun s _ rest _ => Json.readScalar_text "a string" s rest

theorem decode_typedInsight {i : Insight} (hi : i.createdAt.IsValid) :
    (typedInsight i).decode = .ok i := by
  have hid : ∀ id : Option Uuid, readOption readUuid (id.map toString) = .ok id := fun id =>
    readOption_map_self fun u _ => readUuid_toString u
  simp [TypedInsight.decode, typedInsight, readUuid_toString, hid, readJson, readTexts_texts,
    readInstant_toOffset hi, bind, Except.bind]

/-! ## Tables that can be read -/

/-- There is a log, and its rows can be read. -/
def LogLegible (s : Store) : Prop :=
  ∃ rows, s.queryLog = some rows ∧ ∀ r ∈ rows, ∃ e, r = queryRow e ∧ IsLogged e

/-- The insights of a store can be read. -/
def InsightsLegible (s : Store) : Prop :=
  ∀ r ∈ s.insights, ∃ i, r = insightRow i ∧ i.createdAt.IsValid

/-- All that the tables hold can be read. -/
structure Readable (past : List Step) (s : Store) : Prop where
  sound : Sound past s
  queryLog : s.LogLegible
  insights : s.InsightsLegible

/-- A step at a time that can be written down, with parameters that can be written and read again if
it logs a question. -/
structure Step.IsWritable (step : Step) : Prop where
  now : step.fresh.now.IsValid
  params : ∀ input, step.write = .log input →
    ∀ j ∈ input.queryParams, Json.Fits Json.depthLimit j

namespace Readable

variable {past : List Step} {s : Store}

theorem empty : Readable [] Store.empty where
  sound := Sound.blank false false
  queryLog := ⟨[], rfl, by simp⟩
  insights := by simp [InsightsLegible, Store.empty]

/-- Every write keeps the tables readable. -/
theorem perform (h : Readable past s) {step : Step} (hstep : step.IsWritable) :
    Readable (past ++ [step]) (s.perform step) := by
  have hrest : LogLegible (s.perform step) ∧ InsightsLegible (s.perform step) := by
    have heffect := perform_effect s h.sound.coherent.projectNames step
    have hparams := hstep.params
    generalize step.write = w at heffect hparams
    generalize s.perform step = s' at heffect
    -- two writes touch the tables that the soundness of the others does not speak of
    cases heffect with
    | logged input rows hrows =>
        obtain ⟨old, hold, hread⟩ := h.queryLog
        rw [hrows] at hold
        cases hold
        exact ⟨⟨_, rfl, forall_mem_snoc hread ⟨_, rfl, hparams input rfl, hstep.now⟩⟩, h.insights⟩
    | noted input hproject hfossil =>
        exact ⟨h.queryLog, forall_mem_snoc h.insights ⟨_, rfl, hstep.now⟩⟩
    | _ => exact ⟨h.queryLog, h.insights⟩
  exact ⟨h.sound.perform hstep.now, hrest.1, hrest.2⟩

/-- Every history keeps the tables readable. -/
theorem run (h : Readable past s) {steps : List Step} (hsteps : ∀ step ∈ steps, step.IsWritable) :
    Readable (past ++ steps) (s.run steps) := by
  induction steps generalizing past s with
  | nil => simpa using h
  | cons step rest ih =>
      have hrest := ih (h.perform (hsteps step (by simp))) fun other hother =>
        hsteps other (by simp [hother])
      rwa [List.append_assoc] at hrest

end Readable

/-! ## Every read -/

/-- Every read gives an answer, whatever it asks for. -/
structure ReadsAll (s : Store) : Prop where
  findProject : ∀ name mode, ∃ found, s.findProject name mode = .ok found
  listProjects : ∃ found, s.listProjects = .ok found
  latestFossil : ∀ name, ∃ found, s.latestFossil name = .ok found
  fossilHistory : ∀ name, ∃ found, s.fossilHistory name = .ok found
  symbolsForFossil : ∀ fossilId, ∃ found, s.symbolsForFossil fossilId = .ok found
  findSymbols : ∀ name wanted scope, ∃ found, s.findSymbols name wanted scope = .ok found
  symbolTypeCounts : ∀ fossilId, ∃ counts, s.symbolTypeCounts fossilId = .ok counts
  queryUsage : ∀ limit, ∃ usage, s.queryUsage limit = .ok usage
  paramUsage : ∀ limit, ∃ usage, s.paramUsage limit = .ok usage
  recentQueries : ∀ tool limit, ∃ entries, s.recentQueries tool limit = .ok entries
  listInsights : ∀ query, ∃ insights, s.listInsights query = .ok insights
  latestPrompt : ∀ projectId, ∃ found, s.latestPrompt projectId = .ok found
  analysis : ∀ name, ∃ found, Corpus.build s name = .ok found
  refinement : ∃ found, Corpus.refinement s = .ok found
  resolve : ∀ name part, ∃ found, RelatedFiles.resolve s name part = .ok found

section Projects

variable {past : List Step} {s : Store}

theorem Legible.listProjects_total (h : s.Legible) : ∃ found, s.listProjects = .ok found := by
  let count (r : ProjectRow) : Except Failure (TypedProject × Nat × Nat) := do
    let t ← r.typed
    .ok (t, (s.fossilsOf r.projectId).length, s.latestSymbolCount r.projectId)
  let summarize (t : TypedProject × Nat × Nat) : Except Failure ProjectSummary := do
    let project ← t.1.decode
    .ok ⟨project, t.2.1, t.2.2⟩
  have hread : ∀ r ∈ orderBy (fun r => [ProjectRow.name r]) s.projects,
      ∃ t, count r = .ok t ∧ ∃ found, summarize t = .ok found := by
    intro r hr
    obtain ⟨p, rfl, hp⟩ := h.projects r ((orderBy_perm _ _).subset hr)
    obtain ⟨t, ht, hdecode⟩ := bind_eq_ok (decode_projectRow hp)
    simp only [count, summarize, ht, hdecode, bind, Except.bind, Except.ok.injEq, exists_eq_left',
      exists_eq']
  obtain ⟨typed, htyped, found, hfound⟩ := mapM_twice hread
  exact ⟨found, (congrArg (· >>= _) htyped).trans hfound⟩

end Projects

section Fossils

variable {past : List Step} {s : Store}

theorem Sound.latestFossil_total (h : Sound past s) (name : String) :
    ∃ found, s.latestFossil name = .ok found := by
  obtain ⟨found, hfound⟩ := h.legible.findProject_total name .strict
  cases found with
  | none =>
      rw [Store.latestFossil, withProject, hfound]
      exact ⟨_, rfl⟩
  | some p =>
      rw [h.latestFossil_eq hfound]
      split <;> exact ⟨_, rfl⟩

theorem Sound.fossilHistory_total (h : Sound past s) (name : String) :
    ∃ found, s.fossilHistory name = .ok found := by
  obtain ⟨found, hfound⟩ := h.legible.findProject_total name .strict
  cases found with
  | none =>
      rw [Store.fossilHistory, withProject, hfound]
      exact ⟨_, rfl⟩
  | some p => exact ⟨_, h.fossilHistory_eq hfound⟩

theorem Coherent.symbolsForFossil_total (h : Coherent past s) (fossilId : Uuid) :
    ∃ found, s.symbolsForFossil fossilId = .ok found := by
  by_cases hany : (s.fossils.any fun f => f.fossilId = Cell.uuid fossilId) = true
  · obtain ⟨f, hf, hid⟩ := List.any_eq_true.mp hany
    exact ⟨_, h.symbolsForFossil_eq hf (of_decide_eq_true hid)⟩
  · rw [symbolsForFossil, if_neg hany]
    exact ⟨none, rfl⟩

/-- A search of a project without fossils says that there is none. -/
theorem findSymbols_of_noFossil {name : String} {p : Project} (h : Coherent past s)
    (hfound : s.findProject name .strict = .ok (some p))
    (hnone : s.fossilRows (Cell.uuid p.projectId) = []) (wanted : NameMatch)
    (scope : SymbolScope) : s.findSymbols name wanted scope = .ok (.noFossil p.name) := by
  have hempty : (s.fossilsOf (Cell.uuid p.projectId)).isEmpty = true := by
    rw [fossilsOf_eq_reverse (h.versions _), hnone]
    rfl
  rw [findSymbols, withProject, hfound]
  simp only [bind, Except.bind, hempty, if_true]

theorem Sound.findSymbols_total (h : Sound past s) (name : String) (wanted : NameMatch)
    (scope : SymbolScope) : ∃ found, s.findSymbols name wanted scope = .ok found := by
  obtain ⟨found, hfound⟩ := h.legible.findProject_total name .strict
  cases found with
  | none =>
      rw [findSymbols, withProject, hfound]
      exact ⟨_, rfl⟩
  | some p =>
      by_cases hnone : s.fossilRows (Cell.uuid p.projectId) = []
      · exact ⟨_, findSymbols_of_noFossil h.coherent hfound hnone wanted scope⟩
      · exact ⟨_, h.coherent.findSymbols_eq hfound hnone wanted scope⟩

theorem Sound.resolve_total (h : Sound past s) (name part : String) :
    ∃ found, RelatedFiles.resolve s name part = .ok found := by
  obtain ⟨found, hfound⟩ := h.legible.findProject_total name .strict
  cases found with
  | none =>
      rw [RelatedFiles.resolve, findSymbols, withProject, hfound]
      exact ⟨_, rfl⟩
  | some p =>
      by_cases hnone : s.fossilRows (Cell.uuid p.projectId) = []
      · rw [RelatedFiles.resolve, findSymbols_of_noFossil h.coherent hfound hnone]
        exact ⟨_, rfl⟩
      · obtain ⟨r, hr, -⟩ := h.coherent.resolve_eq hfound hnone part
        exact ⟨_, hr⟩

/-- The type of every symbol is held as a text. -/
theorem Coherent.kind_text (h : Coherent past s) {r : SymbolRow} (hr : r ∈ s.symbols) :
    ∃ label, r.kind = .text label := by
  obtain ⟨f, hf, hid, -⟩ := h.symbolFossils r hr
  obtain ⟨_, -, _, _, _, payload, fresh, owner, -, -, hrows⟩ := h.payloads f hf
  have hmem : r ∈ s.symbolsOf f.fossilId := List.mem_filter.mpr ⟨hr, decide_eq_true hid.symm⟩
  rw [hrows] at hmem
  obtain ⟨k, -, -, p, -, rfl⟩ := mem_symbolRows fresh owner hmem
  exact ⟨_, rfl⟩

theorem Coherent.symbolTypeCounts_total (h : Coherent past s) (fossilId : Uuid) :
    ∃ counts, s.symbolTypeCounts fossilId = .ok counts := by
  refine mapM_total fun u hu => ?_
  obtain ⟨r, hr, hkind⟩ := List.mem_map.mp (mem_orderedTally.mp hu).1
  obtain ⟨label, hlabel⟩ := h.kind_text (List.mem_of_mem_filter hr)
  obtain ⟨type, count⟩ := u
  rw [hlabel] at hkind
  cases hkind
  exact ⟨_, rfl⟩

end Fossils

section Log

variable {past : List Step} {s : Store}

theorem mem_of_mem_limited {α : Type} {limit : Nat} {rows : List α} {r : α}
    (hr : r ∈ limited limit rows) : r ∈ rows := by
  rw [limited] at hr
  split at hr
  · exact List.mem_of_mem_take hr
  · exact hr

theorem mem_of_mem_newestFirst {α : Type} {key : α → Cell} {rows : List α} {r : α}
    (hr : r ∈ newestFirst key rows) : r ∈ rows := by
  rwa [newestFirst, List.mem_mergeSort, List.mem_reverse] at hr

/-- What is counted in the log are the values of one of its rows. -/
theorem exists_of_mem_usageBy {key : QueryRow → Cell × Cell} {rows : List QueryRow}
    {u : (Cell × Cell) × Nat} (hu : u ∈ usageBy key rows) : ∃ r ∈ rows, key r = u.1 :=
  List.mem_map.mp (mem_orderedTally.mp hu).1

theorem Readable.queryUsage_total (h : Readable past s) (limit : Nat) :
    ∃ usage, s.queryUsage limit = .ok usage := by
  obtain ⟨rows, hrows, hread⟩ := h.queryLog
  rw [queryUsage, logRows, hrows]
  refine mapM_total fun u hu => ?_
  obtain ⟨r, hr, hkey⟩ := exists_of_mem_usageBy (mem_of_mem_limited hu)
  obtain ⟨e, rfl, -⟩ := hread r hr
  obtain ⟨⟨tool, project⟩, count⟩ := u
  cases hkey
  simp [queryRow, bind, Except.bind]

theorem Readable.paramUsage_total (h : Readable past s) (limit : Nat) :
    ∃ usage, s.paramUsage limit = .ok usage := by
  obtain ⟨rows, hrows, hread⟩ := h.queryLog
  rw [paramUsage, logRows, hrows]
  refine mapM_total fun u hu => ?_
  obtain ⟨r, hr, hkey⟩ := exists_of_mem_usageBy (mem_of_mem_limited hu)
  obtain ⟨e, rfl, -⟩ := hread r hr
  obtain ⟨⟨tool, params⟩, count⟩ := u
  cases hkey
  simp [queryRow, bind, Except.bind]

theorem Readable.recentQueries_total (h : Readable past s) (tool : Option String) (limit : Nat) :
    ∃ entries, s.recentQueries tool limit = .ok entries := by
  obtain ⟨rows, hrows, hread⟩ := h.queryLog
  -- whichever rows are wanted, they are among those of the log
  have hall : ∀ wanted : List QueryRow, wanted ⊆ rows →
      ∃ entries, (limited limit (newestFirst QueryRow.timestamp wanted)).mapM QueryRow.typed >>=
        List.mapM TypedQuery.decode = .ok entries := by
    intro wanted hwanted
    have htotal : ∀ r ∈ limited limit (newestFirst QueryRow.timestamp wanted),
        ∃ t, r.typed = .ok t ∧ ∃ e, t.decode = .ok e := by
      intro r hr
      obtain ⟨e, rfl, he⟩ := hread r (hwanted (mem_of_mem_newestFirst (mem_of_mem_limited hr)))
      exact ⟨_, typed_queryRow e, _, decode_typedQuery he⟩
    obtain ⟨typed, htyped, entries, hentries⟩ := mapM_twice htotal
    exact ⟨entries, by rw [htyped]; exact hentries⟩
  rw [recentQueries, logRows, hrows]
  exact hall (rows.filter _) (List.filter_subset_self rows)

theorem Readable.listInsights_total (h : Readable past s) (query : InsightQuery) :
    ∃ insights, s.listInsights query = .ok insights := by
  have hall : ∀ rows : List InsightRow, (∀ r ∈ rows, r ∈ s.insights) →
      ∃ typed, rows.mapM InsightRow.typed = .ok typed ∧
        ∃ insights, typed.mapM TypedInsight.decode = .ok insights := by
    intro rows hrows
    refine mapM_twice fun r hr => ?_
    obtain ⟨i, rfl, hi⟩ := h.insights r (hrows r hr)
    exact ⟨_, typed_insightRow i, _, decode_typedInsight hi⟩
  have hnewest : ∀ r ∈ newestFirst InsightRow.createdAt (s.insights.filter query.wants),
      r ∈ s.insights := fun r hr => List.mem_of_mem_filter (mem_of_mem_newestFirst hr)
  rw [listInsights]
  cases query.limit with
  | none =>
      obtain ⟨typed, htyped, insights, hinsights⟩ := hall _ hnewest
      exact ⟨insights, by simp only [htyped, bind, Except.bind]; exact hinsights⟩
  | some limit =>
      obtain ⟨typed, htyped, insights, hinsights⟩ :=
        hall (limited limit _) fun r hr => hnewest r (mem_of_mem_limited hr)
      exact ⟨insights, by simp only [htyped, bind, Except.bind]; exact hinsights⟩

end Log

section Corpora

variable {past : List Step} {s : Store}

theorem Sound.sectionOf_total (h : Sound past s) (p : Project) :
    ∃ text, Corpus.sectionOf s p = .ok text := by
  obtain ⟨found, hfound⟩ := h.fossilHistory_total p.name
  rw [Corpus.sectionOf, hfound]
  simp only [bind, Except.bind]
  cases (found.value?.getD []).getLast? with
  | none => exact ⟨_, rfl⟩
  | some latest =>
      obtain ⟨counts, hcounts⟩ := h.coherent.symbolTypeCounts_total latest.fossilId
      simp only [hcounts]
      exact ⟨_, rfl⟩

theorem Readable.ofProjects_total (h : Readable past s) (projects : List Project) :
    ∃ corpus, Corpus.ofProjects s projects = .ok corpus := by
  have htotal : ∀ p ∈ projects, ∃ text, Corpus.sectionOf s p = .ok text := fun p _ =>
    h.sound.sectionOf_total p
  obtain ⟨sections, hsections⟩ := mapM_total htotal
  obtain ⟨usage, husage⟩ := h.queryUsage_total Corpus.usageRows
  obtain ⟨recent, hrecent⟩ := h.recentQueries_total none Corpus.recentRows
  unfold Corpus.ofProjects
  rw [hsections]
  simp only [bind, Except.bind, husage, hrecent]
  exact ⟨_, rfl⟩

theorem Readable.build_total (h : Readable past s) (name : Option String) :
    ∃ found, Corpus.build s name = .ok found := by
  cases name with
  | some name =>
      obtain ⟨found, hfound⟩ := h.sound.legible.findProject_total name .strict
      rw [Corpus.build, hfound]
      cases found with
      | none => exact ⟨_, rfl⟩
      | some p =>
          obtain ⟨corpus, hcorpus⟩ := h.ofProjects_total [p]
          exact ⟨.found corpus, by simp only [bind, Except.bind, hcorpus, Except.map]⟩
  | none =>
      obtain ⟨summaries, hsummaries⟩ := h.sound.legible.listProjects_total
      obtain ⟨corpus, hcorpus⟩ := h.ofProjects_total
        ((summaries.map ProjectSummary.project).filter (·.status = .active))
      rw [Corpus.build, hsummaries]
      exact ⟨.found corpus, by simp only [bind, Except.bind, hcorpus, Except.map]⟩

theorem Readable.refinement_total (h : Readable past s) :
    ∃ found, Corpus.refinement s = .ok found := by
  obtain ⟨found, hfound⟩ := h.sound.legible.latestPrompt_total none
  rw [Corpus.refinement, hfound]
  cases found with
  | none => exact ⟨_, rfl⟩
  | some p =>
      obtain ⟨usage, husage⟩ := h.paramUsage_total Corpus.paramRows
      obtain ⟨lookups, hlookups⟩ := h.recentQueries_total (some "lookup_symbol") Corpus.lookupRows
      simp only [bind, Except.bind, husage, hlookups]
      exact ⟨_, rfl⟩

/-- Tables that can be read answer every read. -/
theorem Readable.readsAll (h : Readable past s) : s.ReadsAll where
  findProject := h.sound.legible.findProject_total
  listProjects := h.sound.legible.listProjects_total
  latestFossil := h.sound.latestFossil_total
  fossilHistory := h.sound.fossilHistory_total
  symbolsForFossil := h.sound.coherent.symbolsForFossil_total
  findSymbols := h.sound.findSymbols_total
  symbolTypeCounts := h.sound.coherent.symbolTypeCounts_total
  queryUsage := h.queryUsage_total
  paramUsage := h.paramUsage_total
  recentQueries := h.recentQueries_total
  listInsights := h.listInsights_total
  latestPrompt := h.sound.legible.latestPrompt_total
  analysis := h.build_total
  refinement := h.refinement_total
  resolve := h.sound.resolve_total

end Corpora

end FossilRecord.Store
