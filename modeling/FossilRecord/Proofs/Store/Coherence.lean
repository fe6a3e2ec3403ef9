import FossilRecord.Proofs.Store.History
import FossilRecord.Proofs.Store.Versions

/-!
# The tables hang together

`Coherent` ties the tables to one another and to the history that wrote them: identifiers and names
are unique, the versions of a project count up from one, every symbol belongs to a fossil of its
project and stands where its payload had it, a project was indexed when its last fossil was made,
and whatever is referred to is there.  Every write keeps it, also one that is refused half way.

`run_consistent` states it for the stores that histories leave.
-/

namespace FossilRecord.Store

/-- The time at which the last of some fossils was made. -/
def lastMade (rows : List FossilRow) : Cell :=
  match rows.getLast? with
  | none => .null
  | some f => f.createdAt

/-- The rows are the symbols of a payload that a history ingested, in the order of the payload. -/
def ComeFrom (past : List Step) (rows : List SymbolRow) : Prop :=
  ∃ step ∈ past, ∃ name raw promptUsed payload fresh projectId,
    step.write = .ingest name raw promptUsed ∧ Payload.parse raw = .ok payload ∧
      rows = symbolRows fresh projectId 0 payload.symbols

/-- How the tables hang together after a history. -/
structure Coherent (past : List Step) (s : Store) : Prop where
  projectIds : (s.projects.map ProjectRow.projectId).Nodup
  projectNames : s.DistinctProjectNames
  fossilIds : (s.fossils.map FossilRow.fossilId).Nodup
  fossilProjects : ∀ f ∈ s.fossils, f.projectId ∈ s.projects.map ProjectRow.projectId
  versions : ∀ projectId, CountsUp (s.fossilRows projectId)
  symbolFossils : ∀ r ∈ s.symbols, ∃ f ∈ s.fossils,
    f.fossilId = r.fossilId ∧ f.projectId = r.projectId
  payloads : ∀ f ∈ s.fossils, ComeFrom past (s.symbolsOf f.fossilId)
  made : ∀ f ∈ s.fossils, f.createdAt ≠ .null
  indexed : ∀ p ∈ s.projects, p.lastIndexed = lastMade (s.fossilRows p.projectId)
  insightProjects : ∀ i ∈ s.insights,
    i.projectId = .null ∨ i.projectId ∈ s.projects.map ProjectRow.projectId
  insightFossils : ∀ i ∈ s.insights,
    i.fossilId = .null ∨ i.fossilId ∈ s.fossils.map FossilRow.fossilId
  promptProjects : ∀ p ∈ s.prompts,
    p.projectId = .null ∨ p.projectId ∈ s.projects.map ProjectRow.projectId

/-! ## Rows that are there -/

/-- What holds of all rows and of one more holds when that one is added. -/
theorem forall_mem_snoc {α : Type} {good : α → Prop} {rows : List α} {row : α}
    (hrows : ∀ r ∈ rows, good r) (hrow : good row) : ∀ r ∈ rows ++ [row], good r := by
  intro r hr
  rcases List.mem_append.mp hr with hr | hr
  · exact hrows r hr
  · rwa [List.mem_singleton.mp hr]

theorem mem_of_hasProject {s : Store} {c : Cell} (hproject : s.hasProject c = true) :
    c ∈ s.projects.map ProjectRow.projectId := by
  simpa [hasProject] using hproject

theorem ne_of_hasFossil {s : Store} {c : Cell} (hkey : s.hasFossil c = false) :
    ∀ f ∈ s.fossils, f.fossilId ≠ c := by
  intro f hf heq
  have htrue : s.hasFossil c = true := by
    simp only [hasFossil, List.any_eq_true, decide_eq_true_eq]
    exact ⟨f, hf, heq⟩
  rw [hkey] at htrue
  cases htrue

theorem optUuid_refersToProject {s : Store} {id : Option Uuid}
    (hrefers : s.refersToProject id = true) :
    optUuid id = .null ∨ optUuid id ∈ s.projects.map ProjectRow.projectId := by
  cases id with
  | none => exact .inl rfl
  | some id => exact .inr (mem_of_hasProject hrefers)

theorem optUuid_refersToFossil {s : Store} {id : Option Uuid}
    (hrefers : s.refersToFossil id = true) :
    optUuid id = .null ∨ optUuid id ∈ s.fossils.map FossilRow.fossilId := by
  cases id with
  | none => exact .inl rfl
  | some id =>
      obtain ⟨f, hf, hid⟩ : ∃ f ∈ s.fossils, f.fossilId = Cell.uuid id := by
        simpa [refersToFossil] using hrefers
      exact .inr (List.mem_map.mpr ⟨f, hf, hid⟩)

/-! ## The rows of another fossil -/

section Stored

variable (s : Store) (fresh : Fresh) (projectId : Uuid) (version : Int) (p : Payload)
  (promptUsed : String)

theorem withFossil_projectIds :
    (s.withFossil fresh projectId version p promptUsed).projects.map ProjectRow.projectId =
      s.projects.map ProjectRow.projectId := by
  rw [withFossil, alterProjects, List.map_map]
  refine List.map_congr_left fun r _ => ?_
  simp only [Function.comp_apply]
  split <;> rfl

theorem withFossil_projectNames :
    (s.withFossil fresh projectId version p promptUsed).projects.map ProjectRow.name =
      s.projects.map ProjectRow.name := by
  rw [withFossil, alterProjects, List.map_map]
  refine List.map_congr_left fun r _ => ?_
  simp only [Function.comp_apply]
  split <;> rfl

theorem withFossil_fossils :
    (s.withFossil fresh projectId version p promptUsed).fossils =
      s.fossils ++ [fossilRow fresh projectId version p promptUsed] := rfl

theorem withFossil_symbols :
    (s.withFossil fresh projectId version p promptUsed).symbols =
      s.symbols ++ symbolRows fresh projectId 0 p.symbols := rfl

theorem fossilRows_withFossil (c : Cell) :
    (s.withFossil fresh projectId version p promptUsed).fossilRows c =
      if c = Cell.uuid projectId then
        s.fossilRows c ++ [fossilRow fresh projectId version p promptUsed]
      else s.fossilRows c := by
  rw [fossilRows, withFossil_fossils, List.filter_append]
  split
  · rename_i hc
    rw [List.filter_cons_of_pos (by simp [fossilRow, hc])]
    rfl
  · rename_i hc
    rw [List.filter_cons_of_neg fun heq => hc (of_decide_eq_true heq).symm]
    simp [fossilRows]

variable {s fresh projectId version p promptUsed}

/-- The symbols of an earlier fossil are what they were. -/
theorem symbolsOf_withFossil_of_ne {c : Cell} (hc : c ≠ Cell.uuid (fresh.id 0)) :
    (s.withFossil fresh projectId version p promptUsed).symbolsOf c = s.symbolsOf c := by
  have hnew : (symbolRows fresh projectId 0 p.symbols).filter (fun r => r.fossilId = c) = [] := by
    rw [List.filter_eq_nil_iff]
    intro r hr
    rw [(fossilId_of_mem_symbolRows fresh projectId hr).1]
    simpa using Ne.symm hc
  rw [symbolsOf, withFossil_symbols, List.filter_append, hnew, List.append_nil]
  rfl

/-- The symbols of the fossil that was added are those of its payload. -/
theorem symbolsOf_withFossil_self (hnew : ∀ r ∈ s.symbols, r.fossilId ≠ Cell.uuid (fresh.id 0)) :
    (s.withFossil fresh projectId version p promptUsed).symbolsOf (Cell.uuid (fresh.id 0)) =
      symbolRows fresh projectId 0 p.symbols := by
  have hold : s.symbols.filter (fun r => r.fossilId = Cell.uuid (fresh.id 0)) = [] := by
    rw [List.filter_eq_nil_iff]
    intro r hr
    simpa using hnew r hr
  have hall : (symbolRows fresh projectId 0 p.symbols).filter
      (fun r => r.fossilId = Cell.uuid (fresh.id 0)) = symbolRows fresh projectId 0 p.symbols := by
    rw [List.filter_eq_self]
    intro r hr
    simpa using (fossilId_of_mem_symbolRows fresh projectId hr).1
  rw [symbolsOf, withFossil_symbols, List.filter_append, hold, hall, List.nil_append]

end Stored

namespace Coherent

variable {past : List Step} {s : Store}

theorem blank (uniqueSummaries uniqueSymbolNames : Bool) :
    Coherent [] (Store.blank uniqueSummaries uniqueSymbolNames) := by
  constructor <;> simp [Store.blank, empty, DistinctProjectNames, fossilRows, CountsUp, versionsTo]

theorem mono (h : Coherent past s) {more : List Step} (hsub : past ⊆ more) : Coherent more s where
  projectIds := h.projectIds
  projectNames := h.projectNames
  fossilIds := h.fossilIds
  fossilProjects := h.fossilProjects
  versions := h.versions
  symbolFossils := h.symbolFossils
  payloads f hf := by
    obtain ⟨step, hstep, hrows⟩ := h.payloads f hf
    exact ⟨step, hsub hstep, hrows⟩
  made := h.made
  indexed := h.indexed
  insightProjects := h.insightProjects
  insightFossils := h.insightFossils
  promptProjects := h.promptProjects

/-! ## Changes of projects -/

/-- Projects may change in all but their identifier, their name and the time of indexing. -/
theorem mapProjects (h : Coherent past s) (change : ProjectRow → ProjectRow)
    (hid : ∀ r, (change r).projectId = r.projectId) (hname : ∀ r, (change r).name = r.name)
    (hindexed : ∀ r, (change r).lastIndexed = r.lastIndexed) :
    Coherent past { s with projects := s.projects.map change } := by
  have hids : (s.projects.map change).map ProjectRow.projectId =
      s.projects.map ProjectRow.projectId := by
    simp [Function.comp_def, hid]
  have hnames : (s.projects.map change).map ProjectRow.name = s.projects.map ProjectRow.name := by
    simp [Function.comp_def, hname]
  refine
    { projectIds := by rw [hids]; exact h.projectIds
      projectNames := by rw [DistinctProjectNames, hnames]; exact h.projectNames
      fossilIds := h.fossilIds
      fossilProjects := by rw [hids]; exact h.fossilProjects
      versions := h.versions
      symbolFossils := h.symbolFossils
      payloads := h.payloads
      made := h.made
      indexed := ?_
      insightProjects := by rw [hids]; exact h.insightProjects
      insightFossils := h.insightFossils
      promptProjects := by rw [hids]; exact h.promptProjects }
  intro p hp
  obtain ⟨r, hr, rfl⟩ := List.mem_map.mp hp
  rw [hindexed, hid]
  exact h.indexed r hr

/-- A project may be added that has a name and an identifier of its own and was never indexed. -/
theorem addProject (h : Coherent past s) {row : ProjectRow}
    (hname : ∀ r ∈ s.projects, r.name ≠ row.name)
    (hid : ∀ r ∈ s.projects, r.projectId ≠ row.projectId) (hindexed : row.lastIndexed = .null) :
    Coherent past { s with projects := s.projects ++ [row] } := by
  have hgrow : ∀ {c : Cell}, c ∈ s.projects.map ProjectRow.projectId →
      c ∈ (s.projects ++ [row]).map ProjectRow.projectId := by
    intro c hc
    rw [List.map_append]
    exact List.mem_append_left _ hc
  -- every fossil is that of a project that is there, so the new project has none
  have hnone : s.fossilRows row.projectId = [] := by
    rw [fossilRows, List.filter_eq_nil_iff]
    intro f hf
    obtain ⟨p, hp, hpf⟩ := List.mem_map.mp (h.fossilProjects f hf)
    simpa [← hpf] using hid p hp
  exact
    { projectIds := by
        rw [List.map_append, List.nodup_append]
        refine ⟨h.projectIds, by simp, ?_⟩
        simpa using hid
      projectNames := by
        rw [DistinctProjectNames, List.map_append, List.nodup_append]
        refine ⟨h.projectNames, by simp, ?_⟩
        simpa using hname
      fossilIds := h.fossilIds
      fossilProjects := fun f hf => hgrow (h.fossilProjects f hf)
      versions := h.versions
      symbolFossils := h.symbolFossils
      payloads := h.payloads
      made := h.made
      indexed := by
        have hlast : lastMade (s.fossilRows row.projectId) = .null := by rw [hnone]; rfl
        exact forall_mem_snoc h.indexed (hindexed.trans hlast.symm)
      insightProjects := fun i hi => (h.insightProjects i hi).imp_right hgrow
      insightFossils := h.insightFossils
      promptProjects := fun p hp => (h.promptProjects p hp).imp_right hgrow }

/-! ## What refers to rows -/

theorem addInsight (h : Coherent past s) {row : InsightRow}
    (hproject : row.projectId = .null ∨ row.projectId ∈ s.projects.map ProjectRow.projectId)
    (hfossil : row.fossilId = .null ∨ row.fossilId ∈ s.fossils.map FossilRow.fossilId) :
    Coherent past { s with insights := s.insights ++ [row] } :=
  { h with
    insightProjects := forall_mem_snoc h.insightProjects hproject
    insightFossils := forall_mem_snoc h.insightFossils hfossil }

theorem addPrompt (h : Coherent past s) {row : PromptRow}
    (hproject : row.projectId = .null ∨ row.projectId ∈ s.projects.map ProjectRow.projectId) :
    Coherent past { s with prompts := s.prompts ++ [row] } :=
  { h with promptProjects := forall_mem_snoc h.promptProjects hproject }

/-! ## Another fossil -/

/-- Symbols refer to fossils that are there, so none refers to one that is not. -/
theorem symbol_fossilId_ne (h : Coherent past s) {c : Cell} (hkey : s.hasFossil c = false) :
    ∀ r ∈ s.symbols, r.fossilId ≠ c := by
  intro r hr heq
  obtain ⟨f, hf, hid, -⟩ := h.symbolFossils r hr
  exact ne_of_hasFossil hkey f hf (hid.trans heq)

/-- The next fossil of a project may be added, under an identifier that no fossil has. -/
theorem addFossil (h : Coherent past s) {fresh : Fresh} {projectId : Uuid} {version : Int}
    {p : Payload} {promptUsed : String}
    (hversion : s.versionFor (Cell.uuid projectId) = .ok version)
    (hkey : s.hasFossil (Cell.uuid (fresh.id 0)) = false)
    (hproject : s.hasProject (Cell.uuid projectId) = true)
    (hpayload : ComeFrom past (symbolRows fresh projectId 0 p.symbols)) :
    Coherent past (s.withFossil fresh projectId version p promptUsed) := by
  have hids := withFossil_projectIds s fresh projectId version p promptUsed
  have hnames := withFossil_projectNames s fresh projectId version p promptUsed
  have hrows := fossilRows_withFossil s fresh projectId version p promptUsed
  have hne := ne_of_hasFossil hkey
  have hgrow : ∀ {c : Cell}, c ∈ s.fossils.map FossilRow.fossilId →
      c ∈ (s.withFossil fresh projectId version p promptUsed).fossils.map FossilRow.fossilId := by
    intro c hc
    rw [withFossil_fossils, List.map_append]
    exact List.mem_append_left _ hc
  refine
    { projectIds := by rw [hids]; exact h.projectIds
      projectNames := by rw [DistinctProjectNames, hnames]; exact h.projectNames
      fossilIds := ?fossilIds
      fossilProjects := ?fossilProjects
      versions := ?versions
      symbolFossils := ?symbolFossils
      payloads := ?payloads
      made := ?made
      indexed := ?indexed
      insightProjects := by rw [hids]; exact h.insightProjects
      insightFossils := fun i hi => (h.insightFossils i hi).imp_right hgrow
      promptProjects := by rw [hids]; exact h.promptProjects }
  case fossilIds =>
    rw [withFossil_fossils, List.map_append, List.nodup_append]
    refine ⟨h.fossilIds, by simp, ?_⟩
    simpa [fossilRow] using hne
  case fossilProjects =>
    rw [hids]
    exact forall_mem_snoc h.fossilProjects (mem_of_hasProject hproject)
  case versions =>
    intro c
    rw [hrows]
    split
    · rename_i hc
      -- the rows of this project grow by one, which has the version that follows theirs
      refine (h.versions c).snoc ?_
      rw [hc, fossilRow, versionFor_ok (h.versions _) hversion]
    · exact h.versions c
  case symbolFossils =>
    intro r hr
    rcases List.mem_append.mp hr with hr | hr
    · obtain ⟨f, hf, hmatch⟩ := h.symbolFossils r hr
      exact ⟨f, List.mem_append_left _ hf, hmatch⟩
    · obtain ⟨hfossil, howner⟩ := fossilId_of_mem_symbolRows fresh projectId hr
      exact ⟨_, List.mem_append_right _ (List.mem_singleton.mpr rfl), hfossil.symm, howner.symm⟩
  case payloads =>
    -- the other fossils keep their symbols, and no symbol refers to the new fossil before
    refine forall_mem_snoc (fun f hf => ?_) ?_
    · rw [symbolsOf_withFossil_of_ne (hne f hf)]
      exact h.payloads f hf
    · rw [fossilRow, symbolsOf_withFossil_self (h.symbol_fossilId_ne hkey)]
      exact hpayload
  case made =>
    exact forall_mem_snoc h.made (by simp [fossilRow, Cell.instant])
  case indexed =>
    intro r' hr'
    obtain ⟨r, hr, rfl⟩ := List.mem_map.mp hr'
    split
    · rename_i hid
      -- the new row is the last one of its project
      rw [hrows, if_pos hid]
      simp [lastMade, fossilRow]
    · rename_i hid
      rw [hrows, if_neg hid]
      exact h.indexed r hr

/-! ## Histories -/

/-- Every write keeps the tables together. -/
theorem perform (h : Coherent past s) (step : Step) :
    Coherent (past ++ [step]) (s.perform step) := by
  have hpast : Coherent (past ++ [step]) s := h.mono (List.subset_append_left past [step])
  have heffect := perform_effect s h.projectNames step
  -- `Effect` speaks of the write and the tables after it, so both get names before the cases
  generalize hw : step.write = w at heffect
  generalize s.perform step = s' at heffect
  cases heffect with
  | unchanged => exact hpast
  | described input =>
      refine hpast.mapProjects _ ?_ ?_ ?_ <;> intro r <;> split <;> rfl
  | registered input hname hid => exact hpast.addProject hname hid rfl
  | restated name status project hfound =>
      refine hpast.mapProjects _ ?_ ?_ ?_ <;> intro r <;> split <;> rfl
  | stored name raw promptUsed payload project prompt drawn version hparse hfound hprompt hversion
      hkey hproject =>
      refine hpast.addFossil hversion hkey hproject ?_
      exact ⟨step, by simp, name, raw, promptUsed, payload, _, _, hw, hparse, rfl⟩
  | logged input rows hrows => exact { hpast with }
  | noted input hproject hfossil =>
      exact hpast.addInsight (optUuid_refersToProject hproject) (optUuid_refersToFossil hfossil)
  | instructed input hproject => exact hpast.addPrompt (optUuid_refersToProject hproject)

/-- Every history keeps the tables together. -/
theorem run (h : Coherent past s) (steps : List Step) :
    Coherent (past ++ steps) (s.run steps) := by
  induction steps generalizing past s with
  | nil => simpa using h
  | cons step rest ih =>
      have hrest := ih (h.perform step)
      rwa [List.append_assoc] at hrest

/-- No history changes the constraints of the tables. -/
theorem run_constraints (h : Coherent past s) (steps : List Step) :
    (s.run steps).uniqueSummaries = s.uniqueSummaries ∧
      (s.run steps).uniqueSymbolNames = s.uniqueSymbolNames := by
  induction steps generalizing past s with
  | nil => exact ⟨rfl, rfl⟩
  | cons step rest ih =>
      have hstep := (perform_effect s h.projectNames step).constraints
      have hrest := ih (h.perform step)
      exact ⟨hrest.1.trans hstep.1, hrest.2.trans hstep.2⟩

theorem distinctProjectIds (h : Coherent past s) : s.DistinctProjectIds := by
  have hpairs := List.pairwise_map.mp h.projectIds
  apply hpairs.imp
  intro a b hne _
  exact hne

end Coherent

/-! ## What holds after every history -/

/-- The places from zero on. -/
def placesTo (count : Nat) : List Cell :=
  (List.range count).map fun (k : Nat) => Cell.integer k

theorem symbolRows_seq (fresh : Fresh) (projectId : Uuid) (place : Nat)
    (symbols : List PayloadSymbol) :
    (symbolRows fresh projectId place symbols).map SymbolRow.seq =
      (List.range symbols.length).map fun (k : Nat) => Cell.integer (place + k) := by
  induction symbols generalizing place with
  | nil => rfl
  | cons p rest ih =>
      rw [symbolRows, List.map_cons, ih, List.length_cons, List.range_succ_eq_map, List.map_cons,
        List.map_map]
      refine List.cons_eq_cons.mpr ⟨by simp [symbolRow], List.map_congr_left fun k _ => ?_⟩
      simp only [Function.comp_apply, Cell.integer.injEq]
      omega

/-- Whether a value is missing or among the identifiers of a table. -/
def RefersInto (ids : List Cell) (c : Cell) : Prop :=
  c = .null ∨ c ∈ ids

/-- What holds of the tables after a history. -/
structure Consistent (past : List Step) (s : Store) : Prop where
  /-- Every project has an identifier and a name of its own. -/
  projects : (s.projects.map ProjectRow.projectId).Nodup ∧ (s.projects.map ProjectRow.name).Nodup
  /-- Every fossil is that of a project. -/
  owners : ∀ f ∈ s.fossils, f.projectId ∈ s.projects.map ProjectRow.projectId
  /-- In the order of writing the fossils of a project have the versions 1, 2, 3 and so on. -/
  versions : ∀ p ∈ s.projects, (s.fossilRows p.projectId).map FossilRow.version =
    versionsTo (s.fossilRows p.projectId).length
  /-- Every symbol is that of one fossil and names the project of that fossil. -/
  symbols : ∀ r ∈ s.symbols, ∃ f ∈ s.fossils, f.fossilId = r.fossilId ∧
    f.projectId = r.projectId ∧ ∀ g ∈ s.fossils, g.fossilId = r.fossilId → g = f
  /-- In the order of writing the symbols of a fossil have the places 0, 1, 2 and so on, and they
  are those of a payload that was ingested, in the order of the payload. -/
  places : ∀ f ∈ s.fossils, (s.symbolsOf f.fossilId).map SymbolRow.seq =
    placesTo (s.symbolsOf f.fossilId).length ∧ ComeFrom past (s.symbolsOf f.fossilId)
  /-- A project without a fossil was never indexed, and any other when its fossil of the highest
  version was made. -/
  indexed : ∀ p ∈ s.projects, (p.lastIndexed = .null ↔ s.fossilRows p.projectId = []) ∧
    ∀ f ∈ s.fossilRows p.projectId,
      (∀ g ∈ s.fossilRows p.projectId, g.version.le f.version = true) →
        p.lastIndexed = f.createdAt
  /-- What insights and prompts refer to is there. -/
  references :
    (∀ i ∈ s.insights, RefersInto (s.projects.map ProjectRow.projectId) i.projectId ∧
      RefersInto (s.fossils.map FossilRow.fossilId) i.fossilId) ∧
    ∀ p ∈ s.prompts, RefersInto (s.projects.map ProjectRow.projectId) p.projectId

/-- The row of the highest version is the last one. -/
theorem CountsUp.eq_getLast {rows : List FossilRow} (h : CountsUp rows) {f : FossilRow}
    (hf : f ∈ rows) (hhighest : ∀ g ∈ rows, g.version.le f.version = true) :
    rows.getLast? = some f := by
  obtain ⟨before, after, rfl⟩ := List.append_of_mem hf
  cases after with
  | nil => simp
  | cons g rest =>
      have hpairs := h.pairwise
      rw [List.pairwise_append, List.pairwise_cons] at hpairs
      -- a row behind it would have a higher version
      have hbelow := (hpairs.2.1.1 g (by simp)).2
      have habove := hhighest g (by simp)
      rw [hbelow] at habove
      cases habove

theorem Coherent.consistent {past : List Step} {s : Store} (h : Coherent past s) :
    Consistent past s where
  projects := ⟨h.projectIds, h.projectNames⟩
  owners := h.fossilProjects
  versions p _ := h.versions p.projectId
  symbols r hr := by
    obtain ⟨f, hf, hid, howner⟩ := h.symbolFossils r hr
    refine ⟨f, hf, hid, howner, fun g hg hgid => ?_⟩
    exact List.inj_on_of_nodup_map h.fossilIds hg hf (hgid.trans hid.symm)
  places f hf := by
    have hpayload := h.payloads f hf
    obtain ⟨step, -, name, raw, promptUsed, payload, fresh, projectId, -, -, hrows⟩ := hpayload
    refine ⟨?_, h.payloads f hf⟩
    rw [hrows, symbolRows_seq, symbolRows_length, placesTo]
    simp
  indexed p hp := by
    have hindexed := h.indexed p hp
    constructor
    · rw [hindexed, lastMade]
      split
      · rename_i hlast
        simpa using hlast
      · rename_i f hlast
        have hmem := List.mem_of_getLast? hlast
        have hmade := h.made f (List.mem_of_mem_filter hmem)
        constructor
        · intro hnull
          exact absurd hnull hmade
        · intro hnil
          rw [hnil] at hmem
          cases hmem
    · intro f hf hhighest
      rw [hindexed, lastMade, (h.versions p.projectId).eq_getLast hf hhighest]
  references :=
    ⟨fun i hi => ⟨h.insightProjects i hi, h.insightFossils i hi⟩, h.promptProjects⟩

/-- Whatever is written to a store without rows, in whatever order and whether it succeeds, is
rejected or fails on the way, its tables hang together. -/
theorem run_consistent (uniqueSummaries uniqueSymbolNames : Bool) (steps : List Step) :
    Consistent steps ((blank uniqueSummaries uniqueSymbolNames).run steps) :=
  ((Coherent.blank uniqueSummaries uniqueSymbolNames).run steps).consistent

end FossilRecord.Store
