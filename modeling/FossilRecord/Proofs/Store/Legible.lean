import FossilRecord.Proofs.Fossil
import FossilRecord.Proofs.Instant
import FossilRecord.Proofs.Payload
import FossilRecord.Proofs.Store.Coherence
import FossilRecord.Proofs.Uuid

/-!
# What was written can be read

A row that the store wrote is read back as what it was written from: identifiers, times, words for
kinds and lists in JSON come back as they were.  Only relationships may come back as something else,
when they hold numbers that are no whole numbers of 64 bits.

Projects change after they were written, so that their rows are legible is a property that every
write keeps.
-/

namespace FossilRecord.Store

theorem readUuid_toString (u : Uuid) : readUuid (toString u) = .ok u := by
  rw [readUuid, Uuid.parse_toString]

theorem readInstant_toOffset {t : Instant} (ht : t.IsValid) : readInstant t.toOffset = .ok t := by
  rw [readInstant, Instant.parseStrict_toOffset ht]

@[simp] theorem Cell.asText_text (index : Nat) (name s : String) :
    Cell.asText index name (.text s) = .ok s := rfl

@[simp] theorem Cell.asInteger_integer (index : Nat) (name : String) (n : Int) :
    Cell.asInteger index name (.integer n) = .ok n := rfl

@[simp] theorem Cell.asOption_optText (index : Nat) (name : String) (s : Option String) :
    Cell.asOption (Cell.asText index name) (.optText s) = .ok s := by
  cases s <;> rfl

@[simp] theorem Cell.asOption_optInteger (index : Nat) (name : String) (n : Option Int) :
    Cell.asOption (Cell.asInteger index name) (.optInteger n) = .ok n := by
  cases n <;> rfl

theorem readOption_map {α β : Type} {read : String → Except Failure α} {write : β → String}
    {f : β → α} {value : Option β} (h : ∀ x ∈ value, read (write x) = .ok (f x)) :
    readOption read (value.map write) = .ok (value.map f) := by
  cases value with
  | none => rfl
  | some x => simp [readOption, h x rfl, Except.map]

theorem readOption_map_self {α : Type} {read : String → Except Failure α} {write : α → String}
    {value : Option α} (h : ∀ x ∈ value, read (write x) = .ok x) :
    readOption read (value.map write) = .ok value := by
  have hmap := readOption_map (f := id) h
  rwa [Option.map_id, id] at hmap

/-! ## Projects -/

/-- The row of a project. -/
def projectRow (p : Project) : ProjectRow where
  projectId := Cell.uuid p.projectId
  name := .text p.name
  path := .text p.path
  stack := .text p.stack
  status := .text p.status.label
  lastIndexed := .optText (p.lastIndexed.map Instant.toOffset)

theorem ofLabel?_label (status : ProjectStatus) :
    ProjectStatus.ofLabel? status.label = some status := by
  cases status <;> decide

theorem decode_projectRow {p : Project} (h : ∀ t ∈ p.lastIndexed, t.IsValid) :
    (projectRow p).decode = .ok p := by
  have hindexed : readOption readInstant (p.lastIndexed.map Instant.toOffset) =
      .ok p.lastIndexed := readOption_map_self fun t ht => readInstant_toOffset (h t ht)
  simp [ProjectRow.decode, ProjectRow.typed, TypedProject.decode, projectRow, Cell.uuid, hindexed,
    readUuid_toString, ofLabel?_label, bind, Except.bind]

/-! ## Prompts -/

theorem decode_promptRow {p : CustodianPrompt} (h : p.createdAt.IsValid) :
    (promptRow p).decode = .ok p := by
  have hproject : readOption readUuid (p.projectId.map toString) = .ok p.projectId :=
    readOption_map_self fun u _ => readUuid_toString u
  have hcell : optUuid p.projectId = .optText (p.projectId.map toString) := by
    cases p.projectId <;> rfl
  simp [PromptRow.decode, PromptRow.typed, TypedPrompt.decode, promptRow, Cell.uuid, Cell.instant,
    hcell, hproject, readUuid_toString, readInstant_toOffset h, bind, Except.bind]

/-! ## Fossils -/

/-- The fossil that a payload became. -/
def storedFossil (fresh : Fresh) (projectId : Uuid) (version : Int) (p : Payload)
    (promptUsed : String) : Fossil where
  fossilId := fresh.id 0
  projectId := projectId
  version := version
  createdAt := fresh.now
  summary := p.summary
  architecture := p.architecture
  recentChanges := p.recentChanges
  knownIssues := p.knownIssues
  dependencies := p.dependencies
  fileTree := p.fileTree
  promptUsed := promptUsed

theorem decode_fossilRow {fresh : Fresh} (hnow : fresh.now.IsValid) (projectId : Uuid)
    (version : Int) {p : Payload} (hfiles : ∀ e ∈ p.fileTree, e.IsCounted) (promptUsed : String) :
    (fossilRow fresh projectId version p promptUsed).decode =
      .ok (storedFossil fresh projectId version p promptUsed) := by
  have hdependencies : readJson (Json.parseWith (Json.readList Dependency.read))
      (Json.compact (.list (p.dependencies.map Dependency.toJson))) = .ok p.dependencies := by
    rw [readJson, Dependency.parse_list]
  have hfileTree : readJson (Json.parseWith (Json.readList FileTreeEntry.read))
      (Json.compact (.list (p.fileTree.map FileTreeEntry.toJson))) = .ok p.fileTree := by
    rw [readJson, FileTreeEntry.parse_list hfiles]
  simp [FossilRow.decode, FossilRow.typed, TypedFossil.decode, fossilRow, storedFossil, Cell.uuid,
    Cell.instant, readUuid_toString, readInstant_toOffset hnow, hdependencies, hfileTree, bind,
    Except.bind]

/-! ## Symbols -/

/-- What is read of relationships that are kept. -/
def keptRelationships : Json → Json
  | .text s =>
      match Json.parse s with
      | .ok j => j
      | .error _ => .null
  | j => j.readBack

theorem parse_relationshipsText {j : Json} (h : Relationships.IsKept j) :
    Json.parse (relationshipsText j) = .ok (keptRelationships j) := by
  cases h with
  | object hfits => exact Json.parse_compact hfits
  | text hparse => simp only [relationshipsText, keptRelationships, hparse]

theorem keptRelationships_object {j : Json} (h : Relationships.IsKept j) :
    ∃ fields, keptRelationships j = .object fields := by
  cases h with
  | object hfits => exact ⟨_, rfl⟩
  | text hparse =>
      simp only [keptRelationships, hparse]
      exact ⟨_, rfl⟩

/-- The symbol at a place of a payload as its row holds it, beside the version of its fossil. -/
def typedSymbol (fresh : Fresh) (projectId : Uuid) (version : Int) (place : Nat)
    (p : PayloadSymbol) : TypedSymbol where
  symbolId := toString (fresh.id (place + 1))
  fossilId := toString (fresh.id 0)
  projectId := toString projectId
  version := version
  filePath := p.filePath
  lineNumber := p.lineNumber
  kind := p.kind.label
  name := p.name
  signature := p.signature
  description := p.description
  relationships := p.relationships.map relationshipsText

/-- The symbol that the one at a place of a payload became. -/
def storedSymbol (fresh : Fresh) (projectId : Uuid) (version : Int) (place : Nat)
    (p : PayloadSymbol) : Symbol where
  symbolId := fresh.id (place + 1)
  fossilId := fresh.id 0
  projectId := projectId
  version := version
  filePath := p.filePath
  lineNumber := p.lineNumber
  kind := p.kind
  name := p.name
  signature := p.signature
  description := p.description
  relationships := p.relationships.map keptRelationships

theorem typed_symbolRow (fresh : Fresh) (projectId : Uuid) (place : Nat) (p : PayloadSymbol)
    {f : FossilRow} {version : Int} (hversion : f.version = .integer version) :
    (JoinedSymbol.mk (symbolRow fresh projectId place p) f).typed =
      .ok (typedSymbol fresh projectId version place p) := by
  simp [JoinedSymbol.typed, symbolRow, typedSymbol, Cell.uuid, hversion, bind, Except.bind]

theorem decode_typedSymbol (fresh : Fresh) (projectId : Uuid) (version : Int) (place : Nat)
    {p : PayloadSymbol} (hp : p.IsSound) :
    (typedSymbol fresh projectId version place p).decode =
      .ok (storedSymbol fresh projectId version place p) := by
  have hkind : SymbolType.ofLabel p.kind.label = p.kind := hp.kind
  have hrelationships : readOption (readJson Json.parse) (p.relationships.map relationshipsText) =
      .ok (p.relationships.map keptRelationships) := by
    refine readOption_map fun j hj => ?_
    rw [readJson, parse_relationshipsText (hp.relationships j hj)]
  simp [TypedSymbol.decode, typedSymbol, storedSymbol, readUuid_toString, hkind, hrelationships,
    bind, Except.bind]

/-! ## Tables that can be read -/

/-- The projects and prompts of a store can be read. -/
structure Legible (s : Store) : Prop where
  projects : ∀ r ∈ s.projects, ∃ p, r = projectRow p ∧ ∀ t ∈ p.lastIndexed, t.IsValid
  prompts : ∀ r ∈ s.prompts, ∃ p, r = promptRow p ∧ p.createdAt.IsValid

namespace Legible

variable {s : Store}

theorem blank (uniqueSummaries uniqueSymbolNames : Bool) :
    Legible (Store.blank uniqueSummaries uniqueSymbolNames) := by
  constructor <;> simp [Store.blank, empty]

/-- Projects may change into others that can be read. -/
theorem mapProjects (h : Legible s) {change : ProjectRow → ProjectRow}
    (hchange : ∀ p, (∀ t ∈ p.lastIndexed, t.IsValid) →
      ∃ q, change (projectRow p) = projectRow q ∧ ∀ t ∈ q.lastIndexed, t.IsValid) :
    Legible { s with projects := s.projects.map change } where
  projects := by
    intro r' hr'
    obtain ⟨r, hr, rfl⟩ := List.mem_map.mp hr'
    obtain ⟨p, rfl, hp⟩ := h.projects r hr
    exact hchange p hp
  prompts := h.prompts

/-- Every write at a time that can be written down keeps the tables legible. -/
theorem perform (h : Legible s) (hnames : s.DistinctProjectNames) {step : Step}
    (hnow : step.fresh.now.IsValid) : Legible (s.perform step) := by
  have heffect := perform_effect s hnames step
  -- of what a write can do, four things touch projects and one touches prompts
  generalize step.write = w at heffect
  generalize s.perform step = s' at heffect
  cases heffect with
  | unchanged => exact h
  | described input =>
      refine h.mapProjects fun p hp => ?_
      split
      · exact ⟨{ p with path := input.path, stack := input.stack }, rfl, hp⟩
      · exact ⟨p, rfl, hp⟩
  | registered input hname hid =>
      let project : Project :=
        ⟨step.fresh.id 0, input.name, input.path, input.stack, .active, none⟩
      exact ⟨forall_mem_snoc h.projects ⟨project, rfl, by simp [project]⟩, h.prompts⟩
  | restated name status project hfound =>
      refine h.mapProjects fun p hp => ?_
      split
      · exact ⟨{ p with status := status }, rfl, hp⟩
      · exact ⟨p, rfl, hp⟩
  | stored name raw promptUsed payload project prompt drawn version hparse hfound hprompt hversion
      hkey hproject =>
      have hkept : Legible (s.alterProjects project.projectId fun r =>
          { r with lastIndexed := Cell.instant (step.fresh.after drawn).now }) := by
        refine h.mapProjects fun p hp => ?_
        split
        · refine ⟨{ p with lastIndexed := some step.fresh.now }, rfl, fun t ht => ?_⟩
          cases ht
          exact hnow
        · exact ⟨p, rfl, hp⟩
      exact ⟨hkept.projects, hkept.prompts⟩
  | logged input rows hrows => exact ⟨h.projects, h.prompts⟩
  | noted input hproject hfossil => exact ⟨h.projects, h.prompts⟩
  | instructed input hproject =>
      exact ⟨h.projects, forall_mem_snoc h.prompts ⟨_, rfl, hnow⟩⟩

/-- Every history at times that can be written down keeps the tables legible. -/
theorem run {past : List Step} (h : Legible s) (hc : Coherent past s) {steps : List Step}
    (hclock : ∀ step ∈ steps, step.fresh.now.IsValid) : Legible (s.run steps) := by
  induction steps generalizing past s with
  | nil => exact h
  | cons step rest ih =>
      have hnow := hclock step (by simp)
      exact ih (h.perform hc.projectNames hnow) (hc.perform step) fun other hother =>
        hclock other (by simp [hother])

end Legible

end FossilRecord.Store
