import FossilRecord.Proofs.Store.Transaction
import FossilRecord.Store.Log
import Mathlib.Data.List.Nodup

/-!
# Histories of a store

A history is a list of writes, each with what it takes from outside.  A write may succeed, be
rejected or fail; the history goes on with whatever it left.  `Effect` says once what a write can do
to the tables, and everything about histories is drawn from it.
-/

namespace FossilRecord.Store

/-- A write, with all that its caller gives. -/
inductive Write where
  | register (input : NewProject)
  | setStatus (name : String) (status : ProjectStatus)
  | ingest (name raw : String) (promptUsed : Option String)
  | log (input : NewQueryLogEntry)
  | insight (input : NewInsight)
  | prompt (input : NewPrompt)

/-- A write and what it takes from outside. -/
structure Step where
  fresh : Fresh
  write : Write

/-- The store that a write leaves. -/
def perform (s : Store) (step : Step) : Store :=
  match step.write with
  | .register input => (s.registerProject step.fresh input).2
  | .setStatus name status => (s.setProjectStatus name status).2
  | .ingest name raw promptUsed => (s.ingest step.fresh name raw promptUsed).2
  | .log input => (s.logQuery step.fresh input).2
  | .insight input => (s.recordInsight step.fresh input).2
  | .prompt input => (s.recordPrompt step.fresh input).2

/-- The store that a history leaves. -/
def run (s : Store) (steps : List Step) : Store :=
  steps.foldl perform s

@[simp] theorem run_nil (s : Store) : s.run [] = s := rfl

@[simp] theorem run_cons (s : Store) (step : Step) (steps : List Step) :
    s.run (step :: steps) = (s.perform step).run steps := rfl

@[simp] theorem run_append (s : Store) (steps more : List Step) :
    s.run (steps ++ more) = (s.run steps).run more := by
  simp [run]

/-- A store without rows, with or without the further constraints. -/
def blank (uniqueSummaries uniqueSymbolNames : Bool) : Store :=
  { empty with uniqueSummaries := uniqueSummaries, uniqueSymbolNames := uniqueSymbolNames }

/-! ## What a write can do -/

/-- The project with another path and stack. -/
def ProjectRow.describedBy (input : NewProject) (r : ProjectRow) : ProjectRow :=
  { r with path := .text input.path, stack := .text input.stack }

/-- What a write can do to the tables. -/
inductive Effect (s : Store) (fresh : Fresh) : Write → Store → Prop where
  /-- The tables are as they were. -/
  | unchanged (w : Write) : Effect s fresh w s
  /-- A project that was registered before has another path and stack. -/
  | described (input : NewProject) :
      Effect s fresh (.register input)
        { s with
          projects := s.projects.map fun r =>
            if r.name = .text input.name then r.describedBy input else r }
  /-- A name and an identifier that no project had are registered. -/
  | registered (input : NewProject)
      (hname : ∀ r ∈ s.projects, r.name ≠ .text input.name)
      (hid : ∀ r ∈ s.projects, r.projectId ≠ Cell.uuid (fresh.id 0)) :
      Effect s fresh (.register input)
        { s with projects := s.projects ++ [newProjectRow fresh input] }
  /-- The projects of an identifier have another status. -/
  | restated (name : String) (status : ProjectStatus) (project : Project)
      (hfound : s.findProject name .strict = .ok (some project)) :
      Effect s fresh (.setStatus name status)
        (s.alterProjects project.projectId fun r => { r with status := .text status.label })
  /-- A payload is the next fossil of a project that is there. -/
  | stored (name raw : String) (promptUsed : Option String) (payload : Payload)
      (project : Project) (prompt : String) (drawn : Nat) (version : Int)
      (hparse : Payload.parse raw = .ok payload)
      (hfound : s.findProject name .strict = .ok (some project))
      (hprompt : s.promptFor project promptUsed = .ok prompt)
      (hversion : s.versionFor (Cell.uuid project.projectId) = .ok version)
      (hkey : s.hasFossil (Cell.uuid ((fresh.after drawn).id 0)) = false)
      (hproject : s.hasProject (Cell.uuid project.projectId) = true) :
      Effect s fresh (.ingest name raw promptUsed)
        (s.withFossil (fresh.after drawn) project.projectId version payload prompt)
  /-- The query log has one more row. -/
  | logged (input : NewQueryLogEntry) (rows : List QueryRow) (hrows : s.queryLog = some rows) :
      Effect s fresh (.log input)
        { s with
          queryLog := some (rows ++ [queryRow
            ⟨fresh.id 0, input.toolName, input.projectName, input.queryParams, fresh.now⟩]) }
  /-- There is one more insight, and what it refers to is there. -/
  | noted (input : NewInsight)
      (hproject : s.refersToProject input.projectId = true)
      (hfossil : s.refersToFossil input.fossilId = true) :
      Effect s fresh (.insight input)
        { s with
          insights := s.insights ++ [insightRow
            ⟨fresh.id 0, input.projectId, input.fossilId, input.insightType, input.content,
              input.modelUsed, input.projectsInvolved, fresh.now⟩] }
  /-- There is one more prompt, and the project that it is for is there. -/
  | instructed (input : NewPrompt) (hproject : s.refersToProject input.projectId = true) :
      Effect s fresh (.prompt input)
        { s with
          prompts := s.prompts ++ [promptRow
            ⟨fresh.id 0, input.projectId, input.prompt, input.createdBy, input.notes, fresh.now⟩] }

/-- No write changes the constraints of the tables. -/
theorem Effect.constraints {s s' : Store} {fresh : Fresh} {w : Write} (h : Effect s fresh w s') :
    s'.uniqueSummaries = s.uniqueSummaries ∧ s'.uniqueSymbolNames = s.uniqueSymbolNames := by
  cases h <;> exact ⟨rfl, rfl⟩

/-- No two projects have the same name. -/
def DistinctProjectNames (s : Store) : Prop :=
  (s.projects.map ProjectRow.name).Nodup

/-- A registration describes the one project of its name anew, or adds one under an identifier that
no project has, or is refused. -/
theorem registerProject_cases (s : Store) (hnames : s.DistinctProjectNames) (fresh : Fresh)
    (input : NewProject) :
    (∃ old ∈ s.projects, old.name = .text input.name ∧
      s.registerProject fresh input = ((old.describedBy input).decode,
        { s with
          projects := s.projects.map fun r =>
            if r.name = .text input.name then r.describedBy input else r })) ∨
    (∀ r ∈ s.projects, r.name ≠ .text input.name) ∧
      ((∀ r ∈ s.projects, r.projectId ≠ Cell.uuid (fresh.id 0)) ∧
        s.registerProject fresh input = ((newProjectRow fresh input).decode,
          { s with projects := s.projects ++ [newProjectRow fresh input] }) ∨
      (∃ r ∈ s.projects, r.projectId = Cell.uuid (fresh.id 0)) ∧
        s.registerProject fresh input =
          (.error (.table (.duplicateKey "projects.project_id")), s)) := by
  unfold registerProject
  cases hfind : s.projects.find? fun r => r.name = .text input.name with
  | some old =>
      have hmem := List.mem_of_find?_eq_some hfind
      have hold : old.name = .text input.name := by
        simpa using List.find?_some hfind
      refine .inl ⟨old, hmem, hold, congrArg (Prod.mk _) ?_⟩
      simp only [mk.injEq, and_true]
      -- the row is written over by a copy of the old one, which is the only one of that name
      refine List.map_congr_left fun r hr => ?_
      by_cases hr' : r.name = old.name
      · have : r = old := List.inj_on_of_nodup_map hnames hr hmem hr'
        rw [if_pos hr', if_pos (hr'.trans hold), this, ProjectRow.describedBy]
      · rw [if_neg hr', if_neg (hold ▸ hr')]
  | none =>
      have hname : ∀ r ∈ s.projects, r.name ≠ .text input.name := by
        simpa using hfind
      refine .inr ⟨hname, ?_⟩
      simp only
      split
      · rename_i hid
        obtain ⟨r, hr, heq⟩ := List.any_eq_true.mp hid
        exact .inr ⟨⟨r, hr, of_decide_eq_true heq⟩, rfl⟩
      · rename_i hid
        rw [Bool.not_eq_true, List.any_eq_false] at hid
        exact .inl ⟨fun r hr heq => hid r hr (decide_eq_true heq), rfl⟩

theorem registerProject_effect (s : Store) (hnames : s.DistinctProjectNames) (fresh : Fresh)
    (input : NewProject) :
    Effect s fresh (.register input) (s.registerProject fresh input).2 := by
  rcases registerProject_cases s hnames fresh input with
    ⟨old, -, -, hagain⟩ | ⟨hname, ⟨hid, hfirst⟩ | ⟨-, hrefused⟩⟩
  · rw [hagain]
    exact .described input
  · rw [hfirst]
    exact .registered input hname hid
  · rw [hrefused]
    exact .unchanged _

theorem setProjectStatus_effect (s : Store) (fresh : Fresh) (name : String)
    (status : ProjectStatus) :
    Effect s fresh (.setStatus name status) (s.setProjectStatus name status).2 := by
  unfold setProjectStatus
  cases hfind : s.findProject name .strict with
  | error failure => exact .unchanged _
  | ok found =>
      cases found with
      | none => exact .unchanged _
      | some project => exact .restated name status project hfind

theorem ingest_effect (s : Store) (fresh : Fresh) (name raw : String)
    (promptUsed : Option String) :
    Effect s fresh (.ingest name raw promptUsed) (s.ingest fresh name raw promptUsed).2 := by
  rcases ingest_cases s fresh name raw promptUsed with
    ⟨payload, project, prompt, drawn, version, hparse, hfound, hprompt, hversion, hkey, hproject,
      hstored⟩ | ⟨result, -, hkept⟩
  · rw [hstored]
    exact .stored name raw promptUsed payload project prompt drawn version hparse hfound hprompt
      hversion hkey hproject
  · rw [hkept]
    exact .unchanged _

theorem logQuery_effect (s : Store) (fresh : Fresh) (input : NewQueryLogEntry) :
    Effect s fresh (.log input) (s.logQuery fresh input).2 := by
  unfold logQuery
  cases hrows : s.queryLog with
  | none => exact .unchanged _
  | some rows =>
      simp only
      split
      · exact .unchanged _
      · exact .logged input rows hrows

theorem recordInsight_effect (s : Store) (fresh : Fresh) (input : NewInsight) :
    Effect s fresh (.insight input) (s.recordInsight fresh input).2 := by
  unfold recordInsight
  simp only
  split
  · exact .unchanged _
  · split
    · rename_i hrefers
      rw [Bool.and_eq_true] at hrefers
      exact .noted input hrefers.1 hrefers.2
    · exact .unchanged _

theorem recordPrompt_effect (s : Store) (fresh : Fresh) (input : NewPrompt) :
    Effect s fresh (.prompt input) (s.recordPrompt fresh input).2 := by
  unfold recordPrompt
  simp only
  split
  · exact .unchanged _
  · split
    · rename_i hrefers
      exact .instructed input hrefers
    · exact .unchanged _

/-- Every write does one of the things that `Effect` lists. -/
theorem perform_effect (s : Store) (hnames : s.DistinctProjectNames) (step : Step) :
    Effect s step.fresh step.write (s.perform step) := by
  unfold perform
  cases step.write with
  | register input => exact registerProject_effect s hnames step.fresh input
  | setStatus name status => exact setProjectStatus_effect s step.fresh name status
  | ingest name raw promptUsed => exact ingest_effect s step.fresh name raw promptUsed
  | log input => exact logQuery_effect s step.fresh input
  | insight input => exact recordInsight_effect s step.fresh input
  | prompt input => exact recordPrompt_effect s step.fresh input

end FossilRecord.Store
