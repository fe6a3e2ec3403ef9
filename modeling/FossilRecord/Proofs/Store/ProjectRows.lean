import FossilRecord.Proofs.Store.Naming
import FossilRecord.Proofs.Store.Readable

/-!
# What becomes of the projects

Three writes touch the table of projects: a registration describes the project of its name anew, a
change of status is that of the project that a name leads to, and an ingestion that is stored sets
the time of the project of its receipt.  `rowAfter` says for one row what a write makes of it, and
`perform_projects` that this is what happens to the table.

A project that one of these writes gives back is read in the same way afterwards (`IsRead`).
-/

namespace FossilRecord.Store

/-! ## What becomes of a row -/

/-- The row of a project after a change of the status of the project that was found. -/
def ProjectRow.restatedBy (found : Except Failure (Option Project)) (status : ProjectStatus)
    (r : ProjectRow) : ProjectRow :=
  match found with
  | .ok (some p) =>
      if r.projectId = Cell.uuid p.projectId then { r with status := .text status.label } else r
  | _ => r

/-- The row of a project after an ingestion, which has stored a fossil or not. -/
def ProjectRow.indexedBy (result : Except Failure IngestOutcome) (now : Instant)
    (r : ProjectRow) : ProjectRow :=
  match result with
  | .ok (.stored receipt) =>
      if r.projectId = Cell.uuid receipt.projectId then { r with lastIndexed := Cell.instant now }
      else r
  | _ => r

/-- What a write makes of the row of a project. -/
def rowAfter (s : Store) (step : Step) (r : ProjectRow) : ProjectRow :=
  match step.write with
  | .register input => if r.name = .text input.name then r.describedBy input else r
  | .setStatus name status => r.restatedBy (s.findProject name .strict) status
  | .ingest name raw promptUsed =>
      r.indexedBy (s.ingest step.fresh name raw promptUsed).1 step.fresh.now
  | .log _ | .insight _ | .prompt _ => r

/-- What of a row may differ after a write, and why. -/
structure ChangedOnlyBy (s : Store) (step : Step) (r r' : ProjectRow) : Prop where
  projectId : r'.projectId = r.projectId
  name : r'.name = r.name
  described : r'.path ≠ r.path ∨ r'.stack ≠ r.stack →
    ∃ input, step.write = .register input ∧ r.name = .text input.name ∧
      r'.path = .text input.path ∧ r'.stack = .text input.stack
  status : r'.status ≠ r.status →
    ∃ name status p, step.write = .setStatus name status ∧
      s.findProject name .strict = .ok (some p) ∧ r.projectId = Cell.uuid p.projectId ∧
      r'.status = .text status.label
  lastIndexed : r'.lastIndexed ≠ r.lastIndexed →
    ∃ name raw promptUsed receipt, step.write = .ingest name raw promptUsed ∧
      (s.ingest step.fresh name raw promptUsed).1 = .ok (.stored receipt) ∧
      r.projectId = Cell.uuid receipt.projectId ∧ r'.lastIndexed = Cell.instant step.fresh.now

theorem ChangedOnlyBy.refl (s : Store) (step : Step) (r : ProjectRow) :
    ChangedOnlyBy s step r r where
  projectId := rfl
  name := rfl
  described h := absurd h (by simp)
  status h := absurd rfl h
  lastIndexed h := absurd rfl h

theorem changedOnlyBy_restatedBy {s : Store} {step : Step} {name : String} {status : ProjectStatus}
    (hwrite : step.write = .setStatus name status) (r : ProjectRow) :
    ChangedOnlyBy s step r (r.restatedBy (s.findProject name .strict) status) := by
  unfold ProjectRow.restatedBy
  split
  · rename_i p hfound
    split
    · rename_i hid
      exact { ChangedOnlyBy.refl s step r with
        status := fun _ => ⟨name, status, p, hwrite, hfound, hid, rfl⟩ }
    · exact .refl s step r
  · exact .refl s step r

theorem changedOnlyBy_indexedBy {s : Store} {step : Step} {name raw : String}
    {promptUsed : Option String} (hwrite : step.write = .ingest name raw promptUsed)
    (r : ProjectRow) :
    ChangedOnlyBy s step r
      (r.indexedBy (s.ingest step.fresh name raw promptUsed).1 step.fresh.now) := by
  unfold ProjectRow.indexedBy
  split
  · rename_i receipt hstored
    split
    · rename_i hid
      exact { ChangedOnlyBy.refl s step r with
        lastIndexed := fun _ => ⟨name, raw, promptUsed, receipt, hwrite, hstored, hid, rfl⟩ }
    · exact .refl s step r
  · exact .refl s step r

theorem changedOnlyBy_rowAfter (s : Store) (step : Step) (r : ProjectRow) :
    ChangedOnlyBy s step r (s.rowAfter step r) := by
  unfold rowAfter
  split
  · rename_i input hwrite
    split
    · rename_i hname
      exact { ChangedOnlyBy.refl s step r with
        described := fun _ => ⟨input, hwrite, hname, rfl, rfl⟩ }
    · exact .refl s step r
  · rename_i name status hwrite
    exact changedOnlyBy_restatedBy hwrite r
  · rename_i name raw promptUsed hwrite
    exact changedOnlyBy_indexedBy hwrite r
  · exact .refl s step r
  · exact .refl s step r
  · exact .refl s step r

/-! ## What becomes of the table -/

theorem setProjectStatus_projects (s : Store) (name : String) (status : ProjectStatus) :
    (s.setProjectStatus name status).2.projects =
      s.projects.map (ProjectRow.restatedBy (s.findProject name .strict) status) := by
  unfold setProjectStatus
  cases s.findProject name .strict with
  | error failure => exact (List.map_id' s.projects).symm
  | ok found =>
      cases found with
      | none => exact (List.map_id' s.projects).symm
      | some p => rfl

theorem ingest_projects (s : Store) (fresh : Fresh) (name raw : String)
    (promptUsed : Option String) :
    (s.ingest fresh name raw promptUsed).2.projects =
      s.projects.map (ProjectRow.indexedBy (s.ingest fresh name raw promptUsed).1 fresh.now) := by
  rcases ingest_cases s fresh name raw promptUsed with
    ⟨payload, p, prompt, drawn, version, -, -, -, -, -, -, hstored⟩ | ⟨result, hresult, hkept⟩
  · rw [hstored]
    rfl
  · rw [hkept]
    have hsame : ∀ r, ProjectRow.indexedBy result fresh.now r = r := by
      intro r
      unfold ProjectRow.indexedBy
      split
      · rename_i receipt
        exact absurd rfl (hresult receipt)
      · rfl
    rw [List.map_congr_left fun r _ => hsame r, List.map_id']

/-- Logging, and writing down an insight or a prompt, is nothing to the projects. -/
theorem Effect.projects_of_other {s t : Store} {fresh : Fresh} {w : Write} (h : Effect s fresh w t)
    (hregister : ∀ input, w ≠ .register input) (hstatus : ∀ name status, w ≠ .setStatus name status)
    (hingest : ∀ name raw promptUsed, w ≠ .ingest name raw promptUsed) :
    t.projects = s.projects := by
  cases h with
  | unchanged | logged | noted | instructed => rfl
  | described input => exact absurd rfl (hregister input)
  | registered input => exact absurd rfl (hregister input)
  | restated name status => exact absurd rfl (hstatus name status)
  | stored name raw promptUsed => exact absurd rfl (hingest name raw promptUsed)

/-- Every row becomes what `rowAfter` says, and a registration of a name that no project has adds
one row at most. -/
theorem perform_projects {past : List Step} {s : Store} (h : Coherent past s) (step : Step) :
    (s.perform step).projects = s.projects.map (s.rowAfter step) ∨
    ∃ input, step.write = .register input ∧ (∀ r ∈ s.projects, r.name ≠ .text input.name) ∧
      (s.perform step).projects =
        s.projects.map (s.rowAfter step) ++ [newProjectRow step.fresh input] := by
  have heffect := perform_effect s h.projectNames step
  obtain ⟨fresh, write⟩ := step
  cases write with
  | register input =>
      simp only [perform]
      rcases registerProject_cases s h.projectNames fresh input with
        ⟨old, -, -, hagain⟩ | ⟨hname, hnew⟩
      · rw [hagain]
        exact .inl rfl
      · have hsame : ∀ r ∈ s.projects, s.rowAfter ⟨fresh, .register input⟩ r = r :=
          fun r hr => if_neg (hname r hr)
        rw [List.map_congr_left hsame, List.map_id']
        rcases hnew with ⟨-, hfirst⟩ | ⟨-, hrefused⟩
        · rw [hfirst]
          exact .inr ⟨input, rfl, hname, rfl⟩
        · rw [hrefused]
          exact .inl rfl
  | setStatus name status =>
      simp only [perform]
      exact .inl (setProjectStatus_projects s name status)
  | ingest name raw promptUsed =>
      simp only [perform]
      exact .inl (ingest_projects s fresh name raw promptUsed)
  | log | insight | prompt =>
      have hsame := heffect.projects_of_other nofun nofun nofun
      exact .inl (hsame.trans (List.map_id' s.projects).symm)

/-! ## Reading a project -/

/-- A row that can be read is that of the project that is read of it. -/
theorem Legible.eq_projectRow {s : Store} (h : s.Legible) {r : ProjectRow} (hr : r ∈ s.projects)
    {p : Project} (hp : r.decode = .ok p) : r = projectRow p ∧ ∀ t ∈ p.lastIndexed, t.IsValid := by
  obtain ⟨q, rfl, hq⟩ := h.projects r hr
  rw [decode_projectRow hq] at hp
  cases hp
  exact ⟨rfl, hq⟩

/-- The projects that are listed are those of the rows. -/
theorem exists_mem_listProjects {s : Store} {summaries : List ProjectSummary}
    (h : s.listProjects = .ok summaries) (p : Project) :
    (∃ x ∈ summaries, x.project = p) ↔ ∃ r ∈ s.projects, r.decode = .ok p := by
  obtain ⟨typed, htyped, hsummaries⟩ := bind_eq_ok h
  constructor
  · rintro ⟨x, hx, rfl⟩
    obtain ⟨⟨t, fossils, symbols⟩, ht, hsummary⟩ := exists_of_mem_mapM hsummaries hx
    obtain ⟨project, hproject, hsummary⟩ := bind_eq_ok hsummary
    cases hsummary
    obtain ⟨r, hr, hcount⟩ := exists_of_mem_mapM htyped ht
    obtain ⟨t', ht', hcount⟩ := bind_eq_ok hcount
    cases hcount
    refine ⟨r, (orderBy_perm _ _).subset hr, ?_⟩
    rw [ProjectRow.decode, ht']
    exact hproject
  · rintro ⟨r, hr, hp⟩
    obtain ⟨t, ht, hdecode⟩ := bind_eq_ok hp
    obtain ⟨u, hu, hcount⟩ := exists_mem_of_mapM htyped ((orderBy_perm _ _).symm.subset hr)
    rw [ht] at hcount
    cases hcount
    obtain ⟨x, hx, hsummary⟩ := exists_mem_of_mapM hsummaries hu
    simp only [hdecode] at hsummary
    cases hsummary
    exact ⟨_, hx, rfl⟩

/-- A project is what every read gives for its identifier. -/
structure IsRead (s : Store) (p : Project) : Prop where
  stored : ∃ r ∈ s.projects, r.decode = .ok p
  listed : ∃ summaries, s.listProjects = .ok summaries ∧ (∃ x ∈ summaries, x.project = p) ∧
    ∀ x ∈ summaries, x.project.projectId = p.projectId → x.project = p
  found : ∀ name mode q, s.findProject name mode = .ok (some q) → q.projectId = p.projectId → q = p

section

variable {past : List Step} {s : Store}

/-- Rows of one identifier are read alike. -/
theorem Sound.eq_of_decode (h : Sound past s) {r r' : ProjectRow} (hr : r ∈ s.projects)
    (hr' : r' ∈ s.projects) {p p' : Project} (hp : r.decode = .ok p) (hp' : r'.decode = .ok p')
    (hid : p'.projectId = p.projectId) : p' = p := by
  obtain ⟨rfl, -⟩ := h.legible.eq_projectRow hr hp
  obtain ⟨rfl, -⟩ := h.legible.eq_projectRow hr' hp'
  have hsame : projectRow p' = projectRow p :=
    h.eq_of_projectId hr' hr (congrArg Cell.uuid hid)
  rw [hsame, hp] at hp'
  exact (Except.ok.inj hp').symm

theorem Sound.isRead (h : Sound past s) {r : ProjectRow} (hr : r ∈ s.projects) {p : Project}
    (hp : r.decode = .ok p) : IsRead s p where
  stored := ⟨r, hr, hp⟩
  listed := by
    obtain ⟨summaries, hsummaries⟩ := h.legible.listProjects_total
    refine ⟨summaries, hsummaries, (exists_mem_listProjects hsummaries p).mpr ⟨r, hr, hp⟩, ?_⟩
    intro x hx hid
    obtain ⟨r', hr', hp'⟩ := (exists_mem_listProjects hsummaries x.project).mp ⟨x, hx, rfl⟩
    exact h.eq_of_decode hr hr' hp hp' hid
  found := by
    intro name mode q hq hid
    obtain ⟨-, hrow, hvalid⟩ := h.legible.row_of_findProject hq
    exact h.eq_of_decode hr (mem_of_projectRow? hrow) hp (decode_projectRow hvalid) hid

end

/-! ## What is given back -/

/-- What a registration gives back: the project of that name as it was, described anew, or a project
that is new and was never indexed, or a refusal of an identifier that some project has. -/
inductive Registered (s : Store) (fresh : Fresh) (input : NewProject) :
    Except Failure Project → Prop where
  | again (old : Project) (hold : IsRead s old) (hname : old.name = input.name) :
      Registered s fresh input (.ok { old with path := input.path, stack := input.stack })
  | first (hname : ∀ r ∈ s.projects, r.name ≠ .text input.name) :
      Registered s fresh input
        (.ok ⟨fresh.id 0, input.name, input.path, input.stack, .active, none⟩)
  | refused (hname : ∀ r ∈ s.projects, r.name ≠ .text input.name)
      (hid : ∃ r ∈ s.projects, r.projectId = Cell.uuid (fresh.id 0)) :
      Registered s fresh input (.error (.table (.duplicateKey "projects.project_id")))

section

variable {past : List Step} {s : Store} {fresh : Fresh}

theorem Sound.registerProject_registered (h : Sound past s) (fresh : Fresh) (input : NewProject) :
    Registered s fresh input (s.registerProject fresh input).1 := by
  rcases registerProject_cases s h.coherent.projectNames fresh input with
    ⟨old, hold, hname, hagain⟩ | ⟨hname, ⟨-, hfirst⟩ | ⟨hid, hrefused⟩⟩
  · obtain ⟨p, rfl, hp⟩ := h.legible.projects old hold
    have hdecode : ((projectRow p).describedBy input).decode =
        .ok { p with path := input.path, stack := input.stack } :=
      decode_projectRow (p := { p with path := input.path, stack := input.stack }) hp
    rw [hagain, hdecode]
    exact .again p (h.isRead hold (decode_projectRow hp)) (Cell.text.inj hname)
  · let p : Project := ⟨fresh.id 0, input.name, input.path, input.stack, .active, none⟩
    have hdecode : (newProjectRow fresh input).decode = .ok p :=
      decode_projectRow (p := p) (by simp [p])
    rw [hfirst, hdecode]
    exact .first hname
  · rw [hrefused]
    exact .refused hname hid

/-- A project that was registered is read as it was given back. -/
theorem Sound.isRead_of_register (h : Sound past s) (hnow : fresh.now.IsValid) {input : NewProject}
    {p : Project} (hp : (s.registerProject fresh input).1 = .ok p) :
    IsRead (s.registerProject fresh input).2 p ∧
      (IsPlain input.name →
        (s.registerProject fresh input).2.findProject input.name .strict = .ok (some p)) := by
  have hafter : Sound _ (s.registerProject fresh input).2 :=
    (h.perform hnow : Sound _ (s.perform ⟨fresh, .register input⟩))
  obtain ⟨r, hr, hname, hdecode⟩ : ∃ r ∈ (s.registerProject fresh input).2.projects,
      r.name = .text input.name ∧ r.decode = .ok p := by
    rcases registerProject_cases s h.coherent.projectNames fresh input with
      ⟨old, hold, hname, hagain⟩ | ⟨hname, ⟨-, hfirst⟩ | ⟨-, hrefused⟩⟩
    · rw [hagain] at hp ⊢
      exact ⟨old.describedBy input, List.mem_map.mpr ⟨old, hold, if_pos hname⟩, hname, hp⟩
    · rw [hfirst] at hp ⊢
      exact ⟨newProjectRow fresh input, by simp, rfl, hp⟩
    · rw [hrefused] at hp
      cases hp
  refine ⟨hafter.isRead hr hdecode, fun hplain => ?_⟩
  obtain ⟨q, hrow, hq⟩ := hafter.findProject_self hr hname hplain
  obtain ⟨-, -, hvalid⟩ := hafter.legible.row_of_findProject hq
  rw [hrow, decode_projectRow hvalid] at hdecode
  cases hdecode
  exact hq

/-- A project whose status was changed is read as it was given back, and the name leads to it as
before. -/
theorem Sound.isRead_of_setStatus (h : Sound past s) (hnow : fresh.now.IsValid) {name : String}
    {old : Project} (hfound : s.findProject name .strict = .ok (some old)) (status : ProjectStatus) :
    (s.setProjectStatus name status).1 = .ok (.found { old with status := status }) ∧
      IsRead (s.setProjectStatus name status).2 { old with status := status } ∧
      (s.setProjectStatus name status).2.findProject name .strict =
        .ok (some { old with status := status }) := by
  have hafter : Sound _ (s.setProjectStatus name status).2 :=
    (h.perform hnow : Sound _ (s.perform ⟨fresh, .setStatus name status⟩))
  obtain ⟨hname, hrow, hvalid⟩ := h.legible.row_of_findProject hfound
  have hset : s.setProjectStatus name status = (.ok (.found { old with status := status }),
      s.alterProjects old.projectId fun r => { r with status := .text status.label }) := by
    rw [setProjectStatus, hfound]
  rw [hset] at hafter ⊢
  have hown : (projectRow old).projectId = Cell.uuid old.projectId := rfl
  -- a strict lookup does not look at the status, so the name leads to the same row
  have hrow' := projectRow?_map_of_visible s .strict
    (fun r => if r.projectId = Cell.uuid old.projectId then
      { r with status := .text status.label } else r)
    (fun r => by split <;> rfl) (fun _ => rfl) (Text.trim name)
  rw [hrow, Option.map_some, if_pos hown] at hrow'
  have hfound' := findProject_of_row (p := { old with status := status }) hname hrow' hvalid
  obtain ⟨-, hnew, -⟩ := hafter.legible.row_of_findProject hfound'
  exact ⟨rfl, hafter.isRead (mem_of_projectRow? hnew) (decode_projectRow hvalid), hfound'⟩

end

/-! ## The main statement -/

/-- After every history and for every write: each project keeps its row, which has the same
identifier and name and differs only as the write says; a row that was not there before is that of a
registration under a name that no project has; and a project that is given back is what is read of
its row from then on. -/
theorem projectRows_change (uniqueSummaries uniqueSymbolNames : Bool) {steps : List Step}
    (hclock : ∀ step ∈ steps, step.fresh.now.IsValid) {step : Step}
    (hnow : step.fresh.now.IsValid) :
    let s := (blank uniqueSummaries uniqueSymbolNames).run steps
    let t := s.perform step
    (∀ r ∈ s.projects, ∃ r' ∈ t.projects, r' = s.rowAfter step r ∧ ChangedOnlyBy s step r r' ∧
      ∀ q ∈ t.projects, q.projectId = r.projectId → q = r') ∧
    (∀ q ∈ t.projects, (∀ r ∈ s.projects, r.projectId ≠ q.projectId) →
      ∃ input, step.write = .register input ∧ (∀ r ∈ s.projects, r.name ≠ .text input.name) ∧
        q = newProjectRow step.fresh input) ∧
    (∀ input, step.write = .register input →
      Registered s step.fresh input (s.registerProject step.fresh input).1 ∧
      ∀ p, (s.registerProject step.fresh input).1 = .ok p →
        IsRead t p ∧ (IsPlain input.name → t.findProject input.name .strict = .ok (some p))) ∧
    ∀ name status, step.write = .setStatus name status →
      (s.findProject name .strict = .ok none ∧
        s.setProjectStatus name status = (.ok (.projectNotFound name), s)) ∨
      ∃ old, s.findProject name .strict = .ok (some old) ∧
        (s.setProjectStatus name status).1 = .ok (.found { old with status := status }) ∧
        IsRead t { old with status := status } ∧
        t.findProject name .strict = .ok (some { old with status := status }) := by
  intro s t
  have hsound : Sound steps s := by
    simpa using (Sound.blank uniqueSummaries uniqueSymbolNames).run hclock
  have hafter : Sound (steps ++ [step]) t := hsound.perform hnow
  have hchange := changedOnlyBy_rowAfter s step
  have hkept : ∀ r ∈ s.projects, s.rowAfter step r ∈ t.projects := by
    intro r hr
    have hmap := List.mem_map_of_mem (f := s.rowAfter step) hr
    rcases perform_projects hsound.coherent step with hsame | ⟨input, -, -, hadded⟩
    · exact hsame ▸ hmap
    · exact hadded ▸ List.mem_append_left _ hmap
  refine ⟨fun r hr => ⟨_, hkept r hr, rfl, hchange r, fun q hq hid => ?_⟩, fun q hq hnew => ?_,
    fun input hwrite => ⟨hsound.registerProject_registered step.fresh input, fun p hp => ?_⟩,
    fun name status hwrite => ?_⟩
  · exact hafter.eq_of_projectId hq (hkept r hr) (hid.trans (hchange r).projectId.symm)
  · have hnone : q ∉ s.projects.map (s.rowAfter step) := by
      intro hmem
      obtain ⟨r, hr, rfl⟩ := List.mem_map.mp hmem
      exact hnew r hr (hchange r).projectId.symm
    rcases perform_projects hsound.coherent step with hsame | ⟨input, hwrite, hname, hadded⟩
    · exact absurd (hsame ▸ hq) hnone
    · have hmem : q ∈ s.projects.map (s.rowAfter step) ++ [newProjectRow step.fresh input] :=
        hadded ▸ hq
      rcases List.mem_append.mp hmem with hmem | hmem
      · exact absurd hmem hnone
      · exact ⟨input, hwrite, hname, List.mem_singleton.mp hmem⟩
  · have ht : t = (s.registerProject step.fresh input).2 := by
      simp only [t, perform, hwrite]
    rw [ht]
    exact hsound.isRead_of_register hnow hp
  · have ht : t = (s.setProjectStatus name status).2 := by
      simp only [t, perform, hwrite]
    rw [ht]
    obtain ⟨found, hfound⟩ := hsound.legible.findProject_total name .strict
    cases found with
    | none => exact .inl ⟨hfound, by rw [setProjectStatus, hfound]⟩
    | some old => exact .inr ⟨old, hfound, hsound.isRead_of_setStatus hnow hfound status⟩

/-- A project that was made inactive is registered again, and stays what it was but for its path and
stack. -/
theorem projectRows_change_again :
    let fresh (first : Nat) : Fresh :=
      ⟨fun k => ⟨BitVec.ofNat 128 (first + k)⟩, ⟨2024, 2, 29, 12, 0, 0, 0⟩⟩
    let steps : List Step := [⟨fresh 1, .register ⟨"demo", "/d", "rust"⟩⟩,
      ⟨fresh 2, .setStatus " DEMO" .inactive⟩]
    let step : Step := ⟨fresh 3, .register ⟨"demo", "/e", "go"⟩⟩
    let t := ((blank false false).run steps).perform step
    let p : Project := ⟨⟨BitVec.ofNat 128 1⟩, "demo", "/e", "go", .inactive, none⟩
    IsRead t p ∧ t.findProject "demo" .strict = .ok (some p) := by
  intro fresh steps step t p
  have hclock : ∀ step ∈ steps, step.fresh.now.IsValid := by decide
  have hnow : step.fresh.now.IsValid := by decide
  obtain ⟨-, -, hregister, -⟩ := projectRows_change false false hclock hnow
  obtain ⟨-, hread⟩ := hregister ⟨"demo", "/e", "go"⟩ rfl
  obtain ⟨hp, hfound⟩ := hread p (by decide +kernel)
  exact ⟨hp, hfound (by decide)⟩

end FossilRecord.Store
