import FossilRecord.Proofs.Store.Growth
import FossilRecord.Proofs.Store.Own

/-!
# Names that address a project

A name addresses a project if whatever is done with the name is done to that project and no other:
reads answer from its rows, and writes change its rows only.  The name of a project addresses it if
the name is plain, and it does so from its registration on.
-/

namespace FossilRecord.Store

/-! ## Writes to one project -/

theorem filter_map_of_ne {rows : List ProjectRow} {c : Cell} {change : ProjectRow → ProjectRow}
    (hid : ∀ r, (change r).projectId = r.projectId) :
    (rows.map fun r => if r.projectId = c then change r else r).filter (fun r => r.projectId ≠ c) =
      rows.filter fun r => r.projectId ≠ c := by
  induction rows with
  | nil => rfl
  | cons r rest ih =>
      rw [List.map_cons]
      by_cases hr : r.projectId = c
      · rw [if_pos hr, List.filter_cons_of_neg (by simp [hid, hr]),
          List.filter_cons_of_neg (by simp [hr]), ih]
      · rw [if_neg hr, List.filter_cons_of_pos (by simp [hr]),
          List.filter_cons_of_pos (by simp [hr]), ih]

/-- A change of a project that keeps its identifier leaves the other projects alone. -/
theorem alterProjects_without (s : Store) {id : Uuid} {change : ProjectRow → ProjectRow}
    (hid : ∀ r, (change r).projectId = r.projectId) :
    (s.alterProjects id change).without id = s.without id := by
  simp only [without, alterProjects, filter_map_of_ne hid]

/-- Another fossil of a project leaves the rows of the others alone. -/
theorem withFossil_without (s : Store) (fresh : Fresh) (id : Uuid) (version : Int) (p : Payload)
    (promptUsed : String) :
    (s.withFossil fresh id version p promptUsed).without id = s.without id := by
  have hfossil : [fossilRow fresh id version p promptUsed].filter
      (fun r => r.projectId ≠ Cell.uuid id) = [] := by
    simp [fossilRow]
  have hsymbols : (symbolRows fresh id 0 p.symbols).filter (fun r => r.projectId ≠ Cell.uuid id) =
      [] := by
    rw [List.filter_eq_nil_iff]
    intro r hr
    simp [(fossilId_of_mem_symbolRows fresh id hr).2]
  have hkeep : ∀ r : ProjectRow,
      ({ r with lastIndexed := Cell.instant fresh.now } : ProjectRow).projectId = r.projectId :=
    fun _ => rfl
  rw [withFossil, alterProjects_without _ hkeep]
  simp only [without, List.filter_append, hfossil, hsymbols, List.append_nil]

/-- An ingestion for a project that is there does not say that it is not. -/
theorem ingest_ne_projectNotFound {s : Store} {name : String} {p : Project}
    (hfound : s.findProject name .strict = .ok (some p)) (fresh : Fresh) (raw : String)
    (promptUsed : Option String) (missing : String) :
    (s.ingest fresh name raw promptUsed).1 ≠ .ok (.projectNotFound missing) := by
  unfold ingest
  rw [hfound]
  cases Payload.parse raw with
  | error flaw => simp
  | ok payload =>
      simp only
      cases s.promptFor p promptUsed with
      | error failure => simp
      | ok prompt =>
          simp only
          cases s.storeFossil fresh p payload prompt maxAttempts with
          | mk result after => cases result <;> simp

/-! ## Addressing -/

/-- Whether whatever is done with a name is done to one project and to no other. -/
structure Addresses (s : Store) (name : String) (id : Uuid) : Prop where
  found : ∃ p, s.findProject name .strict = .ok (some p) ∧ p.projectId = id ∧ p.name = name
  history : s.fossilHistory name = .ok (answerOf name (s.history (Cell.uuid id)))
  /-- What is read is read of the rows of the project. -/
  fossilHistory : (s.only id).fossilHistory name = s.fossilHistory name
  latestFossil : (s.only id).latestFossil name = s.latestFossil name
  findSymbols : ∀ wanted scope,
    (s.only id).findSymbols name wanted scope = s.findSymbols name wanted scope
  related : ∀ part, RelatedFiles.resolve (s.only id) name part = RelatedFiles.resolve s name part
  corpus : Corpus.build (s.only id) (some name) = Corpus.build s (some name)
  /-- The project gets another status, and the rows of the others are as they were. -/
  status : ∀ status, ∃ p, (s.setProjectStatus name status).1 = .ok (.found p) ∧
    p.projectId = id ∧ p.status = status ∧
    projectRow p ∈ (s.setProjectStatus name status).2.projects ∧
    (s.setProjectStatus name status).2.without id = s.without id
  /-- What is ingested is not refused for want of the project, leaves the rows of the others as they
  were, and is the next fossil of the project if it is stored. -/
  ingest : ∀ fresh raw promptUsed,
    (∀ missing, (s.ingest fresh name raw promptUsed).1 ≠ .ok (.projectNotFound missing)) ∧
    (s.ingest fresh name raw promptUsed).2.without id = s.without id ∧
    ∀ receipt, (s.ingest fresh name raw promptUsed).1 = .ok (.stored receipt) →
      receipt.projectId = id ∧ receipt.projectName = name ∧
      ∃ row, row.fossilId = Cell.uuid receipt.fossilId ∧
        (s.ingest fresh name raw promptUsed).2.fossilRows (Cell.uuid id) =
          s.fossilRows (Cell.uuid id) ++ [row]

section

variable {past : List Step} {s : Store} {name : String}

/-- The name of a project addresses it if the name is plain. -/
theorem Sound.addresses (h : Sound past s) {r : ProjectRow} (hr : r ∈ s.projects)
    (hname : r.name = .text name) (hplain : IsPlain name) {id : Uuid}
    (hid : r.projectId = Cell.uuid id) : s.Addresses name id := by
  obtain ⟨p, rfl, hfound⟩ := h.findProject_self hr hname hplain
  obtain rfl : p.name = name := Cell.text.inj hname
  obtain rfl : p.projectId = id := Uuid.toString_injective (Cell.text.inj hid)
  exact
    { found := ⟨p, hfound, rfl, rfl⟩
      history := h.fossilHistory_eq hfound
      fossilHistory := h.fossilHistory_only hfound
      latestFossil := h.latestFossil_only hfound
      findSymbols := h.findSymbols_only hfound
      related := h.resolve_only hfound
      corpus := h.build_only hfound rfl
      status := by
        intro status
        have hset : s.setProjectStatus p.name status =
            (.ok (.found { p with status := status }),
              s.alterProjects p.projectId fun r => { r with status := .text status.label }) := by
          rw [setProjectStatus, hfound]
        rw [hset]
        refine ⟨_, rfl, rfl, rfl, ?_, alterProjects_without s fun _ => rfl⟩
        exact List.mem_map.mpr ⟨projectRow p, hr, if_pos rfl⟩
      ingest := by
        intro fresh raw promptUsed
        refine ⟨ingest_ne_projectNotFound hfound fresh raw promptUsed, ?_⟩
        rcases ingest_cases s fresh p.name raw promptUsed with
          ⟨payload, q, prompt, drawn, version, -, hq, -, -, -, -, hstored⟩ |
            ⟨result, hresult, hkept⟩
        · -- the name led the ingestion to the same project
          rw [hfound] at hq
          cases hq
          rw [hstored]
          refine ⟨withFossil_without s _ _ _ _ _, ?_⟩
          intro receipt hreceipt
          cases hreceipt
          refine ⟨rfl, rfl,
            fossilRow (fresh.after drawn) p.projectId version payload prompt, rfl, ?_⟩
          rw [fossilRows_withFossil, if_pos rfl]
        · rw [hkept]
          exact ⟨rfl, fun receipt hreceipt => absurd hreceipt (hresult receipt)⟩ }

/-- A project that was registered is there, under the name that was given. -/
theorem Sound.registered (h : Sound past s) {fresh : Fresh} {input : NewProject}
    {project : Project} (hok : (s.registerProject fresh input).1 = .ok project) :
    projectRow project ∈ (s.registerProject fresh input).2.projects ∧
      project.name = input.name := by
  unfold registerProject at hok ⊢
  cases hfind : s.projects.find? fun r => r.name = .text input.name with
  | some old =>
      have hold : old.name = .text input.name := by simpa using List.find?_some hfind
      obtain ⟨p, rfl, hp⟩ := h.legible.projects old (List.mem_of_find?_eq_some hfind)
      have hdecode : (projectRow { p with path := input.path, stack := input.stack }).decode =
          .ok { p with path := input.path, stack := input.stack } := decode_projectRow hp
      simp only [hfind] at hok ⊢
      obtain rfl : { p with path := input.path, stack := input.stack } = project :=
        Except.ok.inj (hdecode.symm.trans hok)
      refine ⟨List.mem_map.mpr ⟨projectRow p, List.mem_of_find?_eq_some hfind, if_pos rfl⟩, ?_⟩
      exact Cell.text.inj hold
  | none =>
      let fresh' : Project := ⟨fresh.id 0, input.name, input.path, input.stack, .active, none⟩
      have hdecode : (newProjectRow fresh input).decode = .ok fresh' :=
        decode_projectRow (p := fresh') (by simp [fresh'])
      simp only [hfind] at hok ⊢
      split at hok
      · cases hok
      · rename_i hid
        obtain rfl : fresh' = project := Except.ok.inj (hdecode.symm.trans hok)
        rw [if_neg hid]
        exact ⟨List.mem_append_right _ (List.mem_singleton.mpr rfl), rfl⟩

end

end FossilRecord.Store
