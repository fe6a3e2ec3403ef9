import FossilRecord.Proofs.Store.Listing
import FossilRecord.Proofs.Store.Reading
import FossilRecord.Proofs.Store.RelatedFiles

/-!
# What is missing is missing for everyone

Four operations ask about the fossils of one project, and each notices in a way of its own that there
is no such project or that the project has no fossil.  Here they are shown to notice the same:
`answersAlike` says for each of the three cases how all four answer.

A project has a fossil exactly if one of the writes of the history has stored one for it, which is
what `StoredIn` says and `Coherent.fossilRows_run` proves.
-/

namespace FossilRecord

/-- An answer without what was found. -/
def Lookup.kind {α : Type} (l : Lookup α) : Lookup Unit :=
  l.map fun _ => ()

namespace Store

/-! ## Fossils that were stored -/

/-- Whether a write stores a fossil of a project and says so. -/
def Stores (s : Store) (step : Step) (id : Uuid) : Prop :=
  ∃ name raw promptUsed receipt, step.write = .ingest name raw promptUsed ∧
    (s.ingest step.fresh name raw promptUsed).1 = .ok (.stored receipt) ∧ receipt.projectId = id

/-- Whether one of the writes of a history stores a fossil of a project. -/
def StoredIn (s : Store) (id : Uuid) : List Step → Prop
  | [] => False
  | step :: rest => s.Stores step id ∨ (s.perform step).StoredIn id rest

section

variable {past : List Step} {s : Store} {id : Uuid}

/-- Only an ingestion touches the fossils. -/
theorem Effect.fossils {fresh : Fresh} {w : Write} {s' : Store} (h : Effect s fresh w s')
    (hother : ∀ name raw promptUsed, w ≠ .ingest name raw promptUsed) : s'.fossils = s.fossils := by
  cases h with
  | stored name raw promptUsed => exact absurd rfl (hother name raw promptUsed)
  | unchanged | described | registered | restated | logged | noted | instructed => rfl

/-- A project is without fossils after an ingestion if it was before and none is stored for it. -/
theorem fossilRows_ingest (s : Store) (fresh : Fresh) (name raw : String)
    (promptUsed : Option String) (id : Uuid) :
    (s.ingest fresh name raw promptUsed).2.fossilRows (Cell.uuid id) = [] ↔
      s.fossilRows (Cell.uuid id) = [] ∧
        ∀ receipt, (s.ingest fresh name raw promptUsed).1 = .ok (.stored receipt) →
          receipt.projectId ≠ id := by
  rcases ingest_cases s fresh name raw promptUsed with
    ⟨payload, project, prompt, drawn, version, -, -, -, -, -, -, hstored⟩ | ⟨result, hresult, hkept⟩
  · rw [hstored, fossilRows_withFossil]
    by_cases hid : Cell.uuid id = Cell.uuid project.projectId
    · have hsame : id = project.projectId := Uuid.toString_injective (Cell.text.inj hid)
      rw [if_pos hid]
      constructor
      · intro hnil
        exact absurd hnil (by simp)
      · rintro ⟨-, hnone⟩
        exact absurd hsame.symm (hnone _ rfl)
    · rw [if_neg hid]
      constructor
      · intro hnil
        refine ⟨hnil, ?_⟩
        intro receipt hreceipt heq
        cases hreceipt
        exact hid (congrArg Cell.uuid heq.symm)
      · exact And.left
  · rw [hkept]
    constructor
    · intro hnil
      exact ⟨hnil, fun receipt hreceipt => absurd hreceipt (hresult receipt)⟩
    · exact And.left

/-- A project is without fossils after a write if it was before and the write stores none for it. -/
theorem Coherent.fossilRows_perform (h : Coherent past s) (step : Step) :
    (s.perform step).fossilRows (Cell.uuid id) = [] ↔
      s.fossilRows (Cell.uuid id) = [] ∧ ¬s.Stores step id := by
  have heffect := perform_effect s h.projectNames step
  unfold Store.perform at heffect ⊢
  unfold Stores
  cases hwrite : step.write with
  | ingest name raw promptUsed =>
      simp only
      rw [fossilRows_ingest]
      constructor
      · rintro ⟨hnil, hnone⟩
        refine ⟨hnil, ?_⟩
        rintro ⟨_, _, _, receipt, hsame, hreceipt, hid⟩
        cases hsame
        exact hnone receipt hreceipt hid
      · rintro ⟨hnil, hnone⟩
        refine ⟨hnil, ?_⟩
        intro receipt hreceipt hid
        exact hnone ⟨name, raw, promptUsed, receipt, rfl, hreceipt, hid⟩
  | register | setStatus | log | insight | prompt =>
      rw [hwrite] at heffect
      have hsame := heffect.fossils (by simp)
      simp only at hsame ⊢
      rw [fossilRows, hsame]
      simp [fossilRows]

/-- After a history a project is without fossils if it was before and no write stored one for it. -/
theorem Coherent.fossilRows_run (h : Coherent past s) (steps : List Step) :
    (s.run steps).fossilRows (Cell.uuid id) = [] ↔
      s.fossilRows (Cell.uuid id) = [] ∧ ¬s.StoredIn id steps := by
  induction steps generalizing past s with
  | nil => simp [StoredIn]
  | cons step rest ih =>
      rw [run_cons, ih (h.perform step), h.fossilRows_perform, StoredIn, not_or, and_assoc]

end

/-! ## Answers of the same kind -/

/-- Whether all that can be asked about the fossils of a project is answered in one way, up to what
is found. -/
structure AnswersAlike (s : Store) (name : String) (kind : Lookup Unit) : Prop where
  latest : ∃ l, s.latestFossil name = .ok l ∧ l.kind = kind
  history : ∃ l, s.fossilHistory name = .ok l ∧ l.kind = kind
  symbols : ∀ wanted scope, ∃ l, s.findSymbols name wanted scope = .ok l ∧ l.kind = kind
  related : ∀ part, ∃ l, RelatedFiles.resolve s name part = .ok l ∧ l.kind = kind

section

variable {past : List Step} {s : Store} {name : String} {p : Project}

/-- Related files are those of symbols that are found, so they are missing as the symbols are. -/
theorem resolve_of_missing {kind : Lookup Unit} (hkind : kind ≠ .found ())
    (h : ∀ wanted scope, ∃ l, s.findSymbols name wanted scope = .ok l ∧ l.kind = kind)
    (part : String) : ∃ l, RelatedFiles.resolve s name part = .ok l ∧ l.kind = kind := by
  obtain ⟨l, hfound, hl⟩ := h (.contains part) .allFossils
  rw [RelatedFiles.resolve, hfound]
  cases l with
  | found symbols => exact absurd hl.symm hkind
  | projectNotFound missing => exact ⟨_, rfl, hl⟩
  | noFossil missing => exact ⟨_, rfl, hl⟩

/-- Where a name leads to no project, all answers say so with the name as it was given. -/
theorem answersAlike_of_unknown (hfound : s.findProject name .strict = .ok none) :
    s.AnswersAlike name (.projectNotFound name) := by
  have hmissing : ∀ {α : Type} (go : Project → Except Failure (Lookup α)),
      s.withProject name go = .ok (.projectNotFound name) := by
    intro α go
    rw [withProject, hfound]
    rfl
  have hsymbols : ∀ wanted scope, ∃ l, s.findSymbols name wanted scope = .ok l ∧
      l.kind = .projectNotFound name :=
    fun wanted scope => ⟨_, hmissing _, rfl⟩
  exact
    { latest := ⟨_, hmissing _, rfl⟩
      history := ⟨_, hmissing _, rfl⟩
      symbols := hsymbols
      related := resolve_of_missing (by simp) hsymbols }

/-- Where the project has no fossil, all answers say so with the name that is stored. -/
theorem Sound.answersAlike_of_noFossil (h : Sound past s)
    (hfound : s.findProject name .strict = .ok (some p))
    (hnone : s.fossilRows (Cell.uuid p.projectId) = []) :
    s.AnswersAlike name (.noFossil p.name) := by
  have hhistory := (h.history_eq_nil (Cell.uuid p.projectId)).mpr hnone
  have hlatest := h.latestFossil_eq hfound
  rw [hhistory, List.getLast?_nil] at hlatest
  have hsymbols : ∀ wanted scope, ∃ l, s.findSymbols name wanted scope = .ok l ∧
      l.kind = .noFossil p.name := by
    intro wanted scope
    have hempty : (s.fossilsOf (Cell.uuid p.projectId)).isEmpty = true := by
      rw [fossilsOf_eq_reverse (h.coherent.versions _), hnone]
      rfl
    rw [findSymbols, withProject, hfound]
    simp only [bind, Except.bind, hempty, if_true]
    exact ⟨_, rfl, rfl⟩
  exact
    { latest := ⟨_, hlatest, rfl⟩
      history := ⟨_, h.fossilHistory_eq hfound, by rw [answerOf, if_pos hhistory]; rfl⟩
      symbols := hsymbols
      related := resolve_of_missing (by simp) hsymbols }

/-- Where the project has a fossil, all answers are found, and the history ends in the latest
fossil. -/
theorem Sound.answersAlike_of_fossil (h : Sound past s)
    (hfound : s.findProject name .strict = .ok (some p))
    (hsome : s.fossilRows (Cell.uuid p.projectId) ≠ []) :
    s.AnswersAlike name (.found ()) ∧
      ∃ history latest, s.fossilHistory name = .ok (.found history) ∧
        s.latestFossil name = .ok (.found latest) ∧ history.getLast? = some latest := by
  have hhistory : s.history (Cell.uuid p.projectId) ≠ [] :=
    fun hnil => hsome ((h.history_eq_nil _).mp hnil)
  have hall : s.fossilHistory name = .ok (.found (s.history (Cell.uuid p.projectId))) := by
    rw [h.fossilHistory_eq hfound, answerOf, if_neg hhistory]
  obtain ⟨latest, hlast⟩ : ∃ latest, (s.history (Cell.uuid p.projectId)).getLast? = some latest :=
    ⟨_, List.getLast?_eq_getLast_of_ne_nil hhistory⟩
  have hlatest : s.latestFossil name = .ok (.found latest) := by
    rw [h.latestFossil_eq hfound, hlast]
  refine ⟨?_, _, latest, hall, hlatest, hlast⟩
  exact
    { latest := ⟨_, hlatest, rfl⟩
      history := ⟨_, hall, rfl⟩
      symbols := fun wanted scope =>
        ⟨_, h.coherent.findSymbols_eq hfound hsome wanted scope, rfl⟩
      related := by
        intro part
        obtain ⟨files, hfiles, -⟩ := h.coherent.resolve_eq hfound hsome part
        exact ⟨_, hfiles, rfl⟩ }

end

end Store

end FossilRecord
