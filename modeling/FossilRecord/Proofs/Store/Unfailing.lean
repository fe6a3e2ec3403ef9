import FossilRecord.Proofs.Store.Missing
import FossilRecord.Proofs.Store.Outcome
import FossilRecord.Proofs.Store.Readable

/-!
# What can still fail

After a history that began without rows no read fails, and a write fails for one of two reasons: it
draws an identifier that a row has already, or it refers to a project or a fossil that is not there.
Identifiers are drawn at random.  As long as no two that are drawn are the same, an ingestion never
fails at all.

`run_readable` is the statement about whole histories.
-/

namespace FossilRecord.Store

/-! ## Failures of writes -/

/-- What a result failed with, if it failed. -/
def failureIn {α : Type} : Except Failure α → Option Failure
  | .ok _ => none
  | .error failure => some failure

/-- What a write fails with, if it fails. -/
def failureOf (s : Store) (step : Step) : Option Failure :=
  match step.write with
  | .register input => failureIn (s.registerProject step.fresh input).1
  | .setStatus name status => failureIn (s.setProjectStatus name status).1
  | .ingest name raw promptUsed => failureIn (s.ingest step.fresh name raw promptUsed).1
  | .log input => failureIn (s.logQuery step.fresh input).1
  | .insight input => failureIn (s.recordInsight step.fresh input).1
  | .prompt input => failureIn (s.recordPrompt step.fresh input).1

/-- The failures that are no fault of what is stored. -/
inductive Refusal : Write → Failure → Prop where
  /-- An identifier was drawn that some row has. -/
  | drawnBefore (w : Write) (column : String) : Refusal w (.table (.duplicateKey column))
  /-- An insight is about a project or a fossil that is not there. -/
  | strayInsight (input : NewInsight) : Refusal (.insight input) (.table .missingReference)
  /-- A prompt is for a project that is not there. -/
  | strayPrompt (input : NewPrompt) : Refusal (.prompt input) (.table .missingReference)

/-- Whether a write is an ingestion. -/
def Write.isIngest : Write → Bool
  | .ingest .. => true
  | .register _ | .setStatus .. | .log _ | .insight _ | .prompt _ => false

/-! ## An ingestion in tables that hang together -/

section Ingestion

variable {past : List Step} {s : Store}

/-- Symbols of a fossil that is there are refused for their identifiers only. -/
theorem insertSymbols_error {rows : List SymbolRow} {s : Store} {halt : Halt}
    (hnames : s.uniqueSymbolNames = false)
    (hrefers : ∀ r ∈ rows, s.hasFossil r.fossilId = true ∧ s.hasProject r.projectId = true)
    (h : s.insertSymbols rows = .error halt) :
    ∃ column, halt = .failed (.table (.duplicateKey column)) := by
  induction rows generalizing s with
  | nil => cases h
  | cons row rest ih =>
      have hrow := hrefers row (by simp)
      rw [insertSymbols] at h
      by_cases hkey : (s.symbols.any fun r => r.symbolId = row.symbolId) = true
      · have hrefused : s.insertSymbol row =
            .error (.failed (.table (.duplicateKey "symbols.symbol_id"))) := by
          simp only [insertSymbol, hnames, hkey, Bool.false_and, Bool.false_eq_true, if_false,
            if_true]
        rw [hrefused] at h
        cases h
        exact ⟨_, rfl⟩
      · have hadded := insertSymbol_eq hnames (by simpa using hkey) hrow.1 hrow.2
        rw [hadded] at h
        exact ih (s := { s with symbols := s.symbols ++ [row] }) hnames
          (fun r hr => hrefers r (by simp [hr])) h

/-- A transaction comes to its end or draws an identifier that some row has. -/
theorem writeFossil_cases (fresh : Fresh) (h : Coherent past s) (hfree : s.Unconstrained) {projectId : Uuid}
    (hproject : s.hasProject (Cell.uuid projectId) = true)
    (hroom : (s.fossils.length : Int) < Json.maxInt64) (p : Payload) (promptUsed : String) :
    (∃ version, s.writeFossil fresh projectId p promptUsed =
      .ok (version, s.withFossil fresh projectId version p promptUsed)) ∨
    ∃ column, s.writeFossil fresh projectId p promptUsed =
      .error (.failed (.table (.duplicateKey column))) := by
  cases hwrite : s.writeFossil fresh projectId p promptUsed with
  | ok written =>
      obtain ⟨version, s'⟩ := written
      obtain ⟨-, -, -, rfl⟩ := writeFossil_ok hwrite
      exact .inl ⟨version, rfl⟩
  | error halt =>
      refine .inr ?_
      have hversions := h.versions (Cell.uuid projectId)
      have hcount : (s.fossilRows (Cell.uuid projectId)).length ≤ s.fossils.length :=
        List.length_filter_le _ _
      rw [writeFossil, versionFor_of_lt hversions (by omega)] at hwrite
      simp only [Except.mapError, bind, Except.bind] at hwrite
      let row :=
        fossilRow fresh projectId ((s.fossilRows (Cell.uuid projectId)).length + 1) p promptUsed
      have hclash : s.clashes row = false := clashes_eq_false hfree.summaries hversions.version_ne
      cases hkey : s.hasFossil row.fossilId with
      | true =>
          have hrefused : s.insertFossil row =
              .error (.failed (.table (.duplicateKey "fossils.fossil_id"))) := by
            simp only [insertFossil, hclash, hkey, Bool.false_eq_true, if_false, if_true]
          rw [hrefused] at hwrite
          cases hwrite
          exact ⟨_, rfl⟩
      | false =>
          rw [insertFossil_eq hclash hkey hproject] at hwrite
          let t : Store := { s with fossils := s.fossils ++ [row] }
          -- the symbols refer to the fossil that was just added
          have hrefers : ∀ r ∈ symbolRows fresh projectId 0 p.symbols,
              t.hasFossil r.fossilId = true ∧ t.hasProject r.projectId = true := by
            intro r hr
            obtain ⟨hid, howner⟩ := fossilId_of_mem_symbolRows fresh projectId hr
            rw [hid, howner]
            exact ⟨by simp [t, hasFossil, row, fossilRow], hproject⟩
          cases hsymbols : t.insertSymbols (symbolRows fresh projectId 0 p.symbols) with
          | ok u =>
              simp only [t, hsymbols] at hwrite
              cases hwrite
          | error halt' =>
              simp only [t, hsymbols] at hwrite
              cases hwrite
              obtain ⟨column, rfl⟩ :=
                insertSymbols_error (s := t) hfree.symbolNames hrefers hsymbols
              exact ⟨column, rfl⟩

/-- An ingestion stores a fossil in its first attempt, or says why there is none to be stored, or
draws an identifier that some row has. -/
theorem ingest_outcome (fresh : Fresh) (h : Sound past s) (hfree : s.Unconstrained)
    (hroom : (s.fossils.length : Int) < Json.maxInt64) (name raw : String)
    (promptUsed : Option String) :
    (∃ p outcome projectId version prompt, Payload.parse raw = .ok p ∧
      s.ingest fresh name raw promptUsed =
        (.ok outcome, s.withFossil fresh projectId version p prompt)) ∨
    (∃ outcome, s.ingest fresh name raw promptUsed = (.ok outcome, s)) ∨
    ∃ column, s.ingest fresh name raw promptUsed = (.error (.table (.duplicateKey column)), s) := by
  cases hparse : Payload.parse raw with
  | error flaw => exact .inr (.inl ⟨_, ingest_of_malformed hparse⟩)
  | ok p =>
      obtain ⟨found, hfound⟩ := h.legible.findProject_total name .strict
      cases found with
      | none => exact .inr (.inl ⟨_, ingest_of_unknown hparse hfound⟩)
      | some project =>
          obtain ⟨prompt, hprompt⟩ := h.legible.promptFor project promptUsed
          have hproject := h.legible.hasProject_of_findProject hfound
          rcases writeFossil_cases fresh h.coherent hfree hproject hroom p prompt with
            ⟨version, hwrite⟩ | ⟨column, hwrite⟩
          · refine .inl ⟨p, .stored ⟨fresh.id 0, project.projectId, project.name, version,
              p.symbols.length⟩, project.projectId, version, prompt, rfl, ?_⟩
            unfold ingest
            simp only [hparse, hfound, hprompt, maxAttempts, storeFossil, hwrite, settle]
          · refine .inr (.inr ⟨column, ?_⟩)
            unfold ingest
            simp only [hparse, hfound, hprompt, maxAttempts, storeFossil, hwrite, settle]

end Ingestion

/-! ## Every write -/

section Writes

variable {past : List Step} {s : Store}

theorem Legible.failureIn_registerProject (h : s.Legible) {fresh : Fresh} {input : NewProject}
    {failure : Failure}
    (hfailure : failureIn (s.registerProject fresh input).1 = some failure) :
    Refusal (.register input) failure := by
  unfold registerProject at hfailure
  split at hfailure
  · -- the row that is there can be read, and so can its copy
    rename_i old hold
    obtain ⟨p, rfl, hp⟩ := h.projects old (List.mem_of_find?_eq_some hold)
    have hdecode := decode_projectRow (p := { p with path := input.path, stack := input.stack }) hp
    rw [projectRow] at hdecode
    simp only [projectRow, hdecode] at hfailure
    cases hfailure
  · simp only at hfailure
    split at hfailure
    · cases hfailure
      exact .drawnBefore _ _
    · have hdecode := decode_projectRow
        (p := ⟨fresh.id 0, input.name, input.path, input.stack, .active, none⟩) (by simp)
      have hrow : newProjectRow fresh input = projectRow
        ⟨fresh.id 0, input.name, input.path, input.stack, .active, none⟩ := rfl
      simp only [hrow, hdecode] at hfailure
      cases hfailure

theorem Legible.failureIn_setProjectStatus (h : s.Legible) (name : String)
    (status : ProjectStatus) : failureIn (s.setProjectStatus name status).1 = none := by
  obtain ⟨found, hfound⟩ := h.findProject_total name .strict
  rw [setProjectStatus, hfound]
  cases found <;> rfl

/-- A write in tables that can be read is refused or does not fail. -/
theorem Readable.refusal (h : Readable past s) (hfree : s.Unconstrained)
    (hroom : (s.fossils.length : Int) < Json.maxInt64) {step : Step} {failure : Failure}
    (hfailure : s.failureOf step = some failure) : Refusal step.write failure := by
  unfold failureOf at hfailure
  cases hwrite : step.write with
  | register input =>
      simp only [hwrite] at hfailure
      exact h.sound.legible.failureIn_registerProject hfailure
  | setStatus name status =>
      simp only [hwrite] at hfailure
      rw [h.sound.legible.failureIn_setProjectStatus] at hfailure
      cases hfailure
  | ingest name raw promptUsed =>
      simp only [hwrite] at hfailure
      rcases ingest_outcome step.fresh h.sound hfree hroom name raw promptUsed with
        ⟨_, _, _, _, _, -, hstored⟩ | ⟨_, hkept⟩ | ⟨column, hrefused⟩
      · rw [hstored] at hfailure
        cases hfailure
      · rw [hkept] at hfailure
        cases hfailure
      · rw [hrefused] at hfailure
        cases hfailure
        exact .drawnBefore _ column
  | log input =>
      simp only [hwrite] at hfailure
      obtain ⟨rows, hrows, -⟩ := h.queryLog
      simp only [logQuery, hrows] at hfailure
      split at hfailure
      · cases hfailure
        exact .drawnBefore _ _
      · cases hfailure
  | insight input =>
      simp only [hwrite, recordInsight] at hfailure
      split at hfailure
      · cases hfailure
        exact .drawnBefore _ _
      · split at hfailure
        · cases hfailure
        · cases hfailure
          exact .strayInsight input
  | prompt input =>
      simp only [hwrite, recordPrompt] at hfailure
      split at hfailure
      · cases hfailure
        exact .drawnBefore _ _
      · split at hfailure
        · cases hfailure
        · cases hfailure
          exact .strayPrompt input

end Writes

/-! ## Identifiers that are drawn -/

/-- How many identifiers a write draws for a fossil and its symbols. -/
def Write.draws : Write → Nat
  | .ingest _ raw _ =>
      match Payload.parse raw with
      | .ok p => p.symbols.length + 1
      | .error _ => 0
  | .register _ | .setStatus _ _ | .log _ | .insight _ | .prompt _ => 0

/-- The identifiers that a write draws for a fossil and its symbols. -/
def Step.drawn (step : Step) : List Uuid :=
  (List.range step.write.draws).map step.fresh.id

/-- Whether no two identifiers that a history draws for fossils and symbols are the same. -/
def DrawsApart (steps : List Step) : Prop :=
  (steps.flatMap Step.drawn).Nodup

instance (steps : List Step) : Decidable (DrawsApart steps) :=
  inferInstanceAs (Decidable (List.Nodup _))

/-- The identifiers of the fossils and the symbols are among some that were drawn. -/
structure DrawnFrom (ids : List Uuid) (s : Store) : Prop where
  fossils : ∀ r ∈ s.fossils, ∃ id ∈ ids, r.fossilId = Cell.uuid id
  symbols : ∀ r ∈ s.symbols, ∃ id ∈ ids, r.symbolId = Cell.uuid id

/-- Only an ingestion touches the symbols. -/
theorem Effect.symbols {s s' : Store} {fresh : Fresh} {w : Write} (h : Effect s fresh w s')
    (hother : ∀ name raw promptUsed, w ≠ .ingest name raw promptUsed) : s'.symbols = s.symbols := by
  cases h with
  | stored name raw promptUsed => exact absurd rfl (hother name raw promptUsed)
  | unchanged | described | registered | restated | logged | noted | instructed => rfl

namespace DrawnFrom

variable {ids more : List Uuid} {past : List Step} {s : Store}

theorem mono (h : DrawnFrom ids s) (hsub : ids ⊆ more) : DrawnFrom more s where
  fossils r hr := by
    obtain ⟨id, hid, hcell⟩ := h.fossils r hr
    exact ⟨id, hsub hid, hcell⟩
  symbols r hr := by
    obtain ⟨id, hid, hcell⟩ := h.symbols r hr
    exact ⟨id, hsub hid, hcell⟩

/-- A fossil and its symbols have the identifiers that are drawn for them. -/
theorem withFossil (h : DrawnFrom ids s) {fresh : Fresh} (projectId : Uuid) (version : Int)
    (p : Payload) (promptUsed : String) :
    DrawnFrom (ids ++ (List.range (p.symbols.length + 1)).map fresh.id)
      (s.withFossil fresh projectId version p promptUsed) where
  fossils := by
    refine forall_mem_snoc (h.mono (List.subset_append_left _ _)).fossils ⟨fresh.id 0, ?_, rfl⟩
    exact List.mem_append_right _ (List.mem_map_of_mem (List.mem_range.mpr (by omega)))
  symbols := by
    intro r hr
    rcases List.mem_append.mp hr with hr | hr
    · exact (h.mono (List.subset_append_left _ _)).symbols r hr
    · obtain ⟨k, -, hk, q, -, rfl⟩ := mem_symbolRows fresh projectId hr
      refine ⟨fresh.id (k + 1), ?_, rfl⟩
      exact List.mem_append_right _ (List.mem_map_of_mem (List.mem_range.mpr (by omega)))

/-- The identifiers that are not among those that were drawn are unused. -/
theorem unused (h : DrawnFrom ids s) {fresh : Fresh} {count : Nat}
    (hapart : (ids ++ (List.range (count + 1)).map fresh.id).Nodup) : Unused fresh s count := by
  obtain ⟨-, hdistinct, hdisjoint⟩ := List.nodup_append.mp hapart
  have hne : ∀ {id : Uuid} {k : Nat}, id ∈ ids → k < count + 1 →
      Cell.uuid id ≠ Cell.uuid (fresh.id k) := by
    intro id k hid hk hcell
    have hsame : id = fresh.id k := Uuid.toString_injective (Cell.text.inj hcell)
    exact hdisjoint id hid (fresh.id k) (List.mem_map_of_mem (List.mem_range.mpr hk)) hsame
  refine ⟨fun f hf => ?_, fun k hk r hr => ?_, fun j hj k hk hid => ?_⟩
  · obtain ⟨id, hid, hcell⟩ := h.fossils f hf
    rw [hcell]
    exact hne hid (by omega)
  · obtain ⟨id, hid, hcell⟩ := h.symbols r hr
    rw [hcell]
    exact hne hid (by omega)
  · have hsucc := List.inj_on_of_nodup_map hdistinct (List.mem_range.mpr (by omega : j + 1 < count + 1))
      (List.mem_range.mpr (by omega : k + 1 < count + 1)) hid
    omega

/-- What a write adds has identifiers that the write draws. -/
theorem perform (h : DrawnFrom ids s) (hsound : Sound past s) (hfree : s.Unconstrained)
    (hroom : (s.fossils.length : Int) < Json.maxInt64) (step : Step) :
    DrawnFrom (ids ++ step.drawn) (s.perform step) := by
  have hkept := h.mono (List.subset_append_left ids step.drawn)
  have heffect := perform_effect s hsound.coherent.projectNames step
  cases hwrite : step.write with
  | ingest name raw promptUsed =>
      simp only [Store.perform, hwrite]
      rcases ingest_outcome step.fresh hsound hfree hroom name raw promptUsed with
        ⟨p, _, projectId, version, prompt, hparse, hstored⟩ | ⟨_, hsame⟩ | ⟨_, hsame⟩
      · have hdraws : step.write.draws = p.symbols.length + 1 := by
          simp only [hwrite, Write.draws, hparse]
        rw [hstored, Step.drawn, hdraws]
        exact h.withFossil projectId version p prompt
      · rw [hsame]
        exact hkept
      · rw [hsame]
        exact hkept
  | register | setStatus | log | insight | prompt =>
      rw [hwrite] at heffect
      have hfossils := heffect.fossils (by simp)
      have hsymbols := heffect.symbols (by simp)
      exact ⟨by rw [hfossils]; exact hkept.fossils, by rw [hsymbols]; exact hkept.symbols⟩

end DrawnFrom

/-! ## Whole histories -/

/-- The number of ingestions of a history. -/
def ingestions (steps : List Step) : Nat :=
  steps.countP fun step => step.write.isIngest

theorem ingestions_snoc (steps : List Step) (step : Step) :
    ingestions (steps ++ [step]) = ingestions steps + if step.write.isIngest then 1 else 0 := by
  rw [ingestions, List.countP_append, List.countP_singleton]
  rfl

/-- A write adds a fossil at most if it is an ingestion. -/
theorem Coherent.fossils_perform {past : List Step} {s : Store} (h : Coherent past s) (step : Step) :
    (s.perform step).fossils.length ≤
      s.fossils.length + if step.write.isIngest then 1 else 0 := by
  have heffect := perform_effect s h.projectNames step
  generalize step.write = w at heffect ⊢
  generalize s.perform step = s' at heffect ⊢
  cases heffect with
  | stored => simp [withFossil_fossils, Write.isIngest]
  | unchanged | described | registered | restated | logged | noted | instructed =>
      exact Nat.le_add_right _ _

/-- There are no more fossils than there were ingestions. -/
theorem fossils_run (steps : List Step) : (empty.run steps).fossils.length ≤ ingestions steps := by
  induction steps using List.reverseRecOn with
  | nil => simp [empty]
  | append_singleton steps step ih =>
      have hcoherent : Coherent steps (empty.run steps) := (Coherent.blank false false).run steps
      have hstep := hcoherent.fossils_perform step
      rw [run_append, run_cons, run_nil, ingestions_snoc]
      omega

theorem ingestions_mono {before after : List Step} :
    ingestions before ≤ ingestions (before ++ after) := by
  rw [ingestions, ingestions, List.countP_append]
  exact Nat.le_add_right _ _

section

variable {steps : List Step}

theorem readable_run (hsteps : ∀ step ∈ steps, step.IsWritable) :
    Readable steps (empty.run steps) :=
  Readable.empty.run hsteps

/-- A history has drawn the identifiers of all fossils and symbols that there are. -/
theorem drawnFrom_run (hsteps : ∀ step ∈ steps, step.IsWritable)
    (hroom : (ingestions steps : Int) < Json.maxInt64) :
    DrawnFrom (steps.flatMap Step.drawn) (empty.run steps) := by
  induction steps using List.reverseRecOn with
  | nil => constructor <;> simp [empty]
  | append_singleton steps step ih =>
      have hbefore : ∀ other ∈ steps, other.IsWritable := fun other hother =>
        hsteps other (by simp [hother])
      have hfewer : ingestions steps ≤ ingestions (steps ++ [step]) := ingestions_mono
      have hcount := fossils_run steps
      have hstep := (ih hbefore (by omega)).perform (readable_run hbefore).sound
        (unconstrained_run steps) (by omega) step
      rwa [List.flatMap_append, List.flatMap_singleton, run_append, run_cons, run_nil]

/-- An ingestion that draws identifiers of its own does not fail. -/
theorem ingest_ok {past : List Step} {s : Store} {ids : List Uuid} (h : Sound past s)
    (hfree : s.Unconstrained) (hdrawn : DrawnFrom ids s)
    (hroom : (s.fossils.length : Int) < Json.maxInt64) {step : Step} {name raw : String}
    {promptUsed : Option String} (hwrite : step.write = .ingest name raw promptUsed)
    (hapart : (ids ++ step.drawn).Nodup) :
    ∃ outcome, (s.ingest step.fresh name raw promptUsed).1 = .ok outcome := by
  cases hparse : Payload.parse raw with
  | error flaw =>
      rw [ingest_of_malformed hparse]
      exact ⟨_, rfl⟩
  | ok p =>
      have hdraws : step.write.draws = p.symbols.length + 1 := by
        simp only [hwrite, Write.draws, hparse]
      rw [Step.drawn, hdraws] at hapart
      obtain ⟨found, hfound⟩ := h.legible.findProject_total name .strict
      cases found with
      | none =>
          rw [ingest_of_unknown hparse hfound]
          exact ⟨_, rfl⟩
      | some project =>
          have hcount : (s.fossilRows (Cell.uuid project.projectId)).length ≤ s.fossils.length :=
            List.length_filter_le _ _
          obtain ⟨prompt, hingest⟩ := ingest_eq h.coherent h.legible hfree.summaries
            hfree.symbolNames hfound hparse (by omega) (hdrawn.unused hapart) promptUsed
          rw [hingest]
          exact ⟨_, rfl⟩

end

end FossilRecord.Store
