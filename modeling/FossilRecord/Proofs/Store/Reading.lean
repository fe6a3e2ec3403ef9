import FossilRecord.Proofs.Except
import FossilRecord.Proofs.Store.Search

/-!
# Reading fossils and their symbols

Every row of a fossil that a history left can be read.  The history of a project is therefore what
its rows say, in the order in which they were written, and its latest fossil is the last of them;
the symbols of a fossil are what their rows say, in the order of files, lines and places.

`Sound` gathers what holds of the tables after every history at times that can be written down.
-/

namespace FossilRecord.Store

/-! ## One row -/

/-- What is read of a row of a fossil. -/
structure ReadsFossil (r : FossilRow) (f : Fossil) : Prop where
  decode : r.decode = .ok f
  fossilId : r.fossilId = Cell.uuid f.fossilId
  projectId : r.projectId = Cell.uuid f.projectId
  version : r.version = .integer f.version

theorem readsFossil_fossilRow {fresh : Fresh} (hnow : fresh.now.IsValid) (projectId : Uuid)
    (version : Int) {raw : String} {p : Payload} (hparse : Payload.parse raw = .ok p)
    (promptUsed : String) :
    ReadsFossil (fossilRow fresh projectId version p promptUsed)
      (storedFossil fresh projectId version p promptUsed) where
  decode := decode_fossilRow hnow projectId version (Payload.sound_of_parse hparse).1 promptUsed
  fossilId := rfl
  projectId := rfl
  version := rfl

/-- The fossil of a row, if it can be read. -/
def FossilRow.read? (r : FossilRow) : Option Fossil :=
  r.decode.toOption

theorem ReadsFossil.read? {r : FossilRow} {f : Fossil} (h : ReadsFossil r f) : r.read? = some f := by
  rw [FossilRow.read?, h.decode]
  rfl

/-! ## Many rows -/

section

variable {rows : List FossilRow}

/-- If all rows can be read, what is read of them are their fossils one by one. -/
theorem forall₂_filterMap_read? (h : ∀ r ∈ rows, ∃ f, ReadsFossil r f) :
    List.Forall₂ ReadsFossil rows (rows.filterMap FossilRow.read?) := by
  induction rows with
  | nil => exact .nil
  | cons r rest ih =>
      obtain ⟨f, hf⟩ := h r (by simp)
      rw [List.filterMap_cons_some hf.read?]
      exact .cons hf (ih fun q hq => h q (by simp [hq]))

/-- If all rows can be read, they are read one by one. -/
theorem mapM_decode_fossils (h : ∀ r ∈ rows, ∃ f, ReadsFossil r f) :
    ∃ typed, rows.mapM FossilRow.typed = .ok typed ∧ typed.isEmpty = rows.isEmpty ∧
      typed.mapM TypedFossil.decode = .ok (rows.filterMap FossilRow.read?) := by
  induction rows with
  | nil => exact ⟨[], rfl, rfl, rfl⟩
  | cons r rest ih =>
      obtain ⟨f, hf⟩ := h r (by simp)
      obtain ⟨t, htyped, hdecode⟩ := bind_eq_ok hf.decode
      obtain ⟨typed, htypes, -, hdecoded⟩ := ih fun q hq => h q (by simp [hq])
      refine ⟨t :: typed, ?_, rfl, ?_⟩
      · rw [List.mapM_cons, htyped, htypes]
        rfl
      · rw [List.mapM_cons, hdecode, hdecoded, List.filterMap_cons_some hf.read?]
        rfl

theorem filterMap_read?_eq_nil (h : ∀ r ∈ rows, ∃ f, ReadsFossil r f) :
    rows.filterMap FossilRow.read? = [] ↔ rows = [] := by
  rw [← List.length_eq_zero_iff, ← (forall₂_filterMap_read? h).length_eq, List.length_eq_zero_iff]

/-- What is read of rows has their identifiers. -/
theorem map_fossilId_filterMap_read? (h : ∀ r ∈ rows, ∃ f, ReadsFossil r f) :
    (rows.filterMap FossilRow.read?).map (fun f => Cell.uuid f.fossilId) =
      rows.map FossilRow.fossilId :=
  map_eq_map_of_forall₂ (forall₂_filterMap_read? h).flip fun _ _ hf => hf.fossilId.symm

/-- The fossil that is read of the last row is the last that is read. -/
theorem getLast?_filterMap_read? (h : ∀ r ∈ rows, ∃ f, ReadsFossil r f) :
    (rows.filterMap FossilRow.read?).getLast? = rows.getLast?.bind FossilRow.read? := by
  rcases List.eq_nil_or_concat rows with rfl | ⟨before, r, rfl⟩
  · rfl
  · obtain ⟨f, hf⟩ := h r (by simp)
    simp [hf.read?]

end

/-! ## Tables that can be read -/

/-- The fossils of a project by its stored identifier, as they are read, in the order in which they
were stored. -/
def history (s : Store) (projectId : Cell) : List Fossil :=
  (s.fossilRows projectId).filterMap FossilRow.read?

/-- The answer with the history of a project, which says so if there is none. -/
def answerOf (name : String) (history : List Fossil) : Lookup (List Fossil) :=
  if history = [] then .noFossil name else .found history

/-- What holds of the tables after a history at times that can be written down: they hang together,
and all that is looked up in them can be read. -/
structure Sound (past : List Step) (s : Store) : Prop where
  coherent : Coherent past s
  legible : s.Legible
  fossils : ∀ r ∈ s.fossils, ∃ f, ReadsFossil r f

namespace Sound

variable {past : List Step} {s : Store}

theorem blank (uniqueSummaries uniqueSymbolNames : Bool) :
    Sound [] (Store.blank uniqueSummaries uniqueSymbolNames) where
  coherent := Coherent.blank uniqueSummaries uniqueSymbolNames
  legible := Legible.blank uniqueSummaries uniqueSymbolNames
  fossils := by simp [Store.blank, empty]

/-- Every write at a time that can be written down keeps the tables sound. -/
theorem perform (h : Sound past s) {step : Step} (hnow : step.fresh.now.IsValid) :
    Sound (past ++ [step]) (s.perform step) where
  coherent := h.coherent.perform step
  legible := h.legible.perform h.coherent.projectNames hnow
  fossils := by
    have heffect := perform_effect s h.coherent.projectNames step
    generalize step.write = w at heffect
    generalize s.perform step = s' at heffect
    -- only an ingestion that is stored adds a fossil, and that one is of a payload that was read
    cases heffect with
    | stored name raw promptUsed payload project prompt drawn version hparse =>
        have hlater : (step.fresh.after drawn).now.IsValid := hnow
        exact forall_mem_snoc h.fossils
          ⟨_, readsFossil_fossilRow hlater project.projectId version hparse prompt⟩
    | _ => exact h.fossils

/-- Every history at times that can be written down keeps the tables sound. -/
theorem run (h : Sound past s) {steps : List Step}
    (hclock : ∀ step ∈ steps, step.fresh.now.IsValid) : Sound (past ++ steps) (s.run steps) := by
  induction steps generalizing past s with
  | nil => simpa using h
  | cons step rest ih =>
      have hrest := ih (h.perform (hclock step (by simp))) fun other hother =>
        hclock other (by simp [hother])
      rwa [List.append_assoc] at hrest

theorem reads_fossilRows (h : Sound past s) (projectId : Cell) :
    ∀ r ∈ s.fossilRows projectId, ∃ f, ReadsFossil r f :=
  fun r hr => h.fossils r (List.mem_of_mem_filter hr)

/-- A project has no history if and only if it has no fossil. -/
theorem history_eq_nil (h : Sound past s) (projectId : Cell) :
    s.history projectId = [] ↔ s.fossilRows projectId = [] :=
  filterMap_read?_eq_nil (h.reads_fossilRows projectId)

/-- A fossil of a history is read of a row of its project. -/
theorem exists_of_mem_history (h : Sound past s) {projectId : Cell} {f : Fossil}
    (hf : f ∈ s.history projectId) :
    ∃ r ∈ s.fossils, r.projectId = projectId ∧ ReadsFossil r f := by
  obtain ⟨r, hr, hread⟩ := List.mem_filterMap.mp hf
  obtain ⟨g, hg⟩ := h.reads_fossilRows projectId r hr
  rw [hg.read?, Option.some.injEq] at hread
  rw [fossilRows, List.mem_filter, decide_eq_true_eq] at hr
  exact ⟨r, hr.1, hr.2, hread ▸ hg⟩

section

variable {name : String} {project : Project}

/-- The history of a project that a name leads to is read of its rows in the order of writing. -/
theorem fossilHistory_eq (h : Sound past s)
    (hproject : s.findProject name .strict = .ok (some project)) :
    s.fossilHistory name =
      .ok (answerOf project.name (s.history (Cell.uuid project.projectId))) := by
  obtain ⟨typed, htyped, hempty, hdecoded⟩ :=
    mapM_decode_fossils (h.reads_fossilRows (Cell.uuid project.projectId))
  have hrows : orderBy (fun f => [FossilRow.version f])
      (s.fossils.filter fun f => f.projectId = Cell.uuid project.projectId) =
        s.fossilRows (Cell.uuid project.projectId) :=
    (h.coherent.versions (Cell.uuid project.projectId)).orderBy_version
  rw [Store.fossilHistory, withProject, hproject, answerOf]
  simp only [bind, Except.bind]
  rw [hrows, htyped]
  simp only [hempty, List.isEmpty_iff, h.history_eq_nil]
  split
  · rfl
  · rw [hdecoded]
    rfl

/-- The latest fossil of a project is the last one of its history. -/
theorem latestFossil_eq (h : Sound past s)
    (hproject : s.findProject name .strict = .ok (some project)) :
    s.latestFossil name =
      match (s.history (Cell.uuid project.projectId)).getLast? with
      | none => .ok (.noFossil project.name)
      | some latest => .ok (.found latest) := by
  have hreads := h.reads_fossilRows (Cell.uuid project.projectId)
  rw [Store.latestFossil, withProject, hproject, history, getLast?_filterMap_read? hreads]
  simp only [bind, Except.bind]
  rw [fossilsOf_eq_reverse (h.coherent.versions (Cell.uuid project.projectId))]
  rcases List.eq_nil_or_concat (s.fossilRows (Cell.uuid project.projectId)) with
    hnil | ⟨before, r, hrows⟩
  · rw [hnil]
    rfl
  · rw [hrows] at hreads ⊢
    obtain ⟨f, hf⟩ := hreads r (by simp)
    simp [hf.read?, hf.decode, Except.map]

end

end Sound

/-! ## The symbols of one fossil -/

/-- A fossil is the only one of its identifier. -/
theorem Coherent.filter_fossilId {past : List Step} {s : Store} (h : Coherent past s)
    {f : FossilRow} (hf : f ∈ s.fossils) :
    s.fossils.filter (fun g => g.fossilId = f.fossilId) = [f] := by
  obtain ⟨before, after, hsplit⟩ := List.append_of_mem hf
  have hids := h.fossilIds
  rw [hsplit, List.map_append, List.map_cons, List.nodup_middle, List.nodup_cons,
    List.mem_append] at hids
  have hother : ∀ {rows : List FossilRow}, f.fossilId ∉ rows.map FossilRow.fossilId →
      rows.filter (fun g => g.fossilId = f.fossilId) = [] := by
    intro rows hrows
    rw [List.filter_eq_nil_iff]
    intro g hg heq
    exact hrows (of_decide_eq_true heq ▸ List.mem_map_of_mem hg)
  rw [hsplit, List.filter_append, List.filter_cons_of_pos (by simp),
    hother fun hmem => hids.1 (.inl hmem), hother fun hmem => hids.1 (.inr hmem)]
  rfl

/-- A symbol of a fossil is one of the project of that fossil. -/
theorem Coherent.projectId_of_fossilId {past : List Step} {s : Store} (h : Coherent past s)
    {f : FossilRow} (hf : f ∈ s.fossils) {r : SymbolRow} (hr : r ∈ s.symbols)
    (hid : r.fossilId = f.fossilId) : r.projectId = f.projectId := by
  obtain ⟨g, hg, hgr, howner⟩ := h.symbolFossils r hr
  have hgf : g = f := List.inj_on_of_nodup_map h.fossilIds hg hf (hgr.trans hid)
  rw [← howner, hgf]

/-- Beside each symbol of a fossil stands that fossil. -/
theorem Coherent.joined_fossilId {past : List Step} {s : Store} (h : Coherent past s)
    {f : FossilRow} (hf : f ∈ s.fossils) :
    s.joined (·.fossilId = f.fossilId) = (s.symbolsOf f.fossilId).map fun r => ⟨r, f⟩ := by
  rw [joined, List.map_eq_flatMap]
  refine List.flatMap_congr fun r hr => ?_
  have hid : r.fossilId = f.fossilId := of_decide_eq_true (List.mem_filter.mp hr).2
  rw [hid, h.filter_fossilId hf]
  rfl

/-- The symbols of a fossil by its stored identifier, as they are read. -/
def listing (s : Store) (fossilId : Cell) : List Symbol :=
  (orderBy inFileOrder (s.joined (·.fossilId = fossilId))).filterMap (foundIn fun _ => true)

/-- The symbols of a fossil that is there are what its listing says. -/
theorem Coherent.symbolsForFossil_eq {past : List Step} {s : Store} (h : Coherent past s)
    {f : FossilRow} (hf : f ∈ s.fossils) {id : Uuid} (hid : f.fossilId = Cell.uuid id) :
    s.symbolsForFossil id = .ok (some (s.listing (Cell.uuid id))) := by
  have hany : (s.fossils.any fun g => g.fossilId = Cell.uuid id) = true := by
    rw [List.any_eq_true]
    exact ⟨f, hf, decide_eq_true hid⟩
  have hreads : ∀ j ∈ orderBy inFileOrder (s.joined (·.fossilId = Cell.uuid id)),
      ∃ t x, Reads j t x := by
    intro j hj
    obtain ⟨hsymbol, -, hfossil, hjoins⟩ := mem_joined.mp ((orderBy_perm _ _).subset hj)
    exact h.reads ⟨hsymbol, rfl, hfossil, hjoins⟩
  obtain ⟨typed, htyped, hdecoded⟩ := mapM_filter_decode hreads fun _ => true
  rw [List.filter_true] at hdecoded
  rw [symbolsForFossil, if_pos hany]
  simp only [bind, Except.bind, htyped]
  rw [hdecoded]
  rfl

end FossilRecord.Store
