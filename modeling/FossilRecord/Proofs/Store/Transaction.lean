import FossilRecord.Store.Ingest
import Mathlib.Tactic.Common

/-!
# Ingestion is all or nothing

The rows of a fossil are written one by one, and any of them may be refused.  This module follows
the transaction row by row: a transaction that came to its end has added exactly its rows, and one
that was given up, in any attempt, has left the tables as they were.

The main statement is `ingest_all_or_nothing`.  It holds for tables with any content, also rows that
no operation writes; of the constraints of the tables it needs only that no two projects have one
identifier.
-/

namespace FossilRecord.Store

/-! ## The rows of one transaction -/

/-- The store with one more fossil, its symbols, and the time at which its project was indexed. -/
def withFossil (s : Store) (fresh : Fresh) (projectId : Uuid) (version : Int) (p : Payload)
    (promptUsed : String) : Store :=
  ({ s with
    fossils := s.fossils ++ [fossilRow fresh projectId version p promptUsed]
    symbols := s.symbols ++ symbolRows fresh projectId 0 p.symbols }).alterProjects projectId
      fun r => { r with lastIndexed := Cell.instant fresh.now }

section Symbols

variable (fresh : Fresh) (projectId : Uuid)

theorem symbolRows_length (place : Nat) (symbols : List PayloadSymbol) :
    (symbolRows fresh projectId place symbols).length = symbols.length := by
  induction symbols generalizing place with
  | nil => rfl
  | cons p rest ih => simp [symbolRows, ih]

/-- A row of a payload is that of one of its symbols, at the place of that symbol. -/
theorem mem_symbolRows {place : Nat} {symbols : List PayloadSymbol} {r : SymbolRow}
    (hr : r ∈ symbolRows fresh projectId place symbols) :
    ∃ k, place ≤ k ∧ k < place + symbols.length ∧
      ∃ p ∈ symbols, r = symbolRow fresh projectId k p := by
  induction symbols generalizing place with
  | nil => simp [symbolRows] at hr
  | cons p rest ih =>
      rw [symbolRows, List.mem_cons] at hr
      rcases hr with rfl | hr
      · exact ⟨place, Nat.le_refl place, by simp, p, by simp, rfl⟩
      · obtain ⟨k, hlow, hhigh, q, hq, rfl⟩ := ih hr
        refine ⟨k, by omega, ?_, q, List.mem_cons_of_mem p hq, rfl⟩
        rw [List.length_cons]
        omega

theorem fossilId_of_mem_symbolRows {place : Nat} {symbols : List PayloadSymbol} {r : SymbolRow}
    (hr : r ∈ symbolRows fresh projectId place symbols) :
    r.fossilId = Cell.uuid (fresh.id 0) ∧ r.projectId = Cell.uuid projectId := by
  obtain ⟨k, -, -, p, -, rfl⟩ := mem_symbolRows fresh projectId hr
  exact ⟨rfl, rfl⟩

end Symbols

/-- A symbol that was added stands behind the others, and nothing else is different. -/
theorem insertSymbol_ok {s s' : Store} {row : SymbolRow} (h : s.insertSymbol row = .ok s') :
    s' = { s with symbols := s.symbols ++ [row] } ∧ ∀ r ∈ s.symbols, r.symbolId ≠ row.symbolId := by
  unfold insertSymbol at h
  split at h
  · cases h
  · split at h
    · cases h
    · rename_i hkey
      split at h
      · cases h
      · cases h
        exact ⟨rfl, by simpa using hkey⟩

/-- Symbols that were added one by one stand behind the others in their order. -/
theorem insertSymbols_ok {rows : List SymbolRow} {s s' : Store}
    (h : s.insertSymbols rows = .ok s') : s' = { s with symbols := s.symbols ++ rows } := by
  induction rows generalizing s with
  | nil =>
      cases h
      simp
  | cons row rest ih =>
      cases hrow : s.insertSymbol row with
      | error halt => simp [insertSymbols, hrow, bind, Except.bind] at h
      | ok t =>
          have hrest : t.insertSymbols rest = .ok s' := by
            simpa [insertSymbols, hrow, bind, Except.bind] using h
          rw [ih hrest, (insertSymbol_ok hrow).1]
          simp

/-- A fossil that was added stands behind the others.  Neither its identifier nor its version within
the project was there before, and its project was. -/
theorem insertFossil_ok {s s' : Store} {row : FossilRow} (h : s.insertFossil row = .ok s') :
    s' = { s with fossils := s.fossils ++ [row] } ∧ s.hasFossil row.fossilId = false ∧
      s.hasProject row.projectId = true := by
  unfold insertFossil at h
  split at h
  · cases h
  · split at h
    · cases h
    · rename_i hkey
      split at h
      · cases h
      · rename_i hproject
        cases h
        exact ⟨rfl, by simpa using hkey, by simpa using hproject⟩

/-! ## Whole transactions -/

/-- A transaction that came to its end has written the next version of a project that is there, and
these rows only. -/
theorem writeFossil_ok {s s' : Store} {fresh : Fresh} {projectId : Uuid} {p : Payload}
    {promptUsed : String} {version : Int}
    (h : s.writeFossil fresh projectId p promptUsed = .ok (version, s')) :
    s.versionFor (Cell.uuid projectId) = .ok version ∧
      s.hasFossil (Cell.uuid (fresh.id 0)) = false ∧
      s.hasProject (Cell.uuid projectId) = true ∧
      s' = s.withFossil fresh projectId version p promptUsed := by
  unfold writeFossil at h
  cases hversion : s.versionFor (Cell.uuid projectId) with
  | error failure => simp [hversion, Except.mapError, bind, Except.bind] at h
  | ok v =>
      cases hfossil : s.insertFossil (fossilRow fresh projectId v p promptUsed) with
      | error halt => simp [hversion, hfossil, Except.mapError, bind, Except.bind] at h
      | ok t =>
          cases hsymbols : t.insertSymbols (symbolRows fresh projectId 0 p.symbols) with
          | error halt =>
              simp [hversion, hfossil, hsymbols, Except.mapError, bind, Except.bind] at h
          | ok u =>
              simp only [hversion, hfossil, hsymbols, Except.mapError, bind, Except.bind,
                Except.ok.injEq, Prod.mk.injEq] at h
              obtain ⟨rfl, rfl⟩ := h
              obtain ⟨rfl, hkey, hproject⟩ := insertFossil_ok hfossil
              have hu := insertSymbols_ok hsymbols
              exact ⟨rfl, hkey, hproject, by rw [hu]; rfl⟩

/-- A store of a fossil either adds the rows of one of its attempts and gives their receipt, or
fails and leaves the tables as they were. -/
theorem storeFossil_cases (s : Store) (fresh : Fresh) (project : Project) (p : Payload)
    (promptUsed : String) (attempts : Nat) :
    (∃ drawn version,
      s.versionFor (Cell.uuid project.projectId) = .ok version ∧
      s.hasFossil (Cell.uuid ((fresh.after drawn).id 0)) = false ∧
      s.hasProject (Cell.uuid project.projectId) = true ∧
      s.storeFossil fresh project p promptUsed attempts =
        (.ok ⟨(fresh.after drawn).id 0, project.projectId, project.name, version, p.symbols.length⟩,
          s.withFossil (fresh.after drawn) project.projectId version p promptUsed)) ∨
    ∃ failure, s.storeFossil fresh project p promptUsed attempts = (.error failure, s) := by
  induction attempts generalizing fresh with
  | zero => exact .inr ⟨_, rfl⟩
  | succ attempts ih =>
      rw [storeFossil]
      cases hwrite : s.writeFossil fresh project.projectId p promptUsed with
      | ok written =>
          obtain ⟨version, s'⟩ := written
          obtain ⟨hversion, hkey, hproject, rfl⟩ := writeFossil_ok hwrite
          exact .inl ⟨0, version, hversion, hkey, hproject, rfl⟩
      | error halt =>
          cases halt with
          | failed failure => exact .inr ⟨failure, rfl⟩
          | taken =>
              -- the attempt was taken back, so the next one starts from the same tables
              rcases ih (fresh.after (p.symbols.length + 1)) with ⟨drawn, version, h⟩ | h
              · refine .inl ⟨drawn + (p.symbols.length + 1), version, ?_⟩
                simpa [settle, Fresh.after, Nat.add_assoc, Nat.add_comm, Nat.add_left_comm] using h
              · exact .inr h

/-- An ingestion either has read a payload for a project that is there and has added its rows, or
has left the tables as they were and does not say otherwise. -/
theorem ingest_cases (s : Store) (fresh : Fresh) (name raw : String) (promptUsed : Option String) :
    (∃ payload project prompt drawn version,
      Payload.parse raw = .ok payload ∧
      s.findProject name .strict = .ok (some project) ∧
      s.promptFor project promptUsed = .ok prompt ∧
      s.versionFor (Cell.uuid project.projectId) = .ok version ∧
      s.hasFossil (Cell.uuid ((fresh.after drawn).id 0)) = false ∧
      s.hasProject (Cell.uuid project.projectId) = true ∧
      s.ingest fresh name raw promptUsed =
        (.ok (.stored ⟨(fresh.after drawn).id 0, project.projectId, project.name, version,
            payload.symbols.length⟩),
          s.withFossil (fresh.after drawn) project.projectId version payload prompt)) ∨
    ∃ result, (∀ receipt, result ≠ .ok (.stored receipt)) ∧
      s.ingest fresh name raw promptUsed = (result, s) := by
  unfold ingest
  cases hparse : Payload.parse raw with
  | error flaw => exact .inr ⟨_, by simp, rfl⟩
  | ok payload =>
      cases hfind : s.findProject name .strict with
      | error failure => exact .inr ⟨_, by simp, rfl⟩
      | ok found =>
          cases found with
          | none => exact .inr ⟨_, by simp, rfl⟩
          | some project =>
              cases hprompt : s.promptFor project promptUsed with
              | error failure => exact .inr ⟨.error failure, by simp, by simp only [hprompt]⟩
              | ok prompt =>
                  rcases storeFossil_cases s fresh project payload prompt maxAttempts with
                    ⟨drawn, version, hversion, hkey, hproject, hstored⟩ | ⟨failure, hfailed⟩
                  · refine .inl ⟨payload, project, prompt, drawn, version, rfl, rfl, hprompt,
                      hversion, hkey, hproject, ?_⟩
                    simp only [hprompt, hstored]
                  · exact .inr ⟨.error failure, by simp, by simp only [hprompt, hfailed]⟩

/-! ## What a receipt stands for -/

/-- No two projects have the same identifier.  Rows without one do not count. -/
def DistinctProjectIds (s : Store) : Prop :=
  s.projects.Pairwise fun a b => a.projectId ≠ .null → a.projectId ≠ b.projectId

instance (s : Store) : Decidable s.DistinctProjectIds :=
  inferInstanceAs (Decidable (List.Pairwise _ _))

/-- The store has one more fossil, that of the receipt, and as many more symbols as the receipt
says, all of that fossil; the project of the receipt was indexed when the fossil was made, and there
is no other difference. -/
def FossilAdded (s : Store) (receipt : FossilReceipt) (s' : Store) : Prop :=
  ∃ fossil symbols before project after,
    s' = { s with
      fossils := s.fossils ++ [fossil]
      symbols := s.symbols ++ symbols
      projects := before ++ { project with lastIndexed := fossil.createdAt } :: after } ∧
    s.projects = before ++ project :: after ∧
    project.projectId = Cell.uuid receipt.projectId ∧
    fossil.projectId = Cell.uuid receipt.projectId ∧
    fossil.fossilId = Cell.uuid receipt.fossilId ∧
    fossil.version = .integer receipt.version ∧
    symbols.length = receipt.symbolCount ∧
    ∀ r ∈ symbols, r.fossilId = fossil.fossilId ∧ r.projectId = fossil.projectId

/-- A change of the rows of an identifier changes one row only. -/
theorem map_projects_eq_of_distinct {s : Store} (hdistinct : s.DistinctProjectIds) {id : Uuid}
    (hproject : s.hasProject (Cell.uuid id) = true) (change : ProjectRow → ProjectRow) :
    ∃ before project after, s.projects = before ++ project :: after ∧
      project.projectId = Cell.uuid id ∧
      (s.projects.map fun r => if r.projectId = Cell.uuid id then change r else r) =
        before ++ change project :: after := by
  obtain ⟨project, hmem, hid⟩ : ∃ r ∈ s.projects, r.projectId = Cell.uuid id := by
    simpa [hasProject] using hproject
  obtain ⟨before, after, hsplit⟩ := List.append_of_mem hmem
  have hpairs := hdistinct
  rw [DistinctProjectIds, hsplit, List.pairwise_append, List.pairwise_cons] at hpairs
  obtain ⟨-, ⟨hafter, -⟩, hbefore⟩ := hpairs
  -- identifiers may repeat where they are missing, but this one is not missing
  have hnull : project.projectId ≠ .null := by
    rw [hid]
    simp [Cell.uuid]
  have hkeepBefore : ∀ r ∈ before, r.projectId ≠ Cell.uuid id := by
    intro r hr heq
    have hne := hbefore r hr project (by simp)
    rw [heq, ← hid] at hne
    exact hne hnull rfl
  have hkeepAfter : ∀ r ∈ after, r.projectId ≠ Cell.uuid id := by
    intro r hr heq
    have hne := hafter r hr hnull
    rw [heq, ← hid] at hne
    exact hne rfl
  refine ⟨before, project, after, hsplit, hid, ?_⟩
  rw [hsplit, List.map_append, List.map_cons, if_pos hid]
  congr 1
  · rw [List.map_congr_left fun r hr => if_neg (hkeepBefore r hr), List.map_id']
  · rw [List.map_congr_left fun r hr => if_neg (hkeepAfter r hr), List.map_id']

theorem fossilAdded_withFossil {s : Store} (hdistinct : s.DistinctProjectIds) {fresh : Fresh}
    {project : Project} {version : Int} (p : Payload) (promptUsed : String)
    (hproject : s.hasProject (Cell.uuid project.projectId) = true) :
    s.FossilAdded ⟨fresh.id 0, project.projectId, project.name, version, p.symbols.length⟩
      (s.withFossil fresh project.projectId version p promptUsed) := by
  obtain ⟨before, row, after, hsplit, hid, hmap⟩ :=
    map_projects_eq_of_distinct hdistinct hproject
      fun r => { r with lastIndexed := Cell.instant fresh.now }
  refine ⟨fossilRow fresh project.projectId version p promptUsed,
    symbolRows fresh project.projectId 0 p.symbols, before, row, after, ?_, hsplit, hid, rfl, rfl,
    rfl, symbolRows_length fresh project.projectId 0 p.symbols, ?_⟩
  · simp only [withFossil, alterProjects, hmap, fossilRow]
  · intro r hr
    exact fossilId_of_mem_symbolRows fresh project.projectId hr

/-- An ingestion that says that it has stored a fossil has added the rows of its receipt and
nothing else.  Every other ingestion, whatever it met and in whichever attempt, has left all tables
as they were. -/
theorem ingest_all_or_nothing (s : Store) (hdistinct : s.DistinctProjectIds) (fresh : Fresh)
    (name raw : String) (promptUsed : Option String) :
    (∃ receipt, (s.ingest fresh name raw promptUsed).1 = .ok (.stored receipt) ∧
      s.FossilAdded receipt (s.ingest fresh name raw promptUsed).2) ∨
    (∀ receipt, (s.ingest fresh name raw promptUsed).1 ≠ .ok (.stored receipt)) ∧
      (s.ingest fresh name raw promptUsed).2 = s := by
  rcases ingest_cases s fresh name raw promptUsed with
    ⟨payload, project, prompt, drawn, version, -, -, -, -, -, hproject, hstored⟩ |
      ⟨result, hresult, hkept⟩
  · rw [hstored]
    exact .inl ⟨_, rfl, fossilAdded_withFossil hdistinct payload prompt hproject⟩
  · rw [hkept]
    exact .inr ⟨hresult, rfl⟩

/-- Two projects, one of which has a status that no operation writes, and names of symbols that may
not repeat: the statement holds of them, whether or not the second row is refused. -/
theorem ingest_all_or_nothing_unreadable :
    let s : Store := { empty with
      projects :=
        [⟨.text "p1", .text "demo", .text "/d", .text "", .text "sleeping", .text "yesterday"⟩,
          ⟨.text "00000000-0000-0000-0000-000000000007", .text "other", .text "/o", .text "",
            .text "active", .null⟩]
      uniqueSymbolNames := true }
    let fresh : Fresh := ⟨fun k => ⟨BitVec.ofNat 128 k⟩, ⟨2024, 2, 29, 12, 0, 0, 0⟩⟩
    let raw := "\x7b\"symbols\":[\x7b\"name\":\"f\"\x7d,\x7b\"name\":\"f\"\x7d]\x7d"
    s.DistinctProjectIds ∧
      ((∃ receipt, (s.ingest fresh "other" raw none).1 = .ok (.stored receipt) ∧
        s.FossilAdded receipt (s.ingest fresh "other" raw none).2) ∨
      (∀ receipt, (s.ingest fresh "other" raw none).1 ≠ .ok (.stored receipt)) ∧
        (s.ingest fresh "other" raw none).2 = s) :=
  ⟨by decide, ingest_all_or_nothing _ (by decide) _ _ _ _⟩

end FossilRecord.Store
