import FossilRecord.Proofs.Store.Finding
import FossilRecord.Proofs.Text.ByteOrder
import Mathlib

/-!
# What was ingested is read back

A payload that is ingested for a project that is there becomes its next fossil.  Reading the latest
fossil of the project then gives the payload back, and reading the symbols of that fossil gives all
symbols of the payload in the order of their places in the source.
-/

namespace FossilRecord.Store

/-- The identifiers that an ingestion with a number of symbols draws are those of no row, and no two
symbols draw the same one. -/
structure Unused (fresh : Fresh) (s : Store) (count : Nat) : Prop where
  fossil : ∀ f ∈ s.fossils, f.fossilId ≠ Cell.uuid (fresh.id 0)
  symbols : ∀ k < count, ∀ r ∈ s.symbols, r.symbolId ≠ Cell.uuid (fresh.id (k + 1))
  distinct : ∀ j < count, ∀ k < count, fresh.id (j + 1) = fresh.id (k + 1) → j = k

theorem Unused.hasFossil {fresh : Fresh} {s : Store} {count : Nat} (h : Unused fresh s count) :
    s.hasFossil (Cell.uuid (fresh.id 0)) = false := by
  rw [Store.hasFossil, List.any_eq_false]
  intro f hf heq
  exact h.fossil f hf (of_decide_eq_true heq)

/-! ## Rows that are not refused -/

theorem insertFossil_eq {s : Store} {row : FossilRow} (hclash : s.clashes row = false)
    (hkey : s.hasFossil row.fossilId = false) (hproject : s.hasProject row.projectId = true) :
    s.insertFossil row = .ok { s with fossils := s.fossils ++ [row] } := by
  simp [insertFossil, hclash, hkey, hproject]

theorem insertSymbol_eq {s : Store} {row : SymbolRow} (hnames : s.uniqueSymbolNames = false)
    (hkey : ∀ r ∈ s.symbols, r.symbolId ≠ row.symbolId)
    (hfossil : s.hasFossil row.fossilId = true) (hproject : s.hasProject row.projectId = true) :
    s.insertSymbol row = .ok { s with symbols := s.symbols ++ [row] } := by
  have hany : (s.symbols.any fun r => r.symbolId = row.symbolId) = false := by
    simpa using hkey
  simp [insertSymbol, hnames, hany, hfossil, hproject]

/-- Symbols with identifiers of their own, of a fossil and a project that are there, are all
added. -/
theorem insertSymbols_eq {rows : List SymbolRow} {s : Store} (hnames : s.uniqueSymbolNames = false)
    (hkeys : ∀ row ∈ rows, ∀ r ∈ s.symbols, r.symbolId ≠ row.symbolId)
    (hdistinct : (rows.map SymbolRow.symbolId).Nodup)
    (hrefers : ∀ row ∈ rows, s.hasFossil row.fossilId = true ∧ s.hasProject row.projectId = true) :
    s.insertSymbols rows = .ok { s with symbols := s.symbols ++ rows } := by
  induction rows generalizing s with
  | nil => simp [insertSymbols]
  | cons row rest ih =>
      obtain ⟨hfossil, hproject⟩ := hrefers row (by simp)
      rw [List.map_cons, List.nodup_cons] at hdistinct
      -- the rows that are still to come clash neither with the old ones nor with this one
      have hrest : ∀ other ∈ rest, ∀ r ∈ s.symbols ++ [row], r.symbolId ≠ other.symbolId := by
        intro other hother r hr
        rcases List.mem_append.mp hr with hr | hr
        · exact hkeys other (by simp [hother]) r hr
        · rw [List.mem_singleton] at hr
          rw [hr]
          intro heq
          exact hdistinct.1 (heq ▸ List.mem_map_of_mem hother)
      have hadd := ih (s := { s with symbols := s.symbols ++ [row] }) hnames hrest hdistinct.2
        fun other hother => hrefers other (by simp [hother])
      rw [insertSymbols, insertSymbol_eq hnames (hkeys row (by simp)) hfossil hproject]
      simpa [bind, Except.bind] using hadd

/-- Versions that count up are all below the next one. -/
theorem CountsUp.version_ne {rows : List FossilRow} (h : CountsUp rows) :
    ∀ f ∈ rows, f.version ≠ .integer (rows.length + 1) := by
  intro f hf heq
  have hmem : f.version ∈ versionsTo rows.length := h ▸ List.mem_map_of_mem hf
  obtain ⟨k, hk, hversion⟩ := List.mem_map.mp hmem
  rw [List.mem_range] at hk
  rw [heq, Cell.integer.injEq] at hversion
  omega

theorem clashes_eq_false {s : Store} {row : FossilRow} (hsummaries : s.uniqueSummaries = false)
    (hversion : ∀ f ∈ s.fossilRows row.projectId, f.version ≠ row.version) :
    s.clashes row = false := by
  rw [clashes, List.any_eq_false]
  intro f hf
  simp only [hsummaries, Bool.false_and, Bool.or_false, Bool.and_eq_true, decide_eq_true_eq,
    not_and]
  intro hproject
  exact hversion f (List.mem_filter.mpr ⟨hf, decide_eq_true hproject⟩)

theorem nodup_symbolRows {fresh : Fresh} (projectId : Uuid) {count : Nat}
    (hdistinct : ∀ j < count, ∀ k < count, fresh.id (j + 1) = fresh.id (k + 1) → j = k)
    {place : Nat} {symbols : List PayloadSymbol} (hcount : place + symbols.length ≤ count) :
    ((symbolRows fresh projectId place symbols).map SymbolRow.symbolId).Nodup := by
  induction symbols generalizing place with
  | nil => simp [symbolRows]
  | cons p rest ih =>
      rw [List.length_cons] at hcount
      rw [symbolRows, List.map_cons, List.nodup_cons]
      refine ⟨fun hmem => ?_, ih (by omega)⟩
      obtain ⟨r, hr, hid⟩ := List.mem_map.mp hmem
      obtain ⟨k, hlow, hhigh, q, -, rfl⟩ := mem_symbolRows fresh projectId hr
      have huuid : fresh.id (k + 1) = fresh.id (place + 1) :=
        Uuid.toString_injective (Cell.text.inj hid)
      have hk := hdistinct k (by omega) place (by omega) huuid
      omega

/-! ## An ingestion that succeeds -/

section

variable {past : List Step} {s : Store} {fresh : Fresh} {projectId : Uuid} {p : Payload}

/-- In tables that hang together and have no further constraints, a fossil with unused identifiers
is stored by the first transaction. -/
theorem writeFossil_eq (h : Coherent past s) (hsummaries : s.uniqueSummaries = false)
    (hnames : s.uniqueSymbolNames = false) (hproject : s.hasProject (Cell.uuid projectId) = true)
    (hroom : ((s.fossilRows (Cell.uuid projectId)).length : Int) < Json.maxInt64)
    (hfresh : Unused fresh s p.symbols.length) (promptUsed : String) :
    s.writeFossil fresh projectId p promptUsed =
      .ok ((s.fossilRows (Cell.uuid projectId)).length + 1,
        s.withFossil fresh projectId ((s.fossilRows (Cell.uuid projectId)).length + 1) p
          promptUsed) := by
  have hversions := h.versions (Cell.uuid projectId)
  let row :=
    fossilRow fresh projectId ((s.fossilRows (Cell.uuid projectId)).length + 1) p promptUsed
  have hfossil : s.insertFossil row = .ok { s with fossils := s.fossils ++ [row] } :=
    insertFossil_eq (clashes_eq_false hsummaries hversions.version_ne) hfresh.hasFossil hproject
  -- the symbols are added when their fossil is already there
  have hsymbols : ({ s with fossils := s.fossils ++ [row] } : Store).insertSymbols
      (symbolRows fresh projectId 0 p.symbols) =
        .ok { s with
          fossils := s.fossils ++ [row]
          symbols := s.symbols ++ symbolRows fresh projectId 0 p.symbols } := by
    refine insertSymbols_eq hnames ?_ (nodup_symbolRows projectId hfresh.distinct (by simp)) ?_
    · intro r hr
      obtain ⟨k, -, hk, q, -, rfl⟩ := mem_symbolRows fresh projectId hr
      exact hfresh.symbols k (by simpa using hk)
    · intro r hr
      obtain ⟨hid, howner⟩ := fossilId_of_mem_symbolRows fresh projectId hr
      rw [hid, howner]
      refine ⟨?_, hproject⟩
      simp [hasFossil, row, fossilRow]
  rw [writeFossil, versionFor_of_lt hversions hroom]
  simp only [Except.mapError, bind, Except.bind]
  rw [hfossil]
  simp only [hsymbols]
  rfl

theorem Legible.hasProject_of_findProject (h : s.Legible) {name : String} {mode : ProjectLookup}
    {project : Project} (hfound : s.findProject name mode = .ok (some project)) :
    s.hasProject (Cell.uuid project.projectId) = true := by
  obtain ⟨-, hrow, -⟩ := h.row_of_findProject hfound
  rw [hasProject, List.any_eq_true]
  exact ⟨projectRow project, mem_of_projectRow? hrow, by simp [projectRow]⟩

/-- The newest prompt among some can be read. -/
theorem Legible.decode_newestPrompt? (h : s.Legible) {c : Cell} {row : PromptRow}
    (hrow : s.newestPrompt? c = some row) : ∃ p, row.decode = .ok p := by
  have hmem := List.mem_of_head? hrow
  rw [newestFirst, List.mem_mergeSort, List.mem_reverse] at hmem
  obtain ⟨p, rfl, hp⟩ := h.prompts row (List.mem_of_mem_filter hmem)
  exact ⟨p, decode_promptRow hp⟩

theorem Legible.latestPrompt_total (h : s.Legible) (projectId : Option Uuid) :
    ∃ found, s.latestPrompt projectId = .ok found := by
  rw [latestPrompt]
  split
  · rename_i row hrow
    have hdecode : ∃ p, row.decode = .ok p := by
      rcases orElse_eq_some hrow with hown | hglobal
      · obtain ⟨id, -, hown⟩ := Option.bind_eq_some_iff.mp hown
        exact h.decode_newestPrompt? hown
      · exact h.decode_newestPrompt? hglobal
    obtain ⟨p, hp⟩ := hdecode
    exact ⟨some p, by rw [hp]; rfl⟩
  · exact ⟨none, rfl⟩

/-- The prompt of a project can be read. -/
theorem Legible.promptFor (h : s.Legible) (project : Project) (promptUsed : Option String) :
    ∃ prompt, s.promptFor project promptUsed = .ok prompt := by
  cases promptUsed with
  | some prompt => exact ⟨prompt, rfl⟩
  | none =>
      obtain ⟨found, hfound⟩ := h.latestPrompt_total (some project.projectId)
      rw [Store.promptFor, hfound]
      exact ⟨_, rfl⟩

/-- A payload for a project that is there becomes its next fossil, under the prompt in force. -/
theorem ingest_of_prompt (h : Coherent past s) (hlegible : s.Legible)
    (hsummaries : s.uniqueSummaries = false) (hnames : s.uniqueSymbolNames = false)
    {name raw : String} {project : Project}
    (hfound : s.findProject name .strict = .ok (some project))
    (hparse : Payload.parse raw = .ok p)
    (hroom : ((s.fossilRows (Cell.uuid project.projectId)).length : Int) < Json.maxInt64)
    (hfresh : Unused fresh s p.symbols.length) {promptUsed : Option String} {prompt : String}
    (hprompt : s.promptFor project promptUsed = .ok prompt) :
    s.ingest fresh name raw promptUsed =
      (.ok (.stored ⟨fresh.id 0, project.projectId, project.name,
          (s.fossilRows (Cell.uuid project.projectId)).length + 1, p.symbols.length⟩),
        s.withFossil fresh project.projectId
          ((s.fossilRows (Cell.uuid project.projectId)).length + 1) p prompt) := by
  have hproject := hlegible.hasProject_of_findProject hfound
  have hwrite := writeFossil_eq h hsummaries hnames hproject hroom hfresh prompt
  unfold ingest
  simp only [hparse, hfound, hprompt, maxAttempts, storeFossil, hwrite, settle]

/-- A payload for a project that is there becomes its next fossil. -/
theorem ingest_eq (h : Coherent past s) (hlegible : s.Legible)
    (hsummaries : s.uniqueSummaries = false) (hnames : s.uniqueSymbolNames = false)
    {name raw : String} {project : Project}
    (hfound : s.findProject name .strict = .ok (some project))
    (hparse : Payload.parse raw = .ok p)
    (hroom : ((s.fossilRows (Cell.uuid project.projectId)).length : Int) < Json.maxInt64)
    (hfresh : Unused fresh s p.symbols.length) (promptUsed : Option String) :
    ∃ prompt, s.ingest fresh name raw promptUsed =
      (.ok (.stored ⟨fresh.id 0, project.projectId, project.name,
          (s.fossilRows (Cell.uuid project.projectId)).length + 1, p.symbols.length⟩),
        s.withFossil fresh project.projectId
          ((s.fossilRows (Cell.uuid project.projectId)).length + 1) p prompt) := by
  obtain ⟨prompt, hprompt⟩ := hlegible.promptFor project promptUsed
  exact ⟨prompt,
    ingest_of_prompt h hlegible hsummaries hnames hfound hparse hroom hfresh hprompt⟩

end

/-! ## Reading the latest fossil -/

section

variable {s : Store} {fresh : Fresh} {project : Project} {version : Int} {p : Payload}
  {promptUsed : String}

/-- A name that led to a project leads to it still when the project has another fossil. -/
theorem Legible.findProject_withFossil (h : s.Legible) {name : String}
    (hfound : s.findProject name .strict = .ok (some project)) (hnow : fresh.now.IsValid) :
    (s.withFossil fresh project.projectId version p promptUsed).findProject name .strict =
      .ok (some { project with lastIndexed := some fresh.now }) := by
  obtain ⟨hname, hrow, -⟩ := h.row_of_findProject hfound
  let change (r : ProjectRow) : ProjectRow :=
    if r.projectId = Cell.uuid project.projectId then
      { r with lastIndexed := Cell.instant fresh.now } else r
  have hkeepsName : ∀ r, (change r).name = r.name := by
    intro r
    simp only [change]
    split <;> rfl
  have hkeepsStatus : ∀ r, (change r).status = r.status := by
    intro r
    simp only [change]
    split <;> rfl
  -- a name is looked up by names and statuses, and this changes neither
  have hrow' := projectRow?_map (s := s) hkeepsName hkeepsStatus (Text.trim name) .strict
  have hself : change (projectRow project) =
      projectRow { project with lastIndexed := some fresh.now } := if_pos rfl
  rw [hrow, Option.map_some, hself] at hrow'
  refine findProject_of_row hname hrow' fun t ht => ?_
  cases ht
  exact hnow

/-- The fossil that was added is the latest one. -/
theorem Legible.latestFossil_withFossil (h : s.Legible)
    (hversions : CountsUp (s.fossilRows (Cell.uuid project.projectId)))
    {name : String} (hfound : s.findProject name .strict = .ok (some project))
    (hnow : fresh.now.IsValid) (hfiles : ∀ e ∈ p.fileTree, e.IsCounted)
    (hversion : version = (s.fossilRows (Cell.uuid project.projectId)).length + 1) :
    (s.withFossil fresh project.projectId version p promptUsed).latestFossil name =
      .ok (.found (storedFossil fresh project.projectId version p promptUsed)) := by
  have hrows := fossilRows_withFossil s fresh project.projectId version p promptUsed
    (Cell.uuid project.projectId)
  rw [if_pos rfl] at hrows
  have hnext : (fossilRow fresh project.projectId version p promptUsed).version =
      .integer ((s.fossilRows (Cell.uuid project.projectId)).length + 1) := by
    rw [hversion]
    rfl
  have hcounts := hversions.snoc hnext
  have hnewest := fossilsOf_eq_reverse (hrows ▸ hcounts)
  rw [hrows, List.reverse_append, List.reverse_singleton, List.singleton_append] at hnewest
  rw [latestFossil, withProject, h.findProject_withFossil hfound hnow]
  simp only [bind, Except.bind]
  rw [hnewest]
  simp only [decode_fossilRow hnow project.projectId version hfiles, Except.map]

end

/-! ## Reading the symbols -/

/-- Whether a line number comes before another; a missing one comes before all others. -/
def LineBefore : Option Int → Option Int → Prop
  | _, none => False
  | none, some _ => True
  | some m, some n => m < n

/-- Whether a symbol at a place of a payload precedes another one: by the octets of its file, then
by its line, then by its place. -/
def Precedes (a b : PayloadSymbol × Nat) : Prop :=
  Text.octets a.1.filePath < Text.octets b.1.filePath ∨
    a.1.filePath = b.1.filePath ∧
      (LineBefore a.1.lineNumber b.1.lineNumber ∨
        a.1.lineNumber = b.1.lineNumber ∧ a.2 < b.2)

/-- The values by which symbols are put in order. -/
def fileKey (a : PayloadSymbol × Nat) : List Cell :=
  [.text a.1.filePath, .optInteger a.1.lineNumber, .integer a.2]

/-- The symbols of a payload with their places, in the order in which they are read. -/
def inOrder (symbols : List PayloadSymbol) : List (PayloadSymbol × Nat) :=
  orderBy fileKey symbols.zipIdx

theorem lineBefore_or_eq {m n : Option Int}
    (h : (Cell.optInteger m).le (.optInteger n) = true) : LineBefore m n ∨ m = n := by
  cases m <;> cases n
  case some.some m n =>
    rw [Cell.optInteger, Cell.optInteger, Cell.le_integer, decide_eq_true_eq] at h
    rcases lt_or_eq_of_le h with hlt | heq
    · exact .inl hlt
    · exact .inr (congrArg some heq)
  all_goals simp_all [Cell.optInteger, Cell.le, LineBefore]

theorem precedes_of_fileKey {a b : PayloadSymbol × Nat}
    (h : Cell.listLe (fileKey a) (fileKey b) = true) (hplace : a.2 ≠ b.2) : Precedes a b := by
  rw [fileKey, fileKey, Cell.listLe_cons] at h
  obtain ⟨hpath, h⟩ := h
  have hpath : a.1.filePath ≤ b.1.filePath := by simpa only [Cell.le, decide_eq_true_eq] using hpath
  -- each key decides only where those before it are equal
  rcases lt_or_eq_of_le hpath with hlt | hpaths
  · exact .inl (Text.octets_lt_octets.mpr hlt)
  · have hback : (Cell.text b.1.filePath).le (.text a.1.filePath) = true := by
      rw [Cell.le, decide_eq_true_eq, hpaths]
    have h := h hback
    rw [Cell.listLe_cons] at h
    refine .inr ⟨hpaths, ?_⟩
    rcases lineBefore_or_eq h.1 with hline | hlines
    · exact .inl hline
    · rw [hlines] at h
      have h := h.2 h.1
      rw [Cell.listLe_cons, Cell.le_integer, decide_eq_true_eq] at h
      exact .inr ⟨hlines, by omega⟩

theorem inOrder_perm (symbols : List PayloadSymbol) : (inOrder symbols).Perm symbols.zipIdx :=
  orderBy_perm fileKey symbols.zipIdx

theorem mem_of_mem_inOrder {symbols : List PayloadSymbol} {a : PayloadSymbol × Nat}
    (ha : a ∈ inOrder symbols) : a.1 ∈ symbols := by
  have hzip := List.mem_map_of_mem (f := Prod.fst) ((inOrder_perm symbols).subset ha)
  rwa [List.zipIdx_map_fst] at hzip

theorem inOrder_pairwise (symbols : List PayloadSymbol) : (inOrder symbols).Pairwise Precedes := by
  -- no two symbols have the same place, so the order is strict
  have hplaces : (inOrder symbols).Pairwise fun a b => a.2 ≠ b.2 := by
    have hmap : ((inOrder symbols).map Prod.snd).Nodup := by
      rw [((inOrder_perm symbols).map Prod.snd).nodup_iff, List.zipIdx_map_snd]
      exact List.nodup_range'
    exact List.pairwise_map.mp hmap
  exact (orderBy_pairwise fileKey symbols.zipIdx).imp₂ (fun _ _ => precedes_of_fileKey) hplaces

section

variable (fresh : Fresh) (projectId : Uuid)

theorem symbolRows_eq_map (place : Nat) (symbols : List PayloadSymbol) :
    symbolRows fresh projectId place symbols =
      (symbols.zipIdx place).map fun a => symbolRow fresh projectId a.2 a.1 := by
  induction symbols generalizing place with
  | nil => rfl
  | cons p rest ih => rw [symbolRows, ih, List.zipIdx_cons, List.map_cons]

variable {s : Store} {fresh projectId} {version : Int} {p : Payload} {promptUsed : String}

theorem joined_withFossil (hfossils : ∀ f ∈ s.fossils, f.fossilId ≠ Cell.uuid (fresh.id 0))
    (hsymbols : ∀ r ∈ s.symbols, r.fossilId ≠ Cell.uuid (fresh.id 0)) :
    (s.withFossil fresh projectId version p promptUsed).joined
        (·.fossilId = Cell.uuid (fresh.id 0)) =
      p.symbols.zipIdx.map fun a =>
        ⟨symbolRow fresh projectId a.2 a.1, fossilRow fresh projectId version p promptUsed⟩ := by
  have hrows : (s.withFossil fresh projectId version p promptUsed).symbols.filter
      (fun r => r.fossilId = Cell.uuid (fresh.id 0)) = symbolRows fresh projectId 0 p.symbols :=
    symbolsOf_withFossil_self hsymbols
  have hfossil : (s.withFossil fresh projectId version p promptUsed).fossils.filter
      (fun f => f.fossilId = Cell.uuid (fresh.id 0)) =
        [fossilRow fresh projectId version p promptUsed] := by
    -- the identifier was unused, so the join has one fossil for each symbol
    have hold : s.fossils.filter (fun f => f.fossilId = Cell.uuid (fresh.id 0)) = [] := by
      rw [List.filter_eq_nil_iff]
      intro f hf
      simpa using hfossils f hf
    rw [withFossil_fossils, List.filter_append, hold, List.nil_append]
    simp [fossilRow]
  rw [joined, hrows, symbolRows_eq_map, List.flatMap_map]
  have hone : ∀ a : PayloadSymbol × Nat, (symbolRow fresh projectId a.2 a.1).fossilId =
      Cell.uuid (fresh.id 0) := fun a => rfl
  simp only [hone, hfossil, List.map_cons, List.map_nil]
  exact List.map_eq_flatMap.symm

/-- The symbols of the fossil that was added are those of its payload, in order. -/
theorem symbolsForFossil_withFossil
    (hfossils : ∀ f ∈ s.fossils, f.fossilId ≠ Cell.uuid (fresh.id 0))
    (hsymbols : ∀ r ∈ s.symbols, r.fossilId ≠ Cell.uuid (fresh.id 0))
    (hsound : ∀ q ∈ p.symbols, q.IsSound) :
    (s.withFossil fresh projectId version p promptUsed).symbolsForFossil (fresh.id 0) =
      .ok (some ((inOrder p.symbols).map fun a =>
        storedSymbol fresh projectId version a.2 a.1)) := by
  let join (a : PayloadSymbol × Nat) : JoinedSymbol :=
    ⟨symbolRow fresh projectId a.2 a.1, fossilRow fresh projectId version p promptUsed⟩
  have hthere : (s.withFossil fresh projectId version p promptUsed).fossils.any
      (·.fossilId = Cell.uuid (fresh.id 0)) = true := by
    rw [withFossil_fossils, List.any_append]
    simp [fossilRow]
  have hrows : orderBy inFileOrder
      ((s.withFossil fresh projectId version p promptUsed).joined
        (·.fossilId = Cell.uuid (fresh.id 0))) = (inOrder p.symbols).map join := by
    rw [joined_withFossil hfossils hsymbols]
    exact orderBy_map (fun a => rfl) p.symbols.zipIdx
  have htyped : ((inOrder p.symbols).map join).mapM JoinedSymbol.typed =
      .ok ((inOrder p.symbols).map fun a => typedSymbol fresh projectId version a.2 a.1) := by
    rw [List.mapM_map]
    exact mapM_eq_ok fun a _ => typed_symbolRow fresh projectId a.2 a.1 rfl
  have hdecoded : ((inOrder p.symbols).map fun a =>
      typedSymbol fresh projectId version a.2 a.1).mapM TypedSymbol.decode =
        .ok ((inOrder p.symbols).map fun a => storedSymbol fresh projectId version a.2 a.1) := by
    rw [List.mapM_map]
    refine mapM_eq_ok fun a ha => ?_
    exact decode_typedSymbol fresh projectId version a.2 (hsound a.1 (mem_of_mem_inOrder ha))
  rw [symbolsForFossil, if_pos hthere, hrows]
  simp only [htyped, bind, Except.bind]
  rw [hdecoded]

end

/-! ## What is given back -/

/-- Whether a number is the highest version of some fossils, or zero if there are none. -/
def IsHighestVersion (rows : List FossilRow) (n : Int) : Prop :=
  (rows = [] ∧ n = 0) ∨
    (∃ f ∈ rows, f.version = .integer n) ∧ ∀ f ∈ rows, f.version.le (.integer n) = true

theorem CountsUp.isHighestVersion {rows : List FossilRow} (h : CountsUp rows) :
    IsHighestVersion rows rows.length := by
  by_cases hrows : rows = []
  · exact .inl ⟨hrows, by simp [hrows]⟩
  · refine .inr ⟨⟨_, List.getLast_mem hrows, h.version_getLast hrows⟩, fun f hf => ?_⟩
    have hmem : f.version ∈ versionsTo rows.length := h ▸ List.mem_map_of_mem hf
    obtain ⟨k, hk, hversion⟩ := List.mem_map.mp hmem
    rw [List.mem_range] at hk
    rw [← hversion, Cell.le_integer, decide_eq_true_eq]
    omega

/-- Whether relationships that are read are those that were received: as they were, or the object
that a text of them holds. -/
def ReceivedAs (received read : Option Json) : Prop :=
  match received with
  | none => read = none
  | some (.text s) => ∃ fields, Json.parse s = .ok (.object fields) ∧ read = some (.object fields)
  | some j => read = some j

/-- Whether a symbol that is read is one of a payload. -/
structure ReadsAs (p : PayloadSymbol) (x : Symbol) : Prop where
  filePath : x.filePath = p.filePath
  lineNumber : x.lineNumber = p.lineNumber
  kind : x.kind = p.kind
  name : x.name = p.name
  signature : x.signature = p.signature
  description : x.description = p.description
  relationships : ReceivedAs p.relationships x.relationships

theorem receivedAs_keptRelationships {received : Option Json}
    (hkept : ∀ j ∈ received, Relationships.IsKept j) (hwhole : ∀ j ∈ received, j.isWhole = true) :
    ReceivedAs received (received.map keptRelationships) := by
  cases received with
  | none => rfl
  | some j =>
      have hj := hwhole j rfl
      cases hkept j rfl with
      | object hfits => exact congrArg some (Json.readBack_of_isWhole _ hj)
      | text hparse =>
          refine ⟨_, hparse, ?_⟩
          simp only [Option.map_some, keptRelationships, hparse]

/-- Whether reading the latest fossil of a project and its symbols gives a payload back. -/
structure GivesBack (s : Store) (name : String) (receipt : FossilReceipt) (p : Payload) : Prop where
  fossil : ∃ f, s.latestFossil name = .ok (.found f) ∧ f.fossilId = receipt.fossilId ∧
    f.projectId = receipt.projectId ∧ f.version = receipt.version ∧ f.summary = p.summary ∧
    f.architecture = p.architecture ∧ f.recentChanges = p.recentChanges ∧
    f.knownIssues = p.knownIssues ∧ f.dependencies = p.dependencies ∧ f.fileTree = p.fileTree
  /-- Every symbol of the payload is read once, in the order of files, lines and places. -/
  symbols : ∃ order found, order.Perm p.symbols.zipIdx ∧ order.Pairwise Precedes ∧
    s.symbolsForFossil receipt.fossilId = .ok (some found) ∧
    List.Forall₂ (fun a x => ReadsAs a.1 x) order found

/-- A payload that is ingested for a project that is there, after any history, is stored as the next
version of the project and can be read back: its fields from the latest fossil, and its symbols in
order. -/
theorem ingest_read_back (steps : List Step) (hclock : ∀ step ∈ steps, step.fresh.now.IsValid)
    (fresh : Fresh) (hnow : fresh.now.IsValid) (name raw : String) (promptUsed : Option String)
    (project : Project) (payload : Payload)
    (hfound : (empty.run steps).findProject name .strict = .ok (some project))
    (hparse : Payload.parse raw = .ok payload)
    (hwhole : ∀ p ∈ payload.symbols, ∀ j ∈ p.relationships, j.isWhole = true)
    (hfresh : Unused fresh (empty.run steps) payload.symbols.length)
    (hroom : (((empty.run steps).fossilRows (Cell.uuid project.projectId)).length : Int) <
      Json.maxInt64) :
    ∃ receipt highest,
      ((empty.run steps).ingest fresh name raw promptUsed).1 = .ok (.stored receipt) ∧
      receipt.projectId = project.projectId ∧
      IsHighestVersion ((empty.run steps).fossilRows (Cell.uuid project.projectId)) highest ∧
      receipt.version = 1 + highest ∧ receipt.symbolCount = payload.symbols.length ∧
      ((empty.run steps).ingest fresh name raw promptUsed).2.GivesBack name receipt payload := by
  have hblank : Coherent [] empty := Coherent.blank false false
  have hcoherent := hblank.run steps
  have hlegible := (Legible.blank false false).run hblank hclock
  obtain ⟨hsummaries, hnames⟩ := hblank.run_constraints steps
  obtain ⟨hfiles, hsound⟩ := Payload.sound_of_parse hparse
  have hversions := hcoherent.versions (Cell.uuid project.projectId)
  obtain ⟨prompt, hingest⟩ :=
    ingest_eq hcoherent hlegible hsummaries hnames hfound hparse hroom hfresh promptUsed
  rw [hingest]
  refine ⟨_, _, rfl, rfl, hversions.isHighestVersion, Int.add_comm _ 1, rfl, ?_, ?_⟩
  · exact ⟨_, hlegible.latestFossil_withFossil hversions hfound hnow hfiles rfl, rfl, rfl, rfl,
      rfl, rfl, rfl, rfl, rfl, rfl⟩
  · refine ⟨_, _, inOrder_perm payload.symbols, inOrder_pairwise payload.symbols,
      symbolsForFossil_withFossil hfresh.fossil (hcoherent.symbol_fossilId_ne ?_) hsound, ?_⟩
    · exact hfresh.hasFossil
    · rw [List.forall₂_map_right_iff, List.forall₂_same]
      intro a ha
      have hmem := mem_of_mem_inOrder ha
      exact ⟨rfl, rfl, rfl, rfl, rfl, rfl,
        receivedAs_keptRelationships (hsound a.1 hmem).relationships (hwhole a.1 hmem)⟩

/-- A project is registered and two symbols of one file are ingested for it, of which the second one
has no line and so comes first. -/
theorem ingest_read_back_two_symbols :
    let fresh (first : Nat) : Fresh :=
      ⟨fun k => ⟨BitVec.ofNat 128 (first + k)⟩, ⟨2024, 2, 29, 12, 0, 0, 0⟩⟩
    let s : Store := empty.run [⟨fresh 1, .register ⟨"demo", "/d", "rust"⟩⟩]
    let raw := "\x7b\"symbols\":[\x7b\"name\":\"b\",\"line\":1,\"relationships\":\x7b\x7d\x7d," ++
      "\x7b\"name\":\"a\"\x7d]\x7d"
    let payload : Payload :=
      { summary := "", architecture := "", recentChanges := "", knownIssues := ""
        dependencies := [], fileTree := []
        symbols :=
          [⟨"", some 1, .function, "b", none, none, some (.object [])⟩,
            ⟨"", none, .function, "a", none, none, none⟩] }
    ∃ receipt highest,
      (s.ingest (fresh 2) "demo" raw none).1 = .ok (.stored receipt) ∧
      receipt.projectId = (fresh 1).id 0 ∧
      IsHighestVersion (s.fossilRows (Cell.uuid ((fresh 1).id 0))) highest ∧
      receipt.version = 1 + highest ∧ receipt.symbolCount = 2 ∧
      (s.ingest (fresh 2) "demo" raw none).2.GivesBack "demo" receipt payload :=
  ingest_read_back
    [⟨⟨fun k => ⟨BitVec.ofNat 128 (1 + k)⟩, ⟨2024, 2, 29, 12, 0, 0, 0⟩⟩,
      .register ⟨"demo", "/d", "rust"⟩⟩]
    (by
      intro step hstep
      rw [List.mem_singleton.mp hstep]
      decide)
    ⟨fun k => ⟨BitVec.ofNat 128 (2 + k)⟩, ⟨2024, 2, 29, 12, 0, 0, 0⟩⟩ (by decide)
    "demo" _ none ⟨⟨BitVec.ofNat 128 1⟩, "demo", "/d", "rust", .active, none⟩
    ⟨"", "", "", "", [], [],
      [⟨"", some 1, .function, "b", none, none, some (.object [])⟩,
        ⟨"", none, .function, "a", none, none, none⟩]⟩
    (by decide +kernel) (by unfold Payload.parse; cbv) (by decide)
    ⟨by decide, by decide, by decide⟩ (by decide)

end FossilRecord.Store
