import FossilRecord.Proofs.Store.Search

/-!
# Related files are one step away

Which files are related to a part of a name is said on the rows alone: the newest rows of every name
that contains the part give the direct files, and the newest rows of every name that those list give
the others.  No row of an older fossil counts when a newer one has the name again, and what the
related rows list is not followed.

`resolve_oneStep` states that resolving gives these files, whatever the rows list, themselves and
one another included.
-/

namespace FossilRecord.Store

/-! ## The relation on rows -/

/-- Whether a row is one of those of a name in the highest version that has a row of that name. -/
structure Current (s : Store) (projectId : Cell) (name : String) (j : JoinedSymbol) : Prop where
  stands : s.Stands projectId j
  named : j.symbol.name = .text name
  newest : ∀ k, s.Stands projectId k → k.symbol.name = .text name →
    k.fossil.version.le j.fossil.version = true

/-- Whether the relationships of a row list a name. -/
def Lists (r : SymbolRow) (name : String) : Prop :=
  name ≠ "" ∧ ∃ text fields key items,
    r.relationships = .text text ∧ Json.parse text = .ok (.object fields) ∧
    key ∈ ["calls", "called_by", "depends_on"] ∧ Json.lookup key fields = some (.list items) ∧
    Json.text name ∈ items

/-- Whether a row is one of the newest of a name that contains a part in any case. -/
def Matching (s : Store) (projectId : Cell) (part : String) (j : JoinedSymbol) : Prop :=
  ∃ name, Text.contains (Text.lower name) (Text.lower part) = true ∧ s.Current projectId name j

/-- Whether a file is that of a matching row. -/
def IsDirect (s : Store) (projectId : Cell) (part file : String) : Prop :=
  ∃ j, s.Matching projectId part j ∧ j.symbol.filePath = .text file

/-- Whether a file is that of one of the newest rows of a name that a matching row lists. -/
def IsReached (s : Store) (projectId : Cell) (part file : String) : Prop :=
  ∃ j, s.Matching projectId part j ∧ ∃ name, Lists j.symbol name ∧
    ∃ k, s.Current projectId name k ∧ k.symbol.filePath = .text file

/-! ## Names that a row lists -/

theorem mem_namesUnder {fields : List (String × Json)} {key name : String} :
    name ∈ Relationships.namesUnder fields key ↔
      name ≠ "" ∧
        ∃ items, Json.lookup key fields = some (.list items) ∧ Json.text name ∈ items := by
  have htext : ∀ items : List Json, name ∈ items.filterMap Json.text? ↔ Json.text name ∈ items := by
    intro items
    rw [List.mem_filterMap]
    constructor
    · rintro ⟨j, hj, hname⟩
      cases j <;> cases hname
      exact hj
    · exact fun h => ⟨_, h, rfl⟩
  rw [Relationships.namesUnder]
  split
  · rename_i items hitems
    obtain ⟨j, hlookup, hj⟩ := Option.bind_eq_some_iff.mp hitems
    -- only a list has items
    cases j <;> cases hj
    rw [List.mem_filter, htext, hlookup]
    simp [and_comm]
  · rename_i hnone
    simp only [List.not_mem_nil, false_iff, not_and, not_exists]
    rintro - items hlookup
    rw [hlookup] at hnone
    cases hnone

/-- The related names of a symbol are those that its row lists. -/
theorem Reads.mem_referencedNames {j : JoinedSymbol} {t : TypedSymbol} {x : Symbol}
    (h : Reads j t x) (name : String) :
    name ∈ x.edges.referencedNames ↔ Lists j.symbol name := by
  rw [Relationships.mem_referencedNames, Lists]
  rcases h.rowRelationships with ⟨hnull, hnone⟩ | ⟨text, fields, htext, hparse, hsome⟩
  · simp [Symbol.edges, hnone, hnull, Relationships.none]
  · have hedges : x.edges = Relationships.ofFields fields := by rw [Symbol.edges, hsome]; rfl
    rw [hedges, Relationships.ofFields]
    simp only [mem_namesUnder, htext]
    constructor
    · rintro (⟨hname, items, hlookup, hmem⟩ | ⟨hname, items, hlookup, hmem⟩ |
        ⟨hname, items, hlookup, hmem⟩)
      all_goals exact ⟨hname, text, fields, _, items, rfl, hparse, by simp, hlookup, hmem⟩
    · rintro ⟨hname, text', fields', key, items, htext', hparse', hkey, hlookup, hmem⟩
      cases htext'
      rw [hparse] at hparse'
      cases hparse'
      simp only [List.mem_cons, List.not_mem_nil, or_false] at hkey
      rcases hkey with rfl | rfl | rfl
      · exact .inl ⟨hname, items, hlookup, hmem⟩
      · exact .inr (.inl ⟨hname, items, hlookup, hmem⟩)
      · exact .inr (.inr ⟨hname, items, hlookup, hmem⟩)

/-! ## The newest rows of a name -/

section

variable {past : List Step} {s : Store} {projectId : Cell}

/-- Of what a search for names finds, the newest symbols of each name are read of its newest
rows. -/
theorem Coherent.mem_mostRecentPerName (h : Coherent past s) {wanted : NameMatch}
    {found : List Symbol} (hnewest : Symbol.NewestFirst found)
    (hmem : ∀ x, x ∈ found ↔ s.Holds projectId x ∧ wanted.accepts x.name) (x : Symbol) :
    x ∈ Symbol.mostRecentPerName found ↔
      wanted.accepts x.name ∧ ∃ j t, s.Current projectId x.name j ∧ Reads j t x := by
  rw [hnewest.mem_mostRecentPerName, hmem]
  constructor
  · rintro ⟨⟨⟨j, t, hstands, hreads⟩, haccepts⟩, hhighest⟩
    refine ⟨haccepts, j, t, ⟨hstands, hreads.rowName, fun k hk hname => ?_⟩, hreads⟩
    obtain ⟨u, y, hy⟩ := h.reads hk
    -- any other row of the name was found too, for what is accepted depends on the name alone
    have hyname : y.name = x.name := by
      have hrow := hy.rowName
      rw [hname] at hrow
      exact (Cell.text.inj hrow).symm
    have hle := hhighest y ((hmem y).mpr ⟨⟨k, u, hk, hy⟩, hyname ▸ haccepts⟩) hyname
    rw [hy.rowVersion, hreads.rowVersion, Cell.le_integer]
    exact decide_eq_true hle
  · rintro ⟨haccepts, j, t, hcurrent, hreads⟩
    refine ⟨⟨⟨j, t, hcurrent.stands, hreads⟩, haccepts⟩, fun y hy hyname => ?_⟩
    obtain ⟨⟨k, u, hk, hu⟩, -⟩ := (hmem y).mp hy
    have hle := hcurrent.newest k hk (hyname ▸ hu.rowName)
    rw [hu.rowVersion, hreads.rowVersion, Cell.le_integer] at hle
    exact of_decide_eq_true hle

/-- A newest row of a name can be read. -/
theorem Coherent.reads_current (h : Coherent past s) {name : String} {j : JoinedSymbol}
    (hj : s.Current projectId name j) : ∃ t x, Reads j t x ∧ x.name = name := by
  obtain ⟨t, x, hx⟩ := h.reads hj.stands
  have hrow := hx.rowName
  rw [hj.named] at hrow
  exact ⟨t, x, hx, (Cell.text.inj hrow).symm⟩

theorem Reads.filePath_eq {j : JoinedSymbol} {t : TypedSymbol} {x : Symbol} (h : Reads j t x)
    (file : String) : x.filePath = file ↔ j.symbol.filePath = .text file := by
  rw [h.rowFile, Cell.text.injEq]

variable {name : String} {project : Project}

/-- The files that a name leads to are those of its newest rows. -/
theorem Coherent.reachedBy_eq (h : Coherent past s)
    (hproject : s.findProject name .strict = .ok (some project))
    (hfossil : s.fossilRows (Cell.uuid project.projectId) ≠ []) (symbol : String) :
    ∃ files, RelatedFiles.reachedBy s name symbol = .ok files ∧
      ∀ file, file ∈ files ↔
        ∃ k, s.Current (Cell.uuid project.projectId) symbol k ∧ k.symbol.filePath = .text file := by
  obtain ⟨found, hfound, hnewest, hmem⟩ :=
    h.findSymbols_allFossils hproject hfossil (.exact symbol)
  refine ⟨RelatedFiles.filesOf found, ?_, fun file => ?_⟩
  · rw [RelatedFiles.reachedBy, hfound]
    rfl
  · rw [RelatedFiles.filesOf, List.mem_map]
    simp only [h.mem_mostRecentPerName hnewest hmem]
    constructor
    · rintro ⟨x, ⟨hname, j, t, hj, ht⟩, hfile⟩
      rw [NameMatch.accepts] at hname
      exact ⟨j, hname ▸ hj, (ht.filePath_eq file).mp hfile⟩
    · rintro ⟨k, hk, hfile⟩
      obtain ⟨t, x, ht, hname⟩ := h.reads_current hk
      exact ⟨x, ⟨hname, k, t, hname.symm ▸ hk, ht⟩, (ht.filePath_eq file).mpr hfile⟩

end

/-! ## One step -/

/-- Whether files are those that are one step away from a part of a name. -/
structure IsOneStep (s : Store) (projectId : Cell) (part : String) (r : RelatedFiles) : Prop where
  direct : ∀ file, file ∈ r.direct ↔ s.IsDirect projectId part file
  related : ∀ file, file ∈ r.related ↔
    s.IsReached projectId part file ∧ ¬s.IsDirect projectId part file
  all : ∀ file, file ∈ r.all ↔ file ∈ r.direct ∨ file ∈ r.related
  disjoint : ∀ file ∈ r.related, file ∉ r.direct
  /-- Every list is in ascending order and has each file once. -/
  ascending : r.direct.Pairwise (· < ·) ∧ r.related.Pairwise (· < ·) ∧ r.all.Pairwise (· < ·)

theorem isOneStep_ofFiles {s : Store} {projectId : Cell} {part : String}
    {direct reached : List String}
    (hdirect : ∀ file, file ∈ direct ↔ s.IsDirect projectId part file)
    (hreached : ∀ file, file ∈ reached ↔ s.IsReached projectId part file) :
    s.IsOneStep projectId part (RelatedFiles.ofFiles direct reached) where
  direct file := by rw [RelatedFiles.ofFiles, Relationships.mem_sortedNames, hdirect]
  related file := by
    rw [RelatedFiles.ofFiles, Relationships.mem_sortedNames, List.mem_filter, hreached]
    simp [hdirect]
  all file := by
    simp only [RelatedFiles.ofFiles, Relationships.mem_sortedNames, List.mem_append,
      List.mem_filter, Bool.not_eq_true', List.contains_eq_mem, decide_eq_false_iff_not]
    by_cases hfile : file ∈ direct <;> simp [hfile]
  disjoint file := by
    simp only [RelatedFiles.ofFiles, Relationships.mem_sortedNames, List.mem_filter,
      Bool.not_eq_true', List.contains_eq_mem, decide_eq_false_iff_not]
    exact And.right
  ascending :=
    ⟨Relationships.sortedNames_pairwise _, Relationships.sortedNames_pairwise _,
      Relationships.sortedNames_pairwise _⟩

/-- Resolving a part of a name for a project with a fossil gives the files that are one step
away. -/
theorem Coherent.resolve_eq {past : List Step} {s : Store} (h : Coherent past s) {name : String}
    {project : Project} (hproject : s.findProject name .strict = .ok (some project))
    (hfossil : s.fossilRows (Cell.uuid project.projectId) ≠ []) (part : String) :
    ∃ r, RelatedFiles.resolve s name part = .ok (.found r) ∧
      s.IsOneStep (Cell.uuid project.projectId) part r := by
  obtain ⟨found, hfound, hnewest, hmem⟩ :=
    h.findSymbols_allFossils hproject hfossil (.contains part)
  have hmatching := h.mem_mostRecentPerName hnewest hmem
  -- the searches for the names that are listed all succeed, so their files can be named
  choose files hfiles hfile using h.reachedBy_eq hproject hfossil
  let matching := Symbol.mostRecentPerName found
  let names := Relationships.sortedNames (matching.flatMap fun m => m.edges.referencedNames)
  have hdirect : ∀ file, file ∈ matching.map Symbol.filePath ↔
      s.IsDirect (Cell.uuid project.projectId) part file := by
    intro file
    simp only [matching, List.mem_map, hmatching]
    constructor
    · rintro ⟨x, ⟨hpart, j, t, hj, ht⟩, hpath⟩
      exact ⟨j, ⟨x.name, hpart, hj⟩, (ht.filePath_eq file).mp hpath⟩
    · rintro ⟨j, ⟨n, hpart, hj⟩, hpath⟩
      obtain ⟨t, x, ht, rfl⟩ := h.reads_current hj
      exact ⟨x, ⟨hpart, j, t, hj, ht⟩, (ht.filePath_eq file).mpr hpath⟩
  have hnames : ∀ n, n ∈ names ↔
      ∃ j, s.Matching (Cell.uuid project.projectId) part j ∧ Lists j.symbol n := by
    intro n
    simp only [names, matching, Relationships.mem_sortedNames, List.mem_flatMap, hmatching]
    constructor
    · rintro ⟨x, ⟨hpart, j, t, hj, ht⟩, hlists⟩
      exact ⟨j, ⟨x.name, hpart, hj⟩, (ht.mem_referencedNames n).mp hlists⟩
    · rintro ⟨j, ⟨m, hpart, hj⟩, hlists⟩
      obtain ⟨t, x, ht, rfl⟩ := h.reads_current hj
      exact ⟨x, ⟨hpart, j, t, hj, ht⟩, (ht.mem_referencedNames n).mpr hlists⟩
  have hreached : ∀ file, file ∈ (names.map files).flatten ↔
      s.IsReached (Cell.uuid project.projectId) part file := by
    intro file
    simp only [List.mem_flatten, List.mem_map, exists_exists_and_eq_and, hfile, hnames]
    constructor
    · rintro ⟨n, ⟨j, hj, hlists⟩, hk⟩
      exact ⟨j, hj, n, hlists, hk⟩
    · rintro ⟨j, hj, n, hlists, hk⟩
      exact ⟨n, ⟨j, hj, hlists⟩, hk⟩
  have hmapM : names.mapM (RelatedFiles.reachedBy s name) = .ok (names.map files) :=
    mapM_eq_ok fun n _ => hfiles n
  refine ⟨_, ?_, isOneStep_ofFiles hdirect hreached⟩
  rw [RelatedFiles.resolve, hfound]
  simp only [bind, Except.bind]
  rw [hmapM]

/-- After every history, resolving a part of a name for a project with a fossil gives the files that
are one step away. -/
theorem resolve_oneStep (uniqueSummaries uniqueSymbolNames : Bool) (steps : List Step)
    (name part : String) (project : Project)
    (hproject : ((blank uniqueSummaries uniqueSymbolNames).run steps).findProject name .strict =
      .ok (some project))
    (hfossil : ((blank uniqueSummaries uniqueSymbolNames).run steps).fossilRows
      (Cell.uuid project.projectId) ≠ []) :
    ∃ r, RelatedFiles.resolve ((blank uniqueSummaries uniqueSymbolNames).run steps) name part =
        .ok (.found r) ∧
      ((blank uniqueSummaries uniqueSymbolNames).run steps).IsOneStep
        (Cell.uuid project.projectId) part r :=
  ((Coherent.blank uniqueSummaries uniqueSymbolNames).run steps).resolve_eq hproject hfossil part

/-- A history with two versions of `f`.  The newer one and `g` call each other; it also lists `k`,
which only the older fossil has, the empty name and a name that no row has. -/
def twoVersions : List Step :=
  let fresh (first : Nat) : Fresh :=
    ⟨fun k => ⟨BitVec.ofNat 128 (first + k)⟩, ⟨2024, 2, 29, 12, 0, 0, 0⟩⟩
  let older := "\x7b\"symbols\":[" ++
    "\x7b\"name\":\"f\",\"file\":\"o\",\"relationships\":\x7b\"calls\":[\"h\"]\x7d\x7d," ++
    "\x7b\"name\":\"h\",\"file\":\"h\"\x7d,\x7b\"name\":\"k\",\"file\":\"k\"\x7d]\x7d"
  let newer := "\x7b\"symbols\":[\x7b\"name\":\"f\",\"file\":\"a\"," ++
    "\"relationships\":\x7b\"calls\":[\"g\",\"k\",\"\",\"x\"]\x7d\x7d," ++
    "\x7b\"name\":\"g\",\"file\":\"b\",\"relationships\":\x7b\"calls\":[\"f\"]\x7d\x7d]\x7d"
  [⟨fresh 1, .register ⟨"demo", "/d", "rust"⟩⟩, ⟨fresh 2, .ingest "demo" older none⟩,
    ⟨fresh 9, .ingest "demo" newer none⟩]

/-- All five rows are stored.  The row of `f` in the older version is not one of the newest of its
name, so that neither its file nor that of `h`, which it lists, is one step away. -/
theorem resolve_oneStep_two_versions :
    let s := (blank false false).run twoVersions
    s.symbols.map (fun r => (r.name, r.filePath)) =
        [(.text "f", .text "o"), (.text "h", .text "h"), (.text "k", .text "k"),
          (.text "f", .text "a"), (.text "g", .text "b")] ∧
      ∃ r, RelatedFiles.resolve s "demo" "F" = .ok (.found r) ∧
        s.IsOneStep (Cell.uuid ⟨1⟩) "F" r := by
  obtain ⟨hrows, hproject, hfossil⟩ :
      (((blank false false).run twoVersions).symbols.map fun r => (r.name, r.filePath)) =
        [(.text "f", .text "o"), (.text "h", .text "h"), (.text "k", .text "k"),
          (.text "f", .text "a"), (.text "g", .text "b")] ∧
      ((blank false false).run twoVersions).findProject "demo" .strict = .ok (some
        ⟨⟨1⟩, "demo", "/d", "rust", .active, some ⟨2024, 2, 29, 12, 0, 0, 0⟩⟩) ∧
      ((blank false false).run twoVersions).fossilRows (Cell.uuid ⟨1⟩) ≠ [] := by
    decide +kernel
  have hone := resolve_oneStep false false twoVersions "demo" "F" _ hproject hfossil
  exact ⟨hrows, hone⟩

end FossilRecord.Store
