import FossilRecord.Proofs.Store.Reading

/-!
# Searches and listings

A search joins the symbols with their fossils, keeps the rows of one project, and puts them in order;
the listing of a fossil does the same with the rows of one fossil.  All of them are parts of one list,
`orderedRows`, in which every symbol of the store stands once.  A search of the latest fossil is
therefore its listing without the names that do not match, and a search of all fossils is one such
listing after the other, from the newest fossil to the oldest.

`findSymbols_listings` states it for what is read.
-/

namespace FossilRecord

/-! ## What a search looks for -/

namespace NameMatch

/-- What of a name can be decided on a row. -/
def looksAt : NameMatch → Store.SymbolRow → Bool
  | .contains _, _ => true
  | .exact name, r => r.name = .text name

/-- What of a name is decided on the texts of a row. -/
def tests : NameMatch → Store.TypedSymbol → Bool
  | .contains part, t => Text.contains (Text.lower t.name) (Text.lower part)
  | .exact _, _ => true

instance : (wanted : NameMatch) → (name : String) → Decidable (wanted.accepts name)
  | .contains _, _ => inferInstanceAs (Decidable (_ = true))
  | .exact _, _ => inferInstanceAs (Decidable (_ = _))

end NameMatch

namespace Store

theorem Reads.accepts_iff {j : JoinedSymbol} {t : TypedSymbol} {x : Symbol} (h : Reads j t x)
    (wanted : NameMatch) :
    wanted.looksAt j.symbol = true ∧ wanted.tests t = true ↔ wanted.accepts x.name := by
  cases wanted with
  | contains part => simp [NameMatch.looksAt, NameMatch.tests, NameMatch.accepts, h.name]
  | exact name => simp [NameMatch.looksAt, NameMatch.tests, NameMatch.accepts, h.rowName]

/-- Keeping the rows that a search looks at and reading those that pass its test is reading all of
them and keeping those whose names match. -/
theorem filterMap_foundIn {rows : List JoinedSymbol} (h : ∀ j ∈ rows, ∃ t x, Reads j t x)
    (wanted : NameMatch) :
    (rows.filter fun j => wanted.looksAt j.symbol).filterMap (foundIn wanted.tests) =
      (rows.filterMap (foundIn fun _ => true)).filter fun x => wanted.accepts x.name := by
  let looks (j : JoinedSymbol) : Bool := wanted.looksAt j.symbol
  let accepts (x : Symbol) : Bool := wanted.accepts x.name
  change (rows.filter looks).filterMap (foundIn wanted.tests) =
    (rows.filterMap (foundIn fun _ => true)).filter accepts
  induction rows with
  | nil => rfl
  | cons j rest ih =>
      obtain ⟨t, x, hj⟩ := h j (by simp)
      have hrest := ih fun k hk => h k (by simp [hk])
      have haccepts : looks j = true ∧ wanted.tests t = true ↔ accepts x = true :=
        (hj.accepts_iff wanted).trans decide_eq_true_iff.symm
      rw [List.filterMap_cons_some ((foundIn_eq_some hj).mpr ⟨rfl, rfl⟩)]
      by_cases hx : accepts x = true
      · obtain ⟨hlooks, htest⟩ := haccepts.mpr hx
        rw [List.filter_cons_of_pos hlooks, List.filter_cons_of_pos hx,
          List.filterMap_cons_some ((foundIn_eq_some hj).mpr ⟨htest, rfl⟩), hrest]
      · rw [List.filter_cons_of_neg hx]
        by_cases hlooks : looks j = true
        · -- the row is looked at, so it is the test of its texts that fails
          have hnone : foundIn wanted.tests j = none := by
            rw [Option.eq_none_iff_forall_ne_some]
            intro y hy
            exact hx (haccepts.mp ⟨hlooks, ((foundIn_eq_some hj).mp hy).1⟩)
          rw [List.filter_cons_of_pos hlooks, List.filterMap_cons_none hnone, hrest]
        · rw [List.filter_cons_of_neg hlooks, hrest]

/-! ## One list of rows -/

/-- Every symbol beside its fossil, in the order of files, lines and places. -/
def orderedRows (s : Store) : List JoinedSymbol :=
  orderBy inFileOrder (s.joined fun _ => true)

/-- What is joined and put in order is a part of all rows. -/
theorem orderBy_joined (s : Store) (wanted : SymbolRow → Bool) :
    orderBy inFileOrder (s.joined wanted) = s.orderedRows.filter fun j => wanted j.symbol := by
  rw [orderedRows, ← orderBy_filter, joined, joined, List.filter_true, flatMap_filter]
  intro r _ j hj
  obtain ⟨f, -, rfl⟩ := List.mem_map.mp hj
  rfl

section

variable {past : List Step} {s : Store}

theorem mem_orderedRows {j : JoinedSymbol} :
    j ∈ s.orderedRows ↔ j.symbol ∈ s.symbols ∧ j.fossil ∈ s.fossils ∧
      j.fossil.fossilId = j.symbol.fossilId := by
  rw [orderedRows, (orderBy_perm _ _).mem_iff, mem_joined]
  simp

theorem Coherent.reads_orderedRows (h : Coherent past s) :
    ∀ j ∈ s.orderedRows, ∃ t x, Reads j t x := by
  intro j hj
  obtain ⟨hsymbol, hfossil, hjoins⟩ := mem_orderedRows.mp hj
  exact h.reads ⟨hsymbol, rfl, hfossil, hjoins⟩

/-- The versions of a project tell its fossils apart. -/
theorem CountsUp.eq_of_version {rows : List FossilRow} (h : CountsUp rows) {f g : FossilRow}
    (hf : f ∈ rows) (hg : g ∈ rows) (hversion : f.version = g.version) : f = g := by
  have hnodup : (rows.map FossilRow.version).Nodup := by
    rw [List.Nodup, List.pairwise_map]
    refine h.pairwise.imp fun {a b} hab heq => ?_
    rw [heq, hab.2] at hab
    cases hab.1
  exact List.inj_on_of_nodup_map hnodup hf hg hversion

/-- A symbol is that of a fossil of a project if and only if it is that of the project, beside a
fossil of that version. -/
theorem Coherent.fossilId_iff (h : Coherent past s) {projectId : Cell} {r : FossilRow}
    (hr : r ∈ s.fossilRows projectId) {j : JoinedSymbol} (hj : j ∈ s.orderedRows) :
    j.symbol.fossilId = r.fossilId ↔
      j.symbol.projectId = projectId ∧ j.fossil.version = r.version := by
  obtain ⟨hsymbol, hfossil, hjoins⟩ := mem_orderedRows.mp hj
  have howner := h.projectId_of_fossilId hfossil hsymbol hjoins.symm
  have hr' := List.mem_filter.mp hr
  rw [decide_eq_true_eq] at hr'
  constructor
  · intro heq
    have hrow : j.fossil = r :=
      List.inj_on_of_nodup_map h.fossilIds hfossil hr'.1 (hjoins.trans heq)
    rw [howner, hrow]
    exact ⟨hr'.2, rfl⟩
  · rintro ⟨hproject, hversion⟩
    have hmem : j.fossil ∈ s.fossilRows projectId :=
      List.mem_filter.mpr ⟨hfossil, decide_eq_true (howner.symm.trans hproject)⟩
    rw [← hjoins, (h.versions projectId).eq_of_version hmem hr hversion]

/-- The rows of a fossil of a project among those that a search of the project looks at. -/
theorem Coherent.filter_version (h : Coherent past s) {projectId : Cell} {r : FossilRow}
    (hr : r ∈ s.fossilRows projectId) (looksAt : SymbolRow → Bool) :
    (s.orderedRows.filter fun j => j.symbol.projectId = projectId && looksAt j.symbol).filter
        (fun j => j.fossil.version = r.version) =
      (s.orderedRows.filter fun j => j.symbol.fossilId = r.fossilId).filter
        fun j => looksAt j.symbol := by
  rw [List.filter_filter, List.filter_filter]
  refine List.filter_congr fun j hj => ?_
  have hiff := h.fossilId_iff hr hj
  by_cases hid : j.symbol.fossilId = r.fossilId
  · obtain ⟨hproject, hversion⟩ := hiff.mp hid
    simp [hid, hproject, hversion]
  · have hnot : ¬(j.symbol.projectId = projectId ∧ j.fossil.version = r.version) :=
      fun hboth => hid (hiff.mpr hboth)
    simp only [hid, decide_false, Bool.and_false]
    by_cases hproject : j.symbol.projectId = projectId
    · have hversion : j.fossil.version ≠ r.version := fun heq => hnot ⟨hproject, heq⟩
      simp [hversion]
    · simp [hproject]

/-! ## The rows of a search -/

/-- A search of the latest fossil looks at the rows of the fossil that was written last. -/
theorem Coherent.searchRows_latest (h : Coherent past s) {projectId : Cell} {r : FossilRow}
    (hr : (s.fossilRows projectId).getLast? = some r) (looksAt : SymbolRow → Bool) :
    s.searchRows projectId looksAt .latest =
      (s.orderedRows.filter fun j => j.symbol.fossilId = r.fossilId).filter
        fun j => looksAt j.symbol := by
  have hversion : s.highestVersion projectId = r.version := by
    rw [highestVersion, fossilsOf_eq_reverse (h.versions projectId)]
    rw [List.getLast?_eq_head?_reverse] at hr
    cases hrows : (s.fossilRows projectId).reverse with
    | nil => simp [hrows] at hr
    | cons f rest =>
        rw [hrows] at hr
        cases hr
        rfl
  rw [searchRows, orderBy_filter, orderBy_joined, hversion,
    h.filter_version (List.mem_of_getLast? hr)]

/-- A search of all fossils looks at the rows of one fossil after the other, beginning with the one
that was written last. -/
theorem Coherent.searchRows_allFossils (h : Coherent past s) (projectId : Cell)
    (looksAt : SymbolRow → Bool) :
    s.searchRows projectId looksAt .allFossils =
      (s.fossilRows projectId).reverse.flatMap fun r =>
        (s.orderedRows.filter fun j => j.symbol.fossilId = r.fossilId).filter
          fun j => looksAt j.symbol := by
  let versions := (s.fossilRows projectId).reverse.map FossilRow.version
  have hversions : versions.Pairwise fun a b => a.le b = false := by
    rw [List.pairwise_map, List.pairwise_reverse]
    exact (h.versions projectId).pairwise.imp fun hab => hab.2
  have hmem : ∀ j ∈ s.orderedRows.filter
      (fun j => j.symbol.projectId = projectId && looksAt j.symbol),
      j.fossil.version ∈ versions := by
    intro j hj
    rw [List.mem_filter, Bool.and_eq_true, decide_eq_true_eq] at hj
    obtain ⟨hj, hproject, -⟩ := hj
    obtain ⟨hsymbol, hfossil, hjoins⟩ := mem_orderedRows.mp hj
    have howner := h.projectId_of_fossilId hfossil hsymbol hjoins.symm
    refine List.mem_map_of_mem (List.mem_reverse.mpr ?_)
    exact List.mem_filter.mpr ⟨hfossil, decide_eq_true (howner.symm.trans hproject)⟩
  -- the order by version puts one group of rows for each fossil
  have hgroups := mergeSort_eq_flatMap (fun a b : Cell => b.le a)
    (fun a b c hab hbc => Cell.le_trans c b a hbc hab) (fun a b => Cell.le_total b a)
    (fun j : JoinedSymbol => j.fossil.version) hversions hmem
  rw [searchRows, orderBy_joined, hgroups, List.flatMap_map]
  refine List.flatMap_congr fun r hr => ?_
  exact h.filter_version (List.mem_reverse.mp hr) looksAt

end

/-! ## What a search gives -/

section

variable {past : List Step} {s : Store}

theorem listing_eq_filter (fossilId : Cell) :
    s.listing fossilId =
      (s.orderedRows.filter fun j => j.symbol.fossilId = fossilId).filterMap
        (foundIn fun _ => true) := by
  rw [listing, orderBy_joined]

theorem mem_orderedRows_of_searchRows {projectId : Cell} {looksAt : SymbolRow → Bool}
    {scope : SymbolScope} {j : JoinedSymbol} (hj : j ∈ s.searchRows projectId looksAt scope) :
    j ∈ s.orderedRows := by
  cases scope with
  | latest =>
      rw [searchRows, orderBy_filter, orderBy_joined] at hj
      exact List.mem_of_mem_filter (List.mem_of_mem_filter hj)
  | allFossils =>
      rw [searchRows, orderBy_joined, List.mem_mergeSort] at hj
      exact List.mem_of_mem_filter hj

/-- A search for names in a project with a fossil reads the rows that it looks at. -/
theorem Coherent.findSymbols_eq (h : Coherent past s) {name : String} {project : Project}
    (hproject : s.findProject name .strict = .ok (some project))
    (hfossil : s.fossilRows (Cell.uuid project.projectId) ≠ []) (wanted : NameMatch)
    (scope : SymbolScope) :
    s.findSymbols name wanted scope =
      .ok (.found ((s.searchRows (Cell.uuid project.projectId) wanted.looksAt scope).filterMap
        (foundIn wanted.tests))) := by
  have hsome : (s.fossilsOf (Cell.uuid project.projectId)).isEmpty = false := by
    rw [fossilsOf_eq_reverse (h.versions _)]
    simpa using hfossil
  have hreads : ∀ j ∈ s.searchRows (Cell.uuid project.projectId) wanted.looksAt scope,
      ∃ t x, Reads j t x :=
    fun j hj => h.reads_orderedRows j (mem_orderedRows_of_searchRows hj)
  obtain ⟨typed, htyped, hdecoded⟩ := mapM_filter_decode hreads wanted.tests
  rw [findSymbols, withProject, hproject]
  simp only [bind, Except.bind, hsome, Bool.false_eq_true, if_false]
  -- the two kinds of search differ in what they leave to the texts
  cases wanted with
  | contains part =>
      have hrows : (s.searchRows (Cell.uuid project.projectId) (fun _ => true) scope).mapM
          JoinedSymbol.typed = .ok typed := htyped
      have hsymbols : (typed.filter fun t =>
          Text.contains (Text.lower t.name) (Text.lower part)).mapM TypedSymbol.decode =
        .ok ((s.searchRows (Cell.uuid project.projectId) (NameMatch.contains part).looksAt
          scope).filterMap (foundIn (NameMatch.contains part).tests)) := hdecoded
      simp only [hrows]
      rw [hsymbols]
  | exact symbol =>
      have hrows : (s.searchRows (Cell.uuid project.projectId) (fun r => r.name = .text symbol)
          scope).mapM JoinedSymbol.typed = .ok typed := htyped
      have hall : typed.filter (NameMatch.exact symbol).tests = typed :=
        List.filter_eq_self.mpr fun _ _ => rfl
      rw [hall] at hdecoded
      simp only [hrows]
      rw [hdecoded]

/-- The names that match in the listing of a fossil. -/
theorem Coherent.filterMap_foundIn_listing (h : Coherent past s) (fossilId : Cell)
    (wanted : NameMatch) :
    ((s.orderedRows.filter fun j => j.symbol.fossilId = fossilId).filter
        fun j => wanted.looksAt j.symbol).filterMap (foundIn wanted.tests) =
      (s.listing fossilId).filter fun x => wanted.accepts x.name := by
  rw [listing_eq_filter]
  exact filterMap_foundIn (fun j hj => h.reads_orderedRows j (List.mem_of_mem_filter hj)) wanted

/-- A symbol that is read has the identifiers of its row. -/
theorem Reads.ids {j : JoinedSymbol} {t : TypedSymbol} {x : Symbol} (h : Reads j t x)
    {fossilId projectId : Uuid} (hfossil : j.symbol.fossilId = Cell.uuid fossilId)
    (hproject : j.symbol.projectId = Cell.uuid projectId) :
    x.fossilId = fossilId ∧ x.projectId = projectId := by
  have hread : ∀ {index : Nat} {column text : String} {id read : Uuid},
      (Cell.uuid id).asText index column = .ok text → readUuid text = .ok read → read = id := by
    intro index column text id read htext hread
    rw [Cell.uuid, Cell.asText_text, Except.ok.injEq] at htext
    rw [← htext, readUuid_toString, Except.ok.injEq] at hread
    exact hread.symm
  -- of the eleven values of a row the second and the third are these identifiers
  obtain ⟨_, -, htyped⟩ := bind_eq_ok h.typed
  obtain ⟨fossilText, hfossilText, htyped⟩ := bind_eq_ok htyped
  obtain ⟨projectText, hprojectText, htyped⟩ := bind_eq_ok htyped
  iterate 8 obtain ⟨_, -, htyped⟩ := bind_eq_ok htyped
  obtain ⟨_, -, hdecode⟩ := bind_eq_ok h.decode
  obtain ⟨fossilRead, hfossilRead, hdecode⟩ := bind_eq_ok hdecode
  obtain ⟨projectRead, hprojectRead, hdecode⟩ := bind_eq_ok hdecode
  obtain ⟨_, -, hdecode⟩ := bind_eq_ok hdecode
  cases htyped
  cases hdecode
  rw [hfossil] at hfossilText
  rw [hproject] at hprojectText
  exact ⟨hread hfossilText hfossilRead, hread hprojectText hprojectRead⟩

/-- A symbol in the listing of a fossil of a project is one of that fossil and that project. -/
theorem Coherent.ids_of_mem_listing (h : Coherent past s) {r : FossilRow} {fossilId projectId : Uuid}
    (hr : r ∈ s.fossilRows (Cell.uuid projectId)) (hid : r.fossilId = Cell.uuid fossilId)
    {x : Symbol} (hx : x ∈ s.listing (Cell.uuid fossilId)) :
    x.fossilId = fossilId ∧ x.projectId = projectId := by
  rw [listing_eq_filter, List.mem_filterMap] at hx
  obtain ⟨j, hj, hx⟩ := hx
  rw [List.mem_filter, decide_eq_true_eq] at hj
  obtain ⟨t, y, hy⟩ := h.reads_orderedRows j hj.1
  obtain ⟨-, rfl⟩ := (foundIn_eq_some hy).mp hx
  exact hy.ids hj.2 ((h.fossilId_iff hr hj.1).mp (hj.2.trans hid.symm)).1

end

/-! ## Searches give what listings hold -/

/-- Whether the searches for names in a project give what the listings of its fossils hold. -/
structure SearchesListings (s : Store) (name : String) (projectId : Uuid) (history : List Fossil)
    (latest : Fossil) (listed : Uuid → List Symbol) : Prop where
  readHistory : s.fossilHistory name = .ok (.found history)
  readLatest : s.latestFossil name = .ok (.found latest)
  latestIsLast : history.getLast? = some latest
  readSymbols : ∀ f ∈ history, s.symbolsForFossil f.fossilId = .ok (some (listed f.fossilId))
  /-- What is listed of a fossil is of that fossil, and of no other project. -/
  ids : ∀ f ∈ history, ∀ x ∈ listed f.fossilId, x.fossilId = f.fossilId ∧ x.projectId = projectId
  /-- A search of the latest fossil gives its listing, without the names that do not match. -/
  searchLatest : ∀ wanted : NameMatch, s.findSymbols name wanted .latest =
    .ok (.found ((listed latest.fossilId).filter fun x => wanted.accepts x.name))
  /-- A search for a part of a name gives what matches it in the latest fossil. -/
  searchSymbols : ∀ part, s.searchSymbols name part =
    .ok (.found ((listed latest.fossilId).filter fun x => (NameMatch.contains part).accepts x.name))
  /-- A search of all fossils gives one such list after the other, that of the latest first. -/
  searchAll : ∀ wanted : NameMatch, s.findSymbols name wanted .allFossils =
    .ok (.found (history.reverse.flatMap fun f =>
      (listed f.fossilId).filter fun x => wanted.accepts x.name))

/-- In sound tables the searches for names in a project with a fossil give what the listings of its
fossils hold. -/
theorem Sound.searchesListings {past : List Step} {s : Store} (h : Sound past s) {name : String}
    {project : Project} (hproject : s.findProject name .strict = .ok (some project))
    (hfossil : s.fossilRows (Cell.uuid project.projectId) ≠ []) :
    ∃ latest, s.SearchesListings name project.projectId
      (s.history (Cell.uuid project.projectId)) latest fun id => s.listing (Cell.uuid id) := by
  let rows := s.fossilRows (Cell.uuid project.projectId)
  let matching (wanted : NameMatch) (fossilId : Cell) : List Symbol :=
    (s.listing fossilId).filter fun x => wanted.accepts x.name
  have hcoherent := h.coherent
  have hreads := h.reads_fossilRows (Cell.uuid project.projectId)
  have hhistory := h.fossilHistory_eq hproject
  rw [answerOf, if_neg fun hnil => hfossil ((h.history_eq_nil _).mp hnil)] at hhistory
  -- the row that was written last is that of the latest fossil
  obtain ⟨row, hrow⟩ : ∃ row, rows.getLast? = some row :=
    ⟨_, List.getLast?_eq_getLast_of_ne_nil hfossil⟩
  obtain ⟨latest, hlatest⟩ := hreads row (List.mem_of_getLast? hrow)
  have hlast : (s.history (Cell.uuid project.projectId)).getLast? = some latest := by
    rw [Store.history, getLast?_filterMap_read? hreads, hrow, Option.bind_some, hlatest.read?]
  have hids : (s.history (Cell.uuid project.projectId)).map (fun f => Cell.uuid f.fossilId) =
      rows.map FossilRow.fossilId := map_fossilId_filterMap_read? hreads
  have hsearch : ∀ wanted, s.findSymbols name wanted .latest =
      .ok (.found (matching wanted (Cell.uuid latest.fossilId))) := by
    intro wanted
    rw [hcoherent.findSymbols_eq hproject hfossil, hcoherent.searchRows_latest hrow,
      hcoherent.filterMap_foundIn_listing, hlatest.fossilId]
  refine ⟨latest,
    { readHistory := hhistory
      readLatest := by rw [h.latestFossil_eq hproject, hlast]
      latestIsLast := hlast
      readSymbols := ?readSymbols
      ids := ?ids
      searchLatest := hsearch
      searchSymbols := fun part => hsearch (.contains part)
      searchAll := ?searchAll }⟩
  case readSymbols =>
    intro f hf
    obtain ⟨r, hr, -, hread⟩ := h.exists_of_mem_history hf
    exact hcoherent.symbolsForFossil_eq hr hread.fossilId
  case ids =>
    intro f hf x hx
    obtain ⟨r, hr, howner, hread⟩ := h.exists_of_mem_history hf
    have hmem : r ∈ rows := List.mem_filter.mpr ⟨hr, decide_eq_true howner⟩
    exact hcoherent.ids_of_mem_listing hmem hread.fossilId hx
  case searchAll =>
    intro wanted
    have hgroups : (rows.reverse.flatMap fun r => matching wanted r.fossilId) =
        (s.history (Cell.uuid project.projectId)).reverse.flatMap fun f =>
          matching wanted (Cell.uuid f.fossilId) := by
      have hmap := congrArg (fun ids => ids.reverse.flatMap (matching wanted)) hids
      simp only [← List.map_reverse, List.flatMap_map] at hmap
      exact hmap.symm
    rw [hcoherent.findSymbols_eq hproject hfossil, hcoherent.searchRows_allFossils,
      List.filterMap_flatMap]
    simp only [hcoherent.filterMap_foundIn_listing]
    exact congrArg (fun found => Except.ok (Lookup.found found)) hgroups

/-- After every history, the searches for names in a project with a fossil give what the listings of
its fossils hold, in whichever way names are matched: the names that match in the latest fossil, or
those in all fossils from the latest to the first. -/
theorem findSymbols_listings (uniqueSummaries uniqueSymbolNames : Bool) (steps : List Step)
    (hclock : ∀ step ∈ steps, step.fresh.now.IsValid) (name : String) (project : Project)
    (hproject : ((blank uniqueSummaries uniqueSymbolNames).run steps).findProject name .strict =
      .ok (some project))
    (hfossil : ((blank uniqueSummaries uniqueSymbolNames).run steps).fossilRows
      (Cell.uuid project.projectId) ≠ []) :
    ∃ history latest listed,
      ((blank uniqueSummaries uniqueSymbolNames).run steps).SearchesListings name
        project.projectId history latest listed := by
  have hsound := (Sound.blank uniqueSummaries uniqueSymbolNames).run hclock
  obtain ⟨latest, hlistings⟩ := hsound.searchesListings hproject hfossil
  exact ⟨_, latest, _, hlistings⟩

/-- A project with two fossils, in both of which there is a symbol of one name. -/
theorem findSymbols_listings_two_fossils :
    let fresh (first : Nat) : Fresh :=
      ⟨fun k => ⟨BitVec.ofNat 128 (first + k)⟩, ⟨2024, 2, 29, 12, 0, 0, 0⟩⟩
    let raw := "\x7b\"symbols\":[\x7b\"name\":\"f\",\"file\":\"a\"\x7d]\x7d"
    let s := (blank false false).run [⟨fresh 1, .register ⟨"demo", "/d", "rust"⟩⟩,
      ⟨fresh 2, .ingest "demo" raw none⟩, ⟨fresh 4, .ingest "demo" raw none⟩]
    ∃ history latest listed,
      s.SearchesListings "demo" ((fresh 1).id 0) history latest listed :=
  findSymbols_listings false false
    [⟨⟨fun k => ⟨BitVec.ofNat 128 (1 + k)⟩, ⟨2024, 2, 29, 12, 0, 0, 0⟩⟩,
        .register ⟨"demo", "/d", "rust"⟩⟩,
      ⟨⟨fun k => ⟨BitVec.ofNat 128 (2 + k)⟩, ⟨2024, 2, 29, 12, 0, 0, 0⟩⟩,
        .ingest "demo" "\x7b\"symbols\":[\x7b\"name\":\"f\",\"file\":\"a\"\x7d]\x7d" none⟩,
      ⟨⟨fun k => ⟨BitVec.ofNat 128 (4 + k)⟩, ⟨2024, 2, 29, 12, 0, 0, 0⟩⟩,
        .ingest "demo" "\x7b\"symbols\":[\x7b\"name\":\"f\",\"file\":\"a\"\x7d]\x7d" none⟩]
    (by decide) "demo"
    ⟨⟨BitVec.ofNat 128 1⟩, "demo", "/d", "rust", .active, some ⟨2024, 2, 29, 12, 0, 0, 0⟩⟩
    (by decide +kernel) (by decide +kernel)

end Store

end FossilRecord
