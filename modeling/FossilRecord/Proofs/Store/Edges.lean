import FossilRecord.Proofs.Payload.Edges
import FossilRecord.Proofs.Store.Growth
import FossilRecord.Proofs.Store.Readable

/-!
# Relationships from the payload to the search

The relationships of a symbol are checked in a payload, written into a column as a text, read out of
it as a value and turned into lists of names.  `ingest_related` says that no name is lost on that way,
whether the symbols of the fossil are listed or searched for, and however long after the ingestion.
-/

namespace FossilRecord.Store

/-! ## One symbol -/

/-- What is kept of relationships gives the same names as what was received. -/
theorem ofValue_keptRelationships {j : Json} (h : Relationships.IsKept j) :
    Relationships.ofValue (keptRelationships j) = .ofValue j := by
  cases h with
  | object hfits => exact Relationships.ofFields_readBackFields
  | text hparse =>
      simp only [keptRelationships, Relationships.ofValue, Relationships.fieldsOf?, hparse]

/-- Whether a symbol that is read is that of an entry, with the related names in it. -/
def ReadsRelated (entry : Json) (x : Symbol) : Prop :=
  ∃ fields, entry = .object fields ∧ Json.lookup "name" fields = some (.text x.name) ∧
    Relationships.Related (Payload.receivedOf fields) x.edges

section

variable (fresh : Fresh) (projectId : Uuid) (version : Int)

theorem readsRelated_storedSymbol (place : Nat) {entry : Json} {p : PayloadSymbol}
    (hentry : Payload.IsSymbolEntry entry) (hnamed : Payload.isNamed entry = true)
    (hp : p.IsSound) (hholds : ∃ fields, entry = .object fields ∧ Payload.HoldsSymbol fields p) :
    ReadsRelated entry (storedSymbol fresh projectId version place p) := by
  obtain ⟨fields, rfl, hholds⟩ := hholds
  refine ⟨fields, rfl, hholds.name, ?_⟩
  have hreceived : p.relationships = Payload.receivedOf fields := hholds.relationships
  rw [← hreceived]
  unfold Symbol.edges storedSymbol
  cases hfound : p.relationships with
  | none => exact Relationships.related_none
  | some j =>
      simp only [Option.map_some]
      rw [ofValue_keptRelationships (hp.relationships j hfound)]
      exact Relationships.related_ofValue
        (Payload.isRelationships_of_received (hentry hnamed) (hreceived ▸ hfound))

/-- The symbols of a payload, wherever they stand in it, are read with the related names in its
entries. -/
theorem readsRelated_symbols {raw : String} {p : Payload} (hparse : Payload.parse raw = .ok p) :
    ∃ root, Json.parse (Fence.strip raw) = .ok (.object root) ∧
      List.Forall₂
        (fun entry q => ∀ place, ReadsRelated entry (storedSymbol fresh projectId version place q))
        (Payload.namedEntries root) p.symbols := by
  obtain ⟨root, hroot, hfields⟩ := Payload.hasFormat_iff.mpr ⟨p, hparse⟩
  obtain ⟨other, hother, hread⟩ := Payload.readFrom_of_parse hparse
  rw [hroot, Except.ok.injEq, Json.object.injEq] at hother
  subst hother
  have hholds := (hread.holds (Json.fits_of_parse hroot)).symbols
  have hentries := (List.forall₂_and_left _ _).mpr
    ⟨fun j hj => Payload.isSymbolEntry_of_namedEntries hfields hj, hholds⟩
  have hsound := (List.forall₂_and_left _ _).mpr
    ⟨(Payload.sound_of_parse hparse).2, hentries.flip⟩
  refine ⟨root, hroot, hsound.flip.imp ?_⟩
  rintro entry q ⟨hq, ⟨hentry, hnamed⟩, hholds⟩ place
  exact readsRelated_storedSymbol fresh projectId version place hentry hnamed hq hholds

/-- In whatever order the symbols of a payload are read, the entries can be put in the same one. -/
theorem readsRelated_inOrder {raw : String} {p : Payload} (hparse : Payload.parse raw = .ok p) :
    ∃ root order, Json.parse (Fence.strip raw) = .ok (.object root) ∧
      order.Perm (Payload.namedEntries root) ∧
      List.Forall₂ ReadsRelated order
        ((inOrder p.symbols).map fun a => storedSymbol fresh projectId version a.2 a.1) := by
  obtain ⟨root, hroot, hentries⟩ := readsRelated_symbols fresh projectId version hparse
  have hplaces : ((inOrder p.symbols).map Prod.fst).Perm p.symbols := by
    have hmap := (inOrder_perm p.symbols).map Prod.fst
    rwa [List.zipIdx_map_fst] at hmap
  obtain ⟨order, hpairs, horder⟩ := List.perm_comp_forall₂ hplaces hentries.flip
  refine ⟨root, order, hroot, horder, ?_⟩
  rw [List.forall₂_map_left_iff] at hpairs
  rw [List.forall₂_map_right_iff]
  exact hpairs.flip.imp fun entry a hread => hread a.2

end

/-! ## The symbols of a fossil -/

/-- Whether some symbols are all that is read of a fossil: they are its listing, a search gives no
others of it, and a search of its project leaves out none whose name matches, if it looks for them in
this fossil. -/
structure GivesSymbols (s : Store) (receipt : FossilReceipt) (found : List Symbol) : Prop where
  listed : s.symbolsForFossil receipt.fossilId = .ok (some found)
  searched : ∀ name wanted scope symbols, s.findSymbols name wanted scope = .ok (.found symbols) →
    ∀ x ∈ symbols, x.fossilId = receipt.fossilId → x ∈ found
  searchAll : ∀ name (project : Project), s.findProject name .strict = .ok (some project) →
    project.projectId = receipt.projectId → ∀ wanted : NameMatch, ∃ symbols,
      s.findSymbols name wanted .allFossils = .ok (.found symbols) ∧
      ∀ x ∈ found, wanted.accepts x.name → x ∈ symbols
  searchLatest : ∀ name (fossil : Fossil), s.latestFossil name = .ok (.found fossil) →
    fossil.fossilId = receipt.fossilId → ∀ wanted : NameMatch,
      s.findSymbols name wanted .latest =
        .ok (.found (found.filter fun x => wanted.accepts x.name))

/-- A search gives what stands in the listing of the fossil that it is of. -/
theorem SearchesListings.mem_listed {s : Store} {name : String} {projectId : Uuid}
    {history : List Fossil} {latest : Fossil} {listed : Uuid → List Symbol}
    (h : s.SearchesListings name projectId history latest listed) {wanted : NameMatch}
    {scope : SymbolScope} {symbols : List Symbol}
    (hfound : s.findSymbols name wanted scope = .ok (.found symbols)) {x : Symbol}
    (hx : x ∈ symbols) : x ∈ listed x.fossilId := by
  have hfossil : ∃ f ∈ history, x ∈ listed f.fossilId := by
    cases scope with
    | latest =>
        rw [h.searchLatest] at hfound
        cases hfound
        exact ⟨latest, List.mem_of_getLast? h.latestIsLast, List.mem_of_mem_filter hx⟩
    | allFossils =>
        rw [h.searchAll] at hfound
        cases hfound
        obtain ⟨f, hf, hx⟩ := List.mem_flatMap.mp hx
        exact ⟨f, List.mem_reverse.mp hf, List.mem_of_mem_filter hx⟩
  obtain ⟨f, hf, hx⟩ := hfossil
  rwa [(h.ids f hf x hx).1]

section

variable {past : List Step} {s : Store}

/-- A name leads to no project, to one without fossils, or to one whose listings are searched. -/
theorem Sound.search_cases (h : Sound past s) (name : String) :
    s.findProject name .strict = .ok none ∨
      ∃ project, s.findProject name .strict = .ok (some project) ∧
        (s.fossilRows (Cell.uuid project.projectId) = [] ∨
          ∃ latest, s.SearchesListings name project.projectId
            (s.history (Cell.uuid project.projectId)) latest fun id => s.listing (Cell.uuid id)) := by
  obtain ⟨found, hproject⟩ := h.legible.findProject_total name .strict
  cases found with
  | none => exact .inl hproject
  | some project =>
      refine .inr ⟨project, hproject, ?_⟩
      by_cases hnone : s.fossilRows (Cell.uuid project.projectId) = []
      · exact .inl hnone
      · exact .inr (h.searchesListings hproject hnone)

/-- In sound tables a fossil gives its listing. -/
theorem Sound.givesSymbols (h : Sound past s) {row : FossilRow} (hrow : row ∈ s.fossils)
    {receipt : FossilReceipt} (hid : row.fossilId = Cell.uuid receipt.fossilId)
    (howner : row.projectId = Cell.uuid receipt.projectId) :
    s.GivesSymbols receipt (s.listing (Cell.uuid receipt.fossilId)) where
  listed := h.coherent.symbolsForFossil_eq hrow hid
  searched := by
    intro name wanted scope symbols hfound x hx hfossil
    rcases h.search_cases name with hproject | ⟨project, hproject, hnone | ⟨latest, hlistings⟩⟩
    · rw [findSymbols, withProject, hproject] at hfound
      cases hfound
    · rw [findSymbols_of_noFossil h.coherent hproject hnone] at hfound
      cases hfound
    · rw [← hfossil]
      exact hlistings.mem_listed hfound hx
  searchAll := by
    intro name project hproject hsame wanted
    have hmem : row ∈ s.fossilRows (Cell.uuid project.projectId) :=
      List.mem_filter.mpr ⟨hrow, decide_eq_true (by rw [howner, hsame])⟩
    obtain ⟨latest, hlistings⟩ := h.searchesListings hproject (List.ne_nil_of_mem hmem)
    -- the fossil is one of those that are searched
    obtain ⟨f, hread⟩ := h.fossils row hrow
    have hf : f ∈ s.history (Cell.uuid project.projectId) :=
      List.mem_filterMap.mpr ⟨row, hmem, hread.read?⟩
    have hfossil : f.fossilId = receipt.fossilId :=
      Uuid.toString_injective (Cell.text.inj (hread.fossilId.symm.trans hid))
    refine ⟨_, hlistings.searchAll wanted, fun x hx haccepts => ?_⟩
    rw [List.mem_flatMap]
    refine ⟨f, List.mem_reverse.mpr hf, List.mem_filter.mpr ⟨?_, decide_eq_true haccepts⟩⟩
    rwa [hfossil]
  searchLatest := by
    intro name fossil hlatest hfossil wanted
    rcases h.search_cases name with hproject | ⟨project, hproject, hnone | ⟨latest, hlistings⟩⟩
    · rw [latestFossil, withProject, hproject] at hlatest
      cases hlatest
    · rw [h.latestFossil_eq hproject, (h.history_eq_nil _).mpr hnone] at hlatest
      cases hlatest
    · rw [hlistings.readLatest] at hlatest
      cases hlatest
      rw [← hfossil]
      exact hlistings.searchLatest wanted

end

section

variable {past more : List Step} {s : Store} {fresh : Fresh} {projectId : Uuid} {version : Int}
  {p : Payload} {promptUsed : String}

/-- An ingestion at a time that can be written down keeps the tables sound. -/
theorem Sound.ingest (h : Sound past s) (hnow : fresh.now.IsValid) (name raw : String)
    (promptUsed : Option String) :
    Sound (past ++ [⟨fresh, .ingest name raw promptUsed⟩])
      (s.ingest fresh name raw promptUsed).2 := by
  have hperform : ∀ step : Step, step.fresh.now.IsValid →
      Sound (past ++ [step]) (s.perform step) := fun step hstep => h.perform hstep
  exact hperform ⟨fresh, .ingest name raw promptUsed⟩ hnow

theorem mem_fossils_withFossil : fossilRow fresh projectId version p promptUsed ∈
    (s.withFossil fresh projectId version p promptUsed).fossils :=
  List.mem_append_right _ (List.mem_singleton_self _)

/-- The listing of a fossil that was added holds the symbols of its payload. -/
theorem Coherent.listing_withFossil (h : Coherent past s)
    (ht : Coherent more (s.withFossil fresh projectId version p promptUsed))
    (hkey : s.hasFossil (Cell.uuid (fresh.id 0)) = false) (hsound : ∀ q ∈ p.symbols, q.IsSound) :
    (s.withFossil fresh projectId version p promptUsed).listing (Cell.uuid (fresh.id 0)) =
      (inOrder p.symbols).map fun a => storedSymbol fresh projectId version a.2 a.1 := by
  have hlisted : (s.withFossil fresh projectId version p promptUsed).symbolsForFossil (fresh.id 0) =
      .ok (some ((inOrder p.symbols).map fun a => storedSymbol fresh projectId version a.2 a.1)) :=
    symbolsForFossil_withFossil (ne_of_hasFossil hkey) (h.symbol_fossilId_ne hkey) hsound
  rwa [ht.symbolsForFossil_eq mem_fossils_withFossil rfl, Except.ok.injEq, Option.some.injEq]
    at hlisted

/-- A fossil that is there gives the same symbols in all tables that extend these. -/
theorem Extends.givesSymbols {u : Store} (h : s.Extends u) (hs : Coherent past s)
    (hu : Sound more u) {row : FossilRow} (hrow : row ∈ s.fossils) {receipt : FossilReceipt}
    (hid : row.fossilId = Cell.uuid receipt.fossilId)
    (howner : row.projectId = Cell.uuid receipt.projectId) :
    u.GivesSymbols receipt (s.listing (Cell.uuid receipt.fossilId)) := by
  have hlisting := h.listing hs hu.coherent hrow
  rw [hid] at hlisting
  rw [← hlisting]
  exact hu.givesSymbols (h.fossils.subset hrow) hid howner

end

/-! ## The main statement -/

/-- After any history, an ingestion that is stored leaves a fossil of which every symbol is read with
exactly the related names in its entry, and no other symbols are read; and this stays so whatever is
done later. -/
theorem ingest_related (uniqueSummaries uniqueSymbolNames : Bool) (steps : List Step)
    (hclock : ∀ step ∈ steps, step.fresh.now.IsValid) (fresh : Fresh) (hnow : fresh.now.IsValid)
    (name raw : String) (promptUsed : Option String) (receipt : FossilReceipt) (t : Store)
    (hstored : ((blank uniqueSummaries uniqueSymbolNames).run steps).ingest fresh name raw
      promptUsed = (.ok (.stored receipt), t))
    (later : List Step) (hlater : ∀ step ∈ later, step.fresh.now.IsValid) :
    ∃ root order found, Json.parse (Fence.strip raw) = .ok (.object root) ∧
      order.Perm (Payload.namedEntries root) ∧ List.Forall₂ ReadsRelated order found ∧
      (t.run later).GivesSymbols receipt found ∧
      (∃ project, t.findProject name .strict = .ok (some project) ∧
        project.projectId = receipt.projectId) ∧
      ∃ fossil, t.latestFossil name = .ok (.found fossil) ∧ fossil.fossilId = receipt.fossilId := by
  have hs := (Sound.blank uniqueSummaries uniqueSymbolNames).run hclock
  generalize (blank uniqueSummaries uniqueSymbolNames).run steps = s at hs hstored
  have ht := hs.ingest hnow name raw promptUsed
  rw [hstored] at ht
  rcases ingest_cases s fresh name raw promptUsed with
    ⟨payload, project, prompt, drawn, version, hparse, hproject, -, hversion, hkey, -, heq⟩ |
      ⟨result, hresult, heq⟩
  · rw [hstored, Prod.mk.injEq, Except.ok.injEq, IngestOutcome.stored.injEq] at heq
    obtain ⟨rfl, rfl⟩ := heq
    have hversions := hs.coherent.versions (Cell.uuid project.projectId)
    obtain ⟨hfiles, hsymbols⟩ := Payload.sound_of_parse hparse
    obtain ⟨root, order, hroot, horder, hread⟩ :=
      readsRelated_inOrder (fresh.after drawn) project.projectId version hparse
    rw [← hs.coherent.listing_withFossil ht.coherent hkey hsymbols] at hread
    refine ⟨root, order, _, hroot, horder, hread, ?_,
      ⟨_, hs.legible.findProject_withFossil hproject hnow, rfl⟩,
      ⟨_, hs.legible.latestFossil_withFossil hversions hproject hnow hfiles
        (versionFor_ok hversions hversion), rfl⟩⟩
    exact (ht.coherent.run_extends later).givesSymbols ht.coherent (ht.run hlater)
      mem_fossils_withFossil rfl rfl
  · rw [hstored, Prod.mk.injEq] at heq
    exact absurd heq.1.symm (hresult receipt)

/-- A symbol is ingested whose relationships are a text, in which one name stands twice and another one
is empty. -/
theorem ingest_related_repeated :
    let fresh (first : Nat) : Fresh :=
      ⟨fun k => ⟨BitVec.ofNat 128 (first + k)⟩, ⟨2024, 2, 29, 12, 0, 0, 0⟩⟩
    let s := (blank false false).run [⟨fresh 1, .register ⟨"demo", "/d", "rust"⟩⟩]
    let raw := "\x7b\"symbols\":[\x7b\"name\":\"f\",\"relationships\":" ++
      "\"\x7b\\\"calls\\\":[\\\"b\\\",\\\"\\\",\\\"b\\\"]\x7d\"\x7d]\x7d"
    ∃ receipt t, s.ingest (fresh 2) "demo" raw none = (.ok (.stored receipt), t) ∧
      ∃ root order found, Json.parse (Fence.strip raw) = .ok (.object root) ∧
        order.Perm (Payload.namedEntries root) ∧ List.Forall₂ ReadsRelated order found ∧
        (t.run []).GivesSymbols receipt found ∧
        (∃ project, t.findProject "demo" .strict = .ok (some project) ∧
          project.projectId = receipt.projectId) ∧
        ∃ fossil, t.latestFossil "demo" = .ok (.found fossil) ∧
          fossil.fossilId = receipt.fossilId := by
  intro fresh s raw
  have hs : Sound ([] ++ [⟨fresh 1, .register ⟨"demo", "/d", "rust"⟩⟩]) s :=
    (Sound.blank false false).run (by decide)
  have hparse : Payload.parse raw = .ok ⟨"", "", "", "", [], [],
      [⟨"", none, .function, "f", none, none,
        some (.text "\x7b\"calls\":[\"b\",\"\",\"b\"]\x7d")⟩]⟩ := by
    unfold Payload.parse raw
    cbv
  have hproject : s.findProject "demo" .strict =
      .ok (some ⟨(fresh 1).id 0, "demo", "/d", "rust", .active, none⟩) := by decide +kernel
  have hunused : Unused (fresh 2) s 1 := ⟨by decide, by decide, by decide⟩
  obtain ⟨prompt, hstored⟩ :=
    ingest_eq hs.coherent hs.legible rfl rfl hproject hparse (by decide) hunused none
  exact ⟨_, _, hstored, ingest_related false false [⟨fresh 1, .register ⟨"demo", "/d", "rust"⟩⟩]
    (by decide) (fresh 2) (by decide) "demo" raw none _ _ hstored [] (by simp)⟩

end FossilRecord.Store
