import FossilRecord.Proofs.Store.ProjectRows
import FossilRecord.Proofs.Store.Tally

/-!
# Numbers that agree

Five reads count the fossils of a project and the symbols of one of them, each in a way of its own:
the list of all projects, the history, the version of the latest fossil, the symbols of a fossil,
the search for a part of a name, and the numbers of symbols by kind.  After every history they give
the same numbers, which `counts_agree` states.
-/

namespace FossilRecord.Store

/-! ## The symbols of a fossil -/

section

variable {past : List Step} {s : Store}

/-- Every symbol is stored under the label of a kind that it names. -/
theorem Coherent.kind_named (h : Coherent past s) {r : SymbolRow} (hr : r ∈ s.symbols) :
    ∃ kind : SymbolType, kind.IsNamed ∧ r.kind = kindCell kind := by
  obtain ⟨f, hf, hid, -⟩ := h.symbolFossils r hr
  obtain ⟨_, -, _, _, _, payload, fresh, owner, -, hparse, hrows⟩ := h.payloads f hf
  have hmem : r ∈ s.symbolsOf f.fossilId := List.mem_filter.mpr ⟨hr, decide_eq_true hid.symm⟩
  rw [hrows] at hmem
  obtain ⟨k, -, -, p, hp, rfl⟩ := mem_symbolRows fresh owner hmem
  exact ⟨p.kind, ((Payload.sound_of_parse hparse).2 p hp).kind, rfl⟩

/-- A symbol that is read has the kind that its row is stored under. -/
theorem Reads.kind {j : JoinedSymbol} {t : TypedSymbol} {x : Symbol} (h : Reads j t x)
    {kind : SymbolType} (hnamed : kind.IsNamed) (hkind : j.symbol.kind = kindCell kind) :
    x.kind = kind := by
  obtain ⟨_, -, htyped⟩ := bind_eq_ok h.typed
  -- the seventh of the eleven values of a row
  iterate 5 obtain ⟨_, -, htyped⟩ := bind_eq_ok htyped
  obtain ⟨label, hlabel, htyped⟩ := bind_eq_ok htyped
  iterate 4 obtain ⟨_, -, htyped⟩ := bind_eq_ok htyped
  obtain ⟨_, -, hdecode⟩ := bind_eq_ok h.decode
  iterate 3 obtain ⟨_, -, hdecode⟩ := bind_eq_ok hdecode
  cases htyped
  cases hdecode
  rw [hkind, kindCell, Cell.asText_text, Except.ok.injEq] at hlabel
  rw [← hlabel]
  exact hnamed

/-- What is read of rows has the kinds that the rows are stored under. -/
theorem map_kind_filterMap_foundIn {rows : List JoinedSymbol}
    (h : ∀ j ∈ rows, ∃ t x, Reads j t x ∧ x.kind.IsNamed ∧ j.symbol.kind = kindCell x.kind) :
    ((rows.filterMap (foundIn fun _ => true)).map Symbol.kind).map kindCell =
        rows.map (fun j => j.symbol.kind) ∧
      ∀ kind ∈ (rows.filterMap (foundIn fun _ => true)).map Symbol.kind, kind.IsNamed := by
  induction rows with
  | nil => exact ⟨rfl, by simp⟩
  | cons j rest ih =>
      obtain ⟨t, x, hread, hnamed, hkind⟩ := h j (by simp)
      obtain ⟨hrest, hall⟩ := ih fun k hk => h k (by simp [hk])
      rw [List.filterMap_cons_some ((foundIn_eq_some hread).mpr ⟨rfl, rfl⟩), List.map_cons,
        List.map_cons, List.map_cons, hrest, hkind, List.forall_mem_cons]
      exact ⟨rfl, hnamed, hall⟩

/-- The kinds of the symbols that are listed of a fossil are those of its rows. -/
theorem Coherent.kinds_perm (h : Coherent past s) {f : FossilRow} (hf : f ∈ s.fossils) :
    ((s.symbolsOf f.fossilId).map SymbolRow.kind).Perm
        (((s.listing f.fossilId).map Symbol.kind).map kindCell) ∧
      ∀ kind ∈ (s.listing f.fossilId).map Symbol.kind, kind.IsNamed := by
  have hreads : ∀ j ∈ orderBy inFileOrder (s.joined (·.fossilId = f.fossilId)),
      ∃ t x, Reads j t x ∧ x.kind.IsNamed ∧ j.symbol.kind = kindCell x.kind := by
    intro j hj
    obtain ⟨hsymbol, -, hfossil, hjoins⟩ := mem_joined.mp ((orderBy_perm _ _).subset hj)
    obtain ⟨t, x, hread⟩ := h.reads ⟨hsymbol, rfl, hfossil, hjoins⟩
    obtain ⟨kind, hnamed, hkind⟩ := h.kind_named hsymbol
    obtain rfl := hread.kind hnamed hkind
    exact ⟨t, x, hread, hnamed, hkind⟩
  obtain ⟨hkinds, hnamed⟩ := map_kind_filterMap_foundIn hreads
  have hrows : (s.symbolsOf f.fossilId).map SymbolRow.kind =
      (s.joined (·.fossilId = f.fossilId)).map fun j => j.symbol.kind := by
    rw [h.joined_fossilId hf, List.map_map]
    rfl
  rw [listing, hkinds, hrows]
  exact ⟨((orderBy_perm _ _).map _).symm, hnamed⟩

theorem Coherent.listing_length (h : Coherent past s) {f : FossilRow} (hf : f ∈ s.fossils) :
    (s.listing f.fossilId).length = (s.symbolsOf f.fossilId).length := by
  have hlength := (h.kinds_perm hf).1.length_eq
  simpa using hlength.symm

/-- The symbols of a fossil are counted by their kinds. -/
theorem Coherent.symbolTypeCounts_eq (h : Coherent past s) {f : FossilRow} (hf : f ∈ s.fossils)
    {id : Uuid} (hid : f.fossilId = Cell.uuid id) : ∃ counts,
      s.symbolTypeCounts id = .ok counts ∧
        IsTally ((s.listing (Cell.uuid id)).map Symbol.kind) counts := by
  obtain ⟨hperm, hnamed⟩ := h.kinds_perm hf
  rw [hid] at hperm hnamed
  refine ⟨_, ?_, isTally_of_perm hnamed hperm⟩
  refine mapM_eq_ok fun u hu => ?_
  obtain ⟨type, count⟩ := u
  have hmem := (mem_orderedTally.mp hu).1
  obtain ⟨kind, -, hkind⟩ := List.mem_map.mp (hperm.mem_iff.mp hmem)
  obtain rfl : kindCell kind = type := hkind
  rfl

end

/-! ## The list of all projects -/

/-- Whether a summary is that of the project in a row. -/
structure Summarizes (s : Store) (r : ProjectRow) (x : ProjectSummary) : Prop where
  decode : r.decode = .ok x.project
  fossilCount : x.fossilCount = (s.fossilsOf r.projectId).length
  symbolCount : x.symbolCount = s.latestSymbolCount r.projectId

/-- The projects are summarized one by one in the order of their names. -/
theorem summarizes_of_listProjects {s : Store} {summaries : List ProjectSummary}
    (h : s.listProjects = .ok summaries) :
    List.Forall₂ s.Summarizes (orderBy (fun r => [ProjectRow.name r]) s.projects) summaries := by
  obtain ⟨typed, htyped, hsummaries⟩ := bind_eq_ok h
  refine (forall₂_of_mapM_mapM htyped hsummaries).imp ?_
  rintro r x ⟨⟨t, fossils, symbols⟩, ht, hx⟩
  obtain ⟨t', ht', heq⟩ := bind_eq_ok ht
  cases heq
  obtain ⟨project, hproject, heq⟩ := bind_eq_ok hx
  cases heq
  refine ⟨?_, rfl, rfl⟩
  rw [ProjectRow.decode, ht']
  exact hproject

/-- Whether summaries are those of all projects, of each of them once, in the byte order of their
names. -/
structure ListsProjects (s : Store) (summaries : List ProjectSummary) : Prop where
  listed : ∀ r ∈ s.projects, ∃ x ∈ summaries, r.decode = .ok x.project
  stored : ∀ x ∈ summaries, ∃ r ∈ s.projects, r.decode = .ok x.project
  length : summaries.length = s.projects.length
  ascending : summaries.Pairwise fun a b =>
    Text.octets a.project.name < Text.octets b.project.name

section

variable {past : List Step} {s : Store}

/-- Names are not given twice, so in their order each stands strictly before the next. -/
theorem Coherent.ascending_of_summarizes (h : Coherent past s) {summaries : List ProjectSummary}
    (hsummaries : List.Forall₂ s.Summarizes
      (orderBy (fun r => [ProjectRow.name r]) s.projects) summaries) :
    summaries.Pairwise fun a b => Text.octets a.project.name < Text.octets b.project.name := by
  let ordered := orderBy (fun r => [ProjectRow.name r]) s.projects
  have hnames : ordered.map ProjectRow.name =
      summaries.map fun x => Cell.text x.project.name :=
    map_eq_map_of_forall₂ hsummaries fun r x hx => (decode_ok hx.decode).1
  have hdistinct : (ordered.map ProjectRow.name).Nodup :=
    ((orderBy_perm _ _).map _).nodup_iff.mpr h.projectNames
  have hsorted : (ordered.map ProjectRow.name).Pairwise fun a b => a.le b = true := by
    rw [List.pairwise_map]
    refine (orderBy_pairwise _ _).imp fun {a b} hle => ?_
    exact ((Cell.listLe_cons a.name b.name [] []).mp hle).1
  rw [hnames] at hdistinct hsorted
  rw [List.Nodup, List.pairwise_map] at hdistinct
  rw [List.pairwise_map] at hsorted
  refine hsorted.imp₂ (fun a b hle hne => ?_) hdistinct
  exact octets_lt_of_le hle fun heq => hne (congrArg Cell.text heq.symm)

theorem Sound.listsProjects (h : Sound past s) {summaries : List ProjectSummary}
    (hlist : s.listProjects = .ok summaries) : s.ListsProjects summaries where
  listed r hr := by
    obtain ⟨p, rfl, hp⟩ := h.legible.projects r hr
    obtain ⟨x, hx, hproject⟩ :=
      (exists_mem_listProjects hlist p).mpr ⟨_, hr, decode_projectRow hp⟩
    exact ⟨x, hx, by rw [hproject, decode_projectRow hp]⟩
  stored x hx := (exists_mem_listProjects hlist x.project).mp ⟨x, hx, rfl⟩
  length := by
    rw [← (summarizes_of_listProjects hlist).length_eq, (orderBy_perm _ _).length_eq]
  ascending := h.coherent.ascending_of_summarizes (summarizes_of_listProjects hlist)

/-! ## The numbers of one project -/

/-- Whether the numbers that a project is listed with are those of what is read about it under its
name. -/
structure CountsAgree (s : Store) (x : ProjectSummary) : Prop where
  without : x.fossilCount = 0 → x.symbolCount = 0 ∧
    s.fossilHistory x.project.name = .ok (.noFossil x.project.name) ∧
    s.latestFossil x.project.name = .ok (.noFossil x.project.name)
  within : x.fossilCount ≠ 0 → ∃ history latest symbols found counts,
    s.fossilHistory x.project.name = .ok (.found history) ∧ history.length = x.fossilCount ∧
    s.latestFossil x.project.name = .ok (.found latest) ∧ latest.version = x.fossilCount ∧
    s.symbolsForFossil latest.fossilId = .ok (some symbols) ∧ symbols.length = x.symbolCount ∧
    s.searchSymbols x.project.name "" = .ok (.found found) ∧ found.length = x.symbolCount ∧
    s.symbolTypeCounts latest.fossilId = .ok counts ∧
      ((counts.map Prod.snd).sum : Nat) = x.symbolCount

/-- Every name contains the empty one. -/
theorem accepts_empty (name : String) : (NameMatch.contains "").accepts name := by
  have hempty : (Text.lower "").toList = [] := by decide
  rw [NameMatch.accepts, Text.contains, hempty, Text.occursIn_iff]
  exact ⟨[], (Text.lower name).toList, rfl⟩

theorem Sound.history_length (h : Sound past s) (projectId : Cell) :
    (s.history projectId).length = (s.fossilRows projectId).length :=
  (forall₂_filterMap_read? (h.reads_fossilRows projectId)).length_eq.symm

/-- The fossil that was written last is the first one by version, and it has the number of the
fossils as its version. -/
theorem Sound.latest_row (h : Sound past s) {projectId : Cell} {latest : Fossil}
    (hlast : (s.history projectId).getLast? = some latest) : ∃ row ∈ s.fossils,
      row.fossilId = Cell.uuid latest.fossilId ∧
      latest.version = (s.fossilRows projectId).length ∧
      s.latestSymbolCount projectId = (s.symbolsOf row.fossilId).length := by
  have hreads := h.reads_fossilRows projectId
  have hversions := h.coherent.versions projectId
  rw [Store.history, getLast?_filterMap_read? hreads, Option.bind_eq_some_iff] at hlast
  obtain ⟨row, hrow, hread⟩ := hlast
  have hmem := List.mem_of_getLast? hrow
  obtain ⟨f, hf⟩ := hreads row hmem
  obtain rfl : f = latest := by rwa [hf.read?, Option.some.injEq] at hread
  refine ⟨row, List.mem_of_mem_filter hmem, hf.fossilId, ?_, ?_⟩
  · obtain ⟨hne, hlast⟩ := List.mem_getLast?_eq_getLast hrow
    have hversion := hversions.version_getLast hne
    rw [← hlast, hf.version, Cell.integer.injEq] at hversion
    exact hversion
  · rw [List.getLast?_eq_head?_reverse, ← fossilsOf_eq_reverse hversions] at hrow
    rw [latestSymbolCount]
    cases hrows : s.fossilsOf projectId with
    | nil =>
        rw [hrows] at hrow
        cases hrow
    | cons first rest =>
        rw [hrows] at hrow
        cases hrow
        rfl

theorem Sound.countsAgree (h : Sound past s) {r : ProjectRow} (hr : r ∈ s.projects)
    {x : ProjectSummary} (hx : s.Summarizes r x) (hplain : IsPlain x.project.name) :
    s.CountsAgree x := by
  -- the name of the project leads to the project itself
  obtain ⟨p, rfl, hfound⟩ := h.findProject_self hr (decode_ok hx.decode).1 hplain
  obtain ⟨-, -, hvalid⟩ := h.legible.row_of_findProject hfound
  obtain rfl : p = x.project := by
    have hdecode := hx.decode
    rwa [decode_projectRow hvalid, Except.ok.injEq] at hdecode
  let projectId := Cell.uuid x.project.projectId
  have hfossils : x.fossilCount = (s.fossilRows projectId).length := by
    rw [hx.fossilCount]
    change ((s.fossilsOf projectId).length : Int) = _
    rw [fossilsOf_eq_reverse (h.coherent.versions projectId), List.length_reverse]
  have hsymbols : x.symbolCount = s.latestSymbolCount projectId := hx.symbolCount
  refine ⟨fun hzero => ?without, fun hsome => ?within⟩
  case without =>
    have hnil : s.fossilRows projectId = [] := by
      rw [hfossils] at hzero
      exact List.eq_nil_of_length_eq_zero (by omega)
    have hhistory : s.history projectId = [] := (h.history_eq_nil projectId).mpr hnil
    have hrows : s.fossilsOf projectId = [] := by
      rw [fossilsOf_eq_reverse (h.coherent.versions projectId), hnil]
      rfl
    refine ⟨?_, ?_, ?_⟩
    · rw [hsymbols, latestSymbolCount, hrows]
      rfl
    · rw [h.fossilHistory_eq hfound, hhistory]
      rfl
    · rw [h.latestFossil_eq hfound, hhistory]
      rfl
  case within =>
    have hne : s.fossilRows projectId ≠ [] := by
      rintro hnil
      rw [hfossils, hnil] at hsome
      exact hsome rfl
    obtain ⟨latest, hreads⟩ := h.searchesListings hfound hne
    obtain ⟨row, hrow, hid, hversion, hcount⟩ := h.latest_row hreads.latestIsLast
    obtain ⟨counts, hcounts, htally⟩ := h.coherent.symbolTypeCounts_eq hrow hid
    have hlisting : ((s.listing (Cell.uuid latest.fossilId)).length : Int) = x.symbolCount := by
      rw [hsymbols, hcount, ← hid, h.coherent.listing_length hrow]
    have hall : (s.listing (Cell.uuid latest.fossilId)).filter
        (fun y => (NameMatch.contains "").accepts y.name) = s.listing (Cell.uuid latest.fossilId) :=
      List.filter_eq_self.mpr fun y _ => decide_eq_true (accepts_empty y.name)
    refine ⟨_, latest, _, _, counts, hreads.readHistory, ?_, hreads.readLatest, ?_,
      hreads.readSymbols latest (List.mem_of_getLast? hreads.latestIsLast), hlisting,
      hreads.searchSymbols "", ?_, hcounts, ?_⟩
    · rw [h.history_length, hfossils]
    · rw [hversion, hfossils]
    · rw [hall, hlisting]
    · rw [htally.sum_eq, List.length_map, hlisting]

end

/-- After every history all projects are listed, each once and in the byte order of their names, and
a project with a plain name is listed with as many fossils and symbols as the reads that ask for
them give.  Of every fossil that is stored the symbols can be read, and their kinds are counted. -/
theorem counts_agree (uniqueSummaries uniqueSymbolNames : Bool) (steps : List Step)
    (hclock : ∀ step ∈ steps, step.fresh.now.IsValid) :
    let s := (blank uniqueSummaries uniqueSymbolNames).run steps
    ∃ summaries, s.listProjects = .ok summaries ∧ s.ListsProjects summaries ∧
      (∀ x ∈ summaries, IsPlain x.project.name → s.CountsAgree x) ∧
      ∀ r ∈ s.fossils, ∃ f symbols counts, ReadsFossil r f ∧
        s.symbolsForFossil f.fossilId = .ok (some symbols) ∧
        s.symbolTypeCounts f.fossilId = .ok counts ∧ IsTally (symbols.map Symbol.kind) counts := by
  intro s
  have hsound : Sound ([] ++ steps) s := (Sound.blank uniqueSummaries uniqueSymbolNames).run hclock
  obtain ⟨summaries, hlist⟩ := hsound.legible.listProjects_total
  refine ⟨summaries, hlist, hsound.listsProjects hlist, fun x hx hplain => ?_, ?_⟩
  · obtain ⟨r, hr, hsummarizes⟩ := exists_of_mem_forall₂ (summarizes_of_listProjects hlist) hx
    exact hsound.countsAgree ((orderBy_perm _ _).subset hr) hsummarizes hplain
  · intro r hr
    obtain ⟨f, hf⟩ := hsound.fossils r hr
    obtain ⟨counts, hcounts, htally⟩ := hsound.coherent.symbolTypeCounts_eq hr hf.fossilId
    exact ⟨f, _, counts, hf, hsound.coherent.symbolsForFossil_eq hr hf.fossilId, hcounts, htally⟩

/-- A project with a fossil of two functions, whose numbers are one and two. -/
theorem counts_agree_two_functions :
    let fresh (first : Nat) : Fresh :=
      ⟨fun k => ⟨BitVec.ofNat 128 (first + k)⟩, ⟨2024, 2, 29, 12, 0, 0, 0⟩⟩
    let raw := "\x7b\"symbols\":[\x7b\"name\":\"f\"\x7d,\x7b\"name\":\"g\"\x7d]\x7d"
    let s := (blank false false).run [⟨fresh 1, .register ⟨"demo", "/d", "rust"⟩⟩,
      ⟨fresh 2, .ingest "demo" raw none⟩]
    ∃ summaries, s.listProjects = .ok summaries ∧
      summaries.map (fun x => (x.project.name, x.fossilCount, x.symbolCount)) =
        [("demo", 1, 2)] ∧
      (∀ x ∈ summaries, s.CountsAgree x) ∧
      s.symbolTypeCounts ((fresh 2).id 0) = .ok [(.function, 2)] := by
  intro fresh raw s
  obtain ⟨summaries, hlist, -, hagree, -⟩ := counts_agree false false
    [⟨fresh 1, .register ⟨"demo", "/d", "rust"⟩⟩, ⟨fresh 2, .ingest "demo" raw none⟩] (by decide)
  have hlisted : s.listProjects = .ok summaries := hlist
  have hnumbers : s.listProjects.map
      (·.map fun x => (x.project.name, x.fossilCount, x.symbolCount)) = .ok [("demo", 1, 2)] := by
    unfold s raw fresh
    decide +kernel
  have hcounts : s.symbolTypeCounts ((fresh 2).id 0) = .ok [(.function, 2)] := by
    unfold s raw fresh
    decide +kernel
  rw [hlisted, Except.map, Except.ok.injEq] at hnumbers
  refine ⟨summaries, hlist, hnumbers, fun x hx => hagree x hx ?_, hcounts⟩
  have hname := List.mem_map_of_mem
    (f := fun x : ProjectSummary => (x.project.name, x.fossilCount, x.symbolCount)) hx
  rw [hnumbers, List.mem_singleton, Prod.mk.injEq] at hname
  rw [hname.1]
  decide

end FossilRecord.Store
