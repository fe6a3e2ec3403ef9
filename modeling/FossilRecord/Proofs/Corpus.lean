import FossilRecord.Proofs.Http.Answering
import FossilRecord.Proofs.Store.Counts
import FossilRecord.Proofs.Store.Recorded

/-!
# The corpus is the sum of its projects

The corpus is put together of a section for each project and of a tail about the query log.  What a
section shows is said field by field (`ShowsProject`), and where it is drawn from by what is read of
the project (`Covers`): nothing of another project, and nothing of the log, has a part in it
(`Covers.unique`).  The corpus of all projects is that of the active ones in the order of their
names.  `SumsProjects` says all this of a store, and `sumsProjects_run` that it is so after every
history.
-/

namespace FossilRecord.Corpus

open Store (Cell FossilRow ProjectRow QueryRow Failure Sound Readable ReadsFossil IsPlain Step)

/-! ## What a section shows -/

/-- Whether a text is the beginning of another one, as much of it as fits. -/
structure IsCut (text cut : String) : Prop where
  front : cut.toList <+: text.toList
  length : cut.length = min 500 text.length

/-- Whether there is a line with the beginning of a text, which is left out if the text is empty. -/
inductive ShowsUnlessEmpty (label text : String) : String → Prop where
  | empty (h : text = "") : ShowsUnlessEmpty label text ""
  | shown {cut : String} (h : text ≠ "") (hcut : IsCut text cut) :
      ShowsUnlessEmpty label text (label ++ ": " ++ cut ++ "\n")

/-- Whether a part of a section is about a fossil. -/
inductive ShowsFossil (f : Fossil) : String → Prop where
  | part {summary architecture issues changes : String} (hsummary : IsCut f.summary summary)
      (harchitecture : ShowsUnlessEmpty "Architecture" f.architecture architecture)
      (hissues : ShowsUnlessEmpty "Known issues" f.knownIssues issues)
      (hchanges : ShowsUnlessEmpty "Changes" f.recentChanges changes) :
      ShowsFossil f
        (line s!"\n--- Fossil v{f.version} ({f.createdAt.toOffset}) ---" ++
          line ("Summary: " ++ summary) ++ architecture ++ issues ++ changes ++
          line s!"Total files: {f.fileTree.length}, Total lines: {totalLines f.fileTree}")

/-- Whether a line counts the symbols of each type, and is left out if there are none. -/
inductive ShowsTally : List (SymbolType × Nat) → String → Prop where
  | none : ShowsTally [] ""
  | shown {counts : List (SymbolType × Nat)} (h : counts ≠ []) :
      ShowsTally counts (line ("Latest symbols: " ++
        ", ".intercalate (counts.map fun c => s!"{c.1.label}: {c.2}")))

/-- The lines that every section of a project starts with. -/
def heading (p : Project) : String :=
  line s!"\n=== PROJECT: {p.name} ===" ++ line ("Path: " ++ p.path) ++ line ("Stack: " ++ p.stack)

/-- Whether a text is the section of a project with some fossils and the counts of the symbols of the
latest one: it shows every fossil once and in their order, and then the counts. -/
inductive ShowsProject (p : Project) : List Fossil → List (SymbolType × Nat) → String → Prop where
  | bare (counts : List (SymbolType × Nat)) : ShowsProject p [] counts (heading p)
  | full {history : List Fossil} {counts : List (SymbolType × Nat)} {parts : List String}
      {tally : String} (hne : history ≠ []) (hparts : List.Forall₂ ShowsFossil history parts)
      (htally : ShowsTally counts tally) :
      ShowsProject p history counts
        (heading p ++ (line s!"\nFossil history ({history.length} versions):" ++
          String.join parts ++ tally))

theorem isCut_truncate (text : String) : IsCut text (Text.truncate text fieldBudget) where
  front := by
    rw [Text.truncate, String.toList_ofList]
    exact List.take_prefix _ _
  length := by
    rw [Text.truncate, String.length_ofList, List.length_take, String.length_toList, fieldBudget]

theorem showsUnlessEmpty_optionalLine (label text : String) :
    ShowsUnlessEmpty label text (optionalLine label text) := by
  unfold optionalLine
  split
  · rename_i hempty
    exact .empty hempty
  · rename_i hne
    exact .shown hne (isCut_truncate text)

theorem showsFossil_fossilPart (f : Fossil) : ShowsFossil f (fossilPart f) :=
  .part (isCut_truncate f.summary) (showsUnlessEmpty_optionalLine _ _)
    (showsUnlessEmpty_optionalLine _ _) (showsUnlessEmpty_optionalLine _ _)

theorem showsTally_tallyLine (counts : List (SymbolType × Nat)) :
    ShowsTally counts (tallyLine counts) := by
  cases counts with
  | nil => exact .none
  | cons c counts => exact .shown (List.cons_ne_nil c counts)

theorem showsProject_section (p : Project) (history : List Fossil)
    (counts : List (SymbolType × Nat)) :
    ShowsProject p history counts (section_ p history counts) := by
  cases history with
  | nil =>
      have hbare : section_ p [] counts = heading p := String.append_empty
      rw [hbare]
      exact .bare counts
  | cons f rest =>
      have hparts : List.Forall₂ ShowsFossil (f :: rest) ((f :: rest).map fossilPart) := by
        rw [List.forall₂_map_right_iff]
        exact List.forall₂_same.mpr fun g _ => showsFossil_fossilPart g
      exact .full (List.cons_ne_nil f rest) hparts (showsTally_tallyLine counts)

/-! ## What a section is drawn from -/

/-- Whether some fossils are all those of a project, in the order of their versions, and counts those
of the symbols of the latest one. -/
structure Covers (s : Store) (p : Project) (history : List Fossil)
    (counts : List (SymbolType × Nat)) : Prop where
  fossils : List.Forall₂ ReadsFossil (s.fossilRows (Cell.uuid p.projectId)) history
  versions : history.map Fossil.version = (List.range history.length).map fun (k : Nat) => (k : Int) + 1
  uncounted : history = [] → counts = []
  counted : ∀ latest ∈ history.getLast?, ∃ symbols,
    s.symbolsForFossil latest.fossilId = .ok (some symbols) ∧
      IsTally (symbols.map Symbol.kind) counts ∧ (counts = [] ↔ symbols = [])

/-- What a section is drawn from is the same in two stores that hold the same fossils of the project
and the same symbols of the latest one. -/
theorem Covers.unique {s t : Store} {p : Project} {history others : List Fossil}
    {counts counts' : List (SymbolType × Nat)} (h : Covers s p history counts)
    (ht : Covers t p others counts')
    (hrows : t.fossilRows (Cell.uuid p.projectId) = s.fossilRows (Cell.uuid p.projectId))
    (hsymbols : ∀ latest ∈ history.getLast?,
      t.symbolsForFossil latest.fossilId = s.symbolsForFossil latest.fossilId) :
    others = history ∧ counts' = counts := by
  have hothers : others = history := by
    have hfossils := ht.fossils
    rw [hrows] at hfossils
    exact List.right_unique_forall₂'
      (fun r f g hf hg => Except.ok.inj (hf.decode.symm.trans hg.decode)) hfossils h.fossils
  subst hothers
  refine ⟨rfl, ?_⟩
  cases hlatest : others.getLast? with
  | none =>
      have hnil := List.getLast?_eq_none_iff.mp hlatest
      rw [h.uncounted hnil, ht.uncounted hnil]
  | some latest =>
      obtain ⟨symbols, hread, htally, -⟩ := h.counted latest hlatest
      obtain ⟨symbols', hread', htally', -⟩ := ht.counted latest hlatest
      rw [hsymbols latest hlatest, hread] at hread'
      cases hread'
      exact htally'.unique htally

/-- The counts of the symbols of the latest fossil of a project. -/
def countsOf (s : Store) (p : Project) : List (SymbolType × Nat) :=
  match (s.history (Cell.uuid p.projectId)).getLast? with
  | some latest => (s.symbolTypeCounts latest.fossilId).toOption.getD []
  | none => []

/-- The section of a project, from its own fossils alone. -/
def sectionText (s : Store) (p : Project) : String :=
  section_ p (s.history (Cell.uuid p.projectId)) (countsOf s p)

section

variable {past : List Step} {s : Store}

/-- The versions of a history count from one. -/
theorem versions_history (h : Sound past s) (projectId : Cell) :
    (s.history projectId).map Fossil.version =
      (List.range (s.history projectId).length).map fun (k : Nat) => (k : Int) + 1 := by
  have hrows := Store.forall₂_filterMap_read? (h.reads_fossilRows projectId)
  have hcells : (s.fossilRows projectId).map FossilRow.version =
      ((s.history projectId).map Fossil.version).map Cell.integer := by
    rw [List.map_map]
    exact map_eq_map_of_forall₂ hrows fun r f hf => hf.version
  have hcount := h.coherent.versions projectId
  rw [Store.CountsUp, hcells, Store.versionsTo, hrows.length_eq] at hcount
  refine List.map_injective_iff.mpr (fun _ _ hversion => Cell.integer.inj hversion) ?_
  rw [hcount, List.map_map]
  rfl

/-- What a section is made of is what is read of the project. -/
theorem covers (h : Sound past s) (p : Project) :
    Covers s p (s.history (Cell.uuid p.projectId)) (countsOf s p) where
  fossils := Store.forall₂_filterMap_read? (h.reads_fossilRows _)
  versions := versions_history h _
  uncounted := by
    intro hnone
    rw [countsOf, hnone]
    rfl
  counted := by
    intro latest hlatest
    obtain ⟨row, hrow, hid, -, -⟩ := h.latest_row hlatest
    obtain ⟨counts, hcounts, htally⟩ := h.coherent.symbolTypeCounts_eq hrow hid
    have hcounted : countsOf s p = counts := by
      rw [countsOf, Option.mem_def.mp hlatest]
      simp only [hcounts]
      rfl
    rw [hcounted]
    refine ⟨_, h.coherent.symbolsForFossil_eq hrow hid, htally, ?_⟩
    rw [htally.eq_nil_iff, List.map_eq_nil_iff]

/-- The section of a project that is found under its own name is drawn from its own fossils. -/
theorem sectionOf_eq (h : Sound past s) {p : Project}
    (hfound : s.findProject p.name .strict = .ok (some p)) :
    sectionOf s p = .ok (sectionText s p) := by
  have hvalue : (Store.answerOf p.name (s.history (Cell.uuid p.projectId))).value?.getD [] =
      s.history (Cell.uuid p.projectId) := by
    rw [Store.answerOf]
    split
    · rename_i hnone
      rw [hnone]
      rfl
    · rfl
  rw [sectionOf, h.fossilHistory_eq hfound, sectionText, countsOf]
  simp only [bind, Except.bind, hvalue]
  cases hlatest : (s.history (Cell.uuid p.projectId)).getLast? with
  | none => rfl
  | some latest =>
      obtain ⟨row, hrow, hid, -, -⟩ := h.latest_row hlatest
      obtain ⟨counts, hcounts, -⟩ := h.coherent.symbolTypeCounts_eq hrow hid
      simp only [hcounts]
      rfl

/-- A project with a plain name is found under it. -/
theorem findProject_own (h : Sound past s) {r : ProjectRow} (hr : r ∈ s.projects) {p : Project}
    (hread : r.decode = .ok p) (hplain : IsPlain p.name) :
    s.findProject p.name .strict = .ok (some p) := by
  obtain ⟨rfl, hvalid⟩ := h.legible.eq_projectRow hr hread
  obtain ⟨q, hrow, hfound⟩ := h.findProject_self hr rfl hplain
  obtain ⟨-, -, hqvalid⟩ := h.legible.row_of_findProject hfound
  have hsame : p = q := by
    have hdecode := Store.decode_projectRow hqvalid
    rwa [← hrow, hread, Except.ok.injEq] at hdecode
  rwa [← hsame] at hfound

end

/-! ## The tail -/

/-- What the corpus says of the query log, whatever else is stored. -/
def tail (log : Option (List QueryRow)) : String :=
  let s := Store.empty.withLog log
  match s.queryUsage usageRows, s.recentQueries none recentRows with
  | .ok usage, .ok recent => usagePart usage ++ recentPart recent
  | _, _ => ""

theorem tail_eq {s : Store} {usage : List QueryUsage} {recent : List QueryLogEntry}
    (husage : s.queryUsage usageRows = .ok usage)
    (hrecent : s.recentQueries none recentRows = .ok recent) :
    tail s.queryLog = usagePart usage ++ recentPart recent := by
  -- both reads look at nothing but the log
  have husage' : (Store.empty.withLog s.queryLog).queryUsage usageRows = .ok usage := husage
  have hrecent' : (Store.empty.withLog s.queryLog).recentQueries none recentRows = .ok recent :=
    hrecent
  rw [tail]
  simp only [husage', hrecent']

/-! ## The whole corpus -/

/-- The project that a corpus of some projects is about, if it is a single one. -/
def only? : List Project → Option Uuid
  | [p] => some p.projectId
  | _ => none

section

variable {past : List Step} {s : Store}

theorem ofProjects_eq (h : Readable past s) {projects : List Project}
    (hfound : ∀ p ∈ projects, s.findProject p.name .strict = .ok (some p)) :
    ofProjects s projects =
      .ok ⟨String.join (projects.map (sectionText s)) ++ tail s.queryLog, only? projects⟩ := by
  have hsections : projects.mapM (sectionOf s) = .ok (projects.map (sectionText s)) :=
    mapM_eq_ok fun p hp => sectionOf_eq h.sound (hfound p hp)
  obtain ⟨usage, husage⟩ := h.queryUsage_total usageRows
  obtain ⟨recent, hrecent⟩ := h.recentQueries_total none recentRows
  unfold ofProjects
  rw [hsections, tail_eq husage hrecent, ← String.append_assoc]
  simp only [bind, Except.bind, husage, hrecent]
  rfl

/-- The corpus of a project is its section and the tail. -/
theorem build_some_eq (h : Readable past s) {name : String} {p : Project}
    (hfound : s.findProject name .strict = .ok (some p)) :
    build s (some name) =
      .ok (.found ⟨sectionText s p ++ tail s.queryLog, some p.projectId⟩) := by
  obtain ⟨-, hrow, hvalid⟩ := h.sound.legible.row_of_findProject hfound
  have hown := findProject_own h.sound (Store.mem_of_projectRow? hrow)
    (Store.decode_projectRow hvalid) (h.sound.isPlain_of_findProject hfound)
  have hprojects : ∀ q ∈ [p], s.findProject q.name .strict = .ok (some q) := by
    simpa using hown
  rw [build, hfound]
  simp only [bind, Except.bind, ofProjects_eq h hprojects, Except.map, only?]
  simp [String.join]

/-- The corpus of all projects is the sections of the active ones and the tail. -/
theorem build_none_eq (h : Readable past s)
    (hplain : ∀ r ∈ s.projects, ∀ p, r.decode = .ok p → IsPlain p.name) :
    ∃ active : List Project,
      (∀ p, p ∈ active ↔ (∃ r ∈ s.projects, r.decode = .ok p) ∧ p.status = .active) ∧
      (active.Pairwise fun p q => Text.octets p.name < Text.octets q.name) ∧
      build s none = .ok (.found
        ⟨String.join (active.map (sectionText s)) ++ tail s.queryLog, only? active⟩) := by
  obtain ⟨summaries, hlist⟩ := h.sound.legible.listProjects_total
  have hmem : ∀ p, p ∈ (summaries.map ProjectSummary.project).filter (·.status = .active) ↔
      (∃ r ∈ s.projects, r.decode = .ok p) ∧ p.status = .active := by
    intro p
    rw [List.mem_filter, List.mem_map, Store.exists_mem_listProjects hlist, decide_eq_true_eq]
  have hascending : (summaries.map ProjectSummary.project).Pairwise fun p q =>
      Text.octets p.name < Text.octets q.name :=
    List.pairwise_map.mpr (h.sound.listsProjects hlist).ascending
  refine ⟨_, hmem, hascending.filter _, ?_⟩
  have hfound : ∀ p ∈ (summaries.map ProjectSummary.project).filter (·.status = .active),
      s.findProject p.name .strict = .ok (some p) := by
    intro p hp
    obtain ⟨⟨r, hr, hread⟩, -⟩ := (hmem p).mp hp
    exact findProject_own h.sound hr hread (hplain r hr p hread)
  rw [build, hlist]
  simp only [bind, Except.bind, ofProjects_eq h hfound, Except.map]

end

/-! ## Asking for a corpus -/

section

variable {r : Http.Request} {q : Http.Question} {s : Store}

/-- A request for a corpus is answered with it, and logged afterwards. -/
theorem respond_of_build (h : Http.Question.ofRequest r = .ok q) (hroute : q.route = .analysis)
    (hmethod : r.method = "GET") {c : Corpus}
    (hbuild : build s (Http.value? q.query "project") = .ok (.found c)) (fresh : Fresh)
    (around : Http.Surroundings) :
    Http.respond s fresh around r = (.text 200 c.text, s.logQuietly fresh q.logEntry) := by
  have hread : q.read s around = .text 200 c.text := by
    simp [Http.Question.read, hroute, Http.corpus, Http.fromStore, Http.found, hbuild, bind,
      Except.bind]
  rw [Http.respond_of_reading h hmethod, Http.Question.answer, hroute]
  simp only [hread]
  rfl

/-- A request for the corpus of a project that there is not is refused, and leaves no trace. -/
theorem respond_of_missing (h : Http.Question.ofRequest r = .ok q) (hroute : q.route = .analysis)
    (hmethod : r.method = "GET") {name : String}
    (hbuild : build s (Http.value? q.query "project") = .ok (.projectNotFound name))
    (fresh : Fresh) (around : Http.Surroundings) :
    Http.respond s fresh around r =
      (.ofRefusal (.notFound s!"project '{name}' not found"), s) := by
  have hread : q.read s around = .ofRefusal (.notFound s!"project '{name}' not found") := by
    simp [Http.Question.read, hroute, Http.corpus, Http.fromStore, Http.found, Lookup.missing?,
      hbuild, bind, Except.bind]
  rw [Http.respond_of_reading h hmethod, Http.Question.answer, hroute]
  simp only [hread]
  rfl

end

/-! ## Whole histories -/

/-- Whether the corpora of a store are put together of sections of its projects and of a tail. -/
structure SumsProjects (s : Store) : Prop where
  /-- A section shows the fossils of its project and the counts of the symbols of the latest one. -/
  shown : ∀ p, ∃ history counts, Covers s p history counts ∧
    ShowsProject p history counts (sectionText s p)
  /-- No other project, and no log, has a part in a section: any store that holds the same of the
  project gives the same section. -/
  own : ∀ p t history counts, Covers t p history counts →
    s.fossilRows (Cell.uuid p.projectId) = t.fossilRows (Cell.uuid p.projectId) →
    (∀ latest ∈ history.getLast?,
      s.symbolsForFossil latest.fossilId = t.symbolsForFossil latest.fossilId) →
    sectionText s p = section_ p history counts
  logged : ∃ usage recent, s.queryUsage usageRows = .ok usage ∧
    s.recentQueries none recentRows = .ok recent ∧
    tail s.queryLog = usagePart usage ++ recentPart recent
  named : ∀ name p, s.findProject name .strict = .ok (some p) →
    build s (some name) = .ok (.found ⟨sectionText s p ++ tail s.queryLog, some p.projectId⟩)
  unnamed : ∀ name, (∃ p, s.findProject name .strict = .ok (some p)) ∨
    s.findProject name .strict = .ok none ∧ build s (some name) = .ok (.projectNotFound name)
  all : ∃ active : List Project,
    (∀ p, p ∈ active ↔ (∃ r ∈ s.projects, r.decode = .ok p) ∧ p.status = .active) ∧
    (active.Pairwise fun p q => Text.octets p.name < Text.octets q.name) ∧
    build s none = .ok (.found
      ⟨String.join (active.map (sectionText s)) ++ tail s.queryLog, only? active⟩)
  /-- Who asks for a corpus gets the one before the question is logged. -/
  asked : ∀ r q, Http.Question.ofRequest r = .ok q → q.route = .analysis → r.method = "GET" →
    ∀ fresh around, ∃ answer, build s (Http.value? q.query "project") = .ok answer ∧
      (∀ c, answer = .found c →
        Http.respond s fresh around r = (.text 200 c.text, s.logQuietly fresh q.logEntry)) ∧
      ∀ name, answer = .projectNotFound name →
        Http.respond s fresh around r =
          (.ofRefusal (.notFound s!"project '{name}' not found"), s)

theorem sumsProjects {past : List Step} {s : Store} (h : Readable past s)
    (hplain : ∀ r ∈ s.projects, ∀ p, r.decode = .ok p → IsPlain p.name) : SumsProjects s where
  shown p := ⟨_, _, covers h.sound p, showsProject_section p _ _⟩
  own p t history counts ht hrows hsymbols := by
    obtain ⟨hhistory, hcounts⟩ := ht.unique (covers h.sound p) hrows hsymbols
    rw [sectionText, hhistory, hcounts]
  logged := by
    obtain ⟨usage, husage⟩ := h.queryUsage_total usageRows
    obtain ⟨recent, hrecent⟩ := h.recentQueries_total none recentRows
    exact ⟨usage, recent, husage, hrecent, tail_eq husage hrecent⟩
  named name p hfound := build_some_eq h hfound
  unnamed name := by
    obtain ⟨found, hfound⟩ := h.sound.legible.findProject_total name .strict
    cases found with
    | some p => exact .inl ⟨p, hfound⟩
    | none =>
        refine .inr ⟨hfound, ?_⟩
        rw [build, hfound]
        rfl
  all := build_none_eq h hplain
  asked r q hr hroute hmethod fresh around := by
    obtain ⟨answer, hanswer⟩ := h.build_total (Http.value? q.query "project")
    refine ⟨answer, hanswer, ?_, ?_⟩
    · rintro c rfl
      exact respond_of_build hr hroute hmethod hanswer fresh around
    · rintro name rfl
      exact respond_of_missing hr hroute hmethod hanswer fresh around

/-- After every history in which the names of the projects lead back to them, the corpora are the sums
of the sections of their projects and of the tail. -/
theorem sumsProjects_run (u v : Bool) {steps : List Step}
    (hsteps : ∀ step ∈ steps, step.IsWritable)
    (hplain : ∀ r ∈ ((Store.blank u v).run steps).projects, ∀ p, r.decode = .ok p →
      IsPlain p.name) :
    SumsProjects ((Store.blank u v).run steps) :=
  sumsProjects ((Readable.blank u v).run hsteps) hplain

/-- Two projects are active and one is not, which has a corpus nevertheless. -/
theorem sumsProjects_run_inactive :
    let fresh (first : Nat) : Fresh :=
      ⟨fun k => ⟨BitVec.ofNat 128 (first + k)⟩, ⟨2024, 2, 29, 12, 0, first, 0⟩⟩
    let raw := "\x7b\"summary\":\"s\",\"symbols\":[\x7b\"name\":\"f\"\x7d]\x7d"
    let steps : List Step := [⟨fresh 1, .register ⟨"beta", "/b", "rust"⟩⟩,
      ⟨fresh 2, .register ⟨"alpha", "/a", "go"⟩⟩, ⟨fresh 3, .register ⟨"gone", "/g", "c"⟩⟩,
      ⟨fresh 4, .ingest "gone" raw none⟩, ⟨fresh 6, .setStatus "gone" .inactive⟩,
      ⟨fresh 7, .log ⟨"list_projects", none, none⟩⟩]
    let s := (Store.blank false false).run steps
    let gone : Project := ⟨⟨BitVec.ofNat 128 3⟩, "gone", "/g", "c", .inactive, some (fresh 4).now⟩
    (∀ step ∈ steps, step.IsWritable) ∧
      (∀ r ∈ s.projects, ∀ p, r.decode = .ok p → IsPlain p.name) ∧
      build s (some "gone") =
        .ok (.found ⟨sectionText s gone ++ tail s.queryLog, some gone.projectId⟩) ∧
      build s (some "ghost") = .ok (.projectNotFound "ghost") := by
  intro fresh raw steps s gone
  have hwritable : ∀ step ∈ steps, step.IsWritable := by
    simp only [steps, List.forall_mem_cons]
    exact ⟨⟨by decide, by simp⟩, ⟨by decide, by simp⟩, ⟨by decide, by simp⟩, ⟨by decide, by simp⟩,
      ⟨by decide, by simp⟩, ⟨by decide, by simp⟩, by simp⟩
  have hplain : ∀ r ∈ s.projects, ∀ p, r.decode = .ok p → IsPlain p.name := by
    have hnames : ∀ r ∈ s.projects, ∀ p ∈ r.decode.toOption, IsPlain p.name := by
      decide +kernel
    exact fun r hr p hp => hnames r hr p (by rw [hp]; rfl)
  have hsums : SumsProjects s := sumsProjects_run false false hwritable hplain
  have hgone : s.findProject "gone" .strict = .ok (some gone) := by decide +kernel
  have hghost : s.findProject "ghost" .strict = .ok none := by decide +kernel
  refine ⟨hwritable, hplain, hsums.named "gone" gone hgone, ?_⟩
  rcases hsums.unnamed "ghost" with ⟨p, hp⟩ | ⟨-, hmissing⟩
  · rw [hghost] at hp
    cases hp
  · exact hmissing

end FossilRecord.Corpus
