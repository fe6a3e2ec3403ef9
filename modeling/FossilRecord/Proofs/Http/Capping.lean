import FossilRecord.Command.Run
import FossilRecord.Proofs.Http.Missing
import FossilRecord.Proofs.Source.Scan
import FossilRecord.Proofs.Store.Newest
import FossilRecord.Proofs.Store.Spelling
import Mathlib.Data.Set.List

/-!
# Answers that are cut off

Three tools show no more than so many rows: the lookup in the sources, the search of the latest
fossil and the listing of insights.  Each of them shows the first rows of a full answer, which there
is a way to get: the command that looks up, the search of the store, and the listing without a limit.

`capped_prefixes` states so for every request that reaches one of them, together with what the two
ways of looking up have to do with each other.
-/

namespace FossilRecord

/-! ## The two ways of looking up -/

namespace Source

theorem isSought_of_exact {query : String} {x : LiveSymbol} (h : isSought query true x = true) :
    isSought query false x = true := by
  obtain rfl : x.name = query := by simpa [isSought] using h
  simpa [isSought] using Text.contains_self (Text.lower x.name)

/-- What is looked for by a name is looked for by a part of it as well. -/
theorem filter_exact_sublist (query : String) (xs : List LiveSymbol) :
    (xs.filter (isSought query true)).Sublist (xs.filter (isSought query false)) :=
  List.monotone_filter_right xs fun _ => isSought_of_exact

/-- Whether both ways of looking up pick from a scan, and the strict one picks from what the other
one gives. -/
structure Narrows (d : Disk) (folder : Disk.Place) (path query : String)
    (scanned : List LiveSymbol) : Prop where
  narrow : ∃ exact loose, findSymbol d folder path query true = .ok exact ∧
    findSymbol d folder path query false = .ok loose ∧ exact.Sublist loose ∧
    loose.Sublist scanned ∧ exact.Sublist scanned

theorem narrows {d : Disk} {folder : Disk.Place} {path : String} {scanned : List LiveSymbol}
    (hscan : scan d folder path none = .ok scanned) (query : String) :
    Narrows d folder path query scanned := by
  have hfind : ∀ exact, findSymbol d folder path query exact =
      .ok (scanned.filter (isSought query exact)) := by
    intro exact
    rw [findSymbol, hscan]
    rfl
  exact ⟨_, _, hfind true, hfind false, filter_exact_sublist query scanned, List.filter_sublist,
    List.filter_sublist⟩

end Source

/-! ## Insights up to a limit -/

namespace Store

/-- A listing with a limit shows the first rows of the one without. -/
theorem listInsights_limited {s : Store} (h : s.InsightsLegible) (projectId : Option Uuid)
    (insightType : Option String) {limit : Nat} (hlimit : limit < 2 ^ 63) :
    ∃ all, s.listInsights ⟨projectId, insightType, none⟩ = .ok all ∧
      s.listInsights ⟨projectId, insightType, some limit⟩ = .ok (all.take limit) := by
  let wanted := newestFirst InsightRow.createdAt
    (s.insights.filter (InsightQuery.wants ⟨projectId, insightType, none⟩))
  have hwanted : wanted ∈ Set.range
      (List.map fun i : { i : Insight // i.createdAt.IsValid } => insightRow i.1) := by
    rw [Set.range_list_map]
    intro r hr
    obtain ⟨i, rfl, hi⟩ := h r (List.mem_of_mem_filter (mem_of_mem_newestFirst hr))
    exact ⟨⟨i, hi⟩, rfl⟩
  obtain ⟨read, hread⟩ := hwanted
  have hall : (read.map Subtype.val).map insightRow = wanted := by
    rw [List.map_map]
    exact hread
  have hreads : ∀ i ∈ read.map Subtype.val,
      (insightRow i).typed = .ok (typedInsight i) ∧ (typedInsight i).decode = .ok i := by
    intro i hi
    obtain ⟨j, -, rfl⟩ := List.mem_map.mp hi
    exact ⟨typed_insightRow _, decode_typedInsight j.2⟩
  generalize read.map Subtype.val = all at hall hreads
  refine ⟨all, ?_, ?_⟩
  · have hlisted := mapM_typed_decode hreads
    rw [hall] at hlisted
    exact hlisted
  · have hlisted := mapM_typed_decode fun i (hi : i ∈ all.take limit) =>
      hreads i (List.mem_of_mem_take hi)
    have hcut : (all.take limit).map insightRow = limited limit wanted := by
      rw [limited, if_pos (show limit < Nat.pow 2 63 from hlimit), ← hall, List.map_take]
    rw [hcut] at hlisted
    exact hlisted

/-- The insights that a history recorded can be read. -/
theorem insightsLegible_run (u v : Bool) {steps : List Step}
    (hclock : ∀ step ∈ steps, step.fresh.now.IsValid) :
    ((blank u v).run steps).InsightsLegible := by
  intro r hr
  rw [run_insights] at hr
  obtain ⟨i, hi, rfl⟩ := List.mem_map.mp hr
  obtain ⟨step, hstep, hnow⟩ :=
    List.mem_map.mp ((insight_times _ _).subset (List.mem_map_of_mem hi))
  exact ⟨i, rfl, hnow ▸ hclock step hstep⟩

end Store

namespace Http

open Store (Sound IsPlain Step Cell)
open Source (LiveSymbol)

/-! ## Lookups in the sources -/

/-- Whether an answer shows the first fifty of the symbols that were found and how many it shows, with
a note if there are more. -/
structure ShowsFound (found : List LiveSymbol) (shown : Json) : Prop where
  first : shown.field? "matches" =
    some (.list ((found.take (min 50 found.length)).map LiveSymbol.toJson))
  count : shown.field? "count" = some (.nat (min 50 found.length))
  note : (shown.field? "note").isSome ↔ 50 < found.length

/-- Whether a response is the answer to a lookup: it succeeds if a symbol is given and the name leads
to an active project whose folder is there, and shows the front of what the command for lookups
prints. -/
structure AnswersLookup (s : Store) (around : Surroundings) (name symbol : String) (exact : Bool)
    (response : Response) : Prop where
  succeeds : response.status = 200 ↔ Text.isBlankText symbol = false ∧
    ∃ p, s.findProject name .fuzzy = .ok (some p) ∧
      (around.disk.folder? around.folder p.path).isSome
  shows : response.status = 200 → ∃ p found shown, s.findProject name .fuzzy = .ok (some p) ∧
    Source.findSymbol around.disk around.folder p.path symbol exact = .ok found ∧
    (∀ env input, Command.lookupSymbol ⟨around.disk, around.folder, env, input⟩ s name symbol exact =
      .ok (Command.printed (.list (found.map LiveSymbol.toJson)))) ∧
    response = .json 200 shown ∧ ShowsFound found shown

section

variable {s : Store} {around : Surroundings} {name symbol : String} {exact : Bool}

/-- The front of a list is as long as the list, or as the limit. -/
theorem take_min_length {α : Type} (limit : Nat) (rows : List α) :
    rows.take (min limit rows.length) = rows.take limit := by
  rw [← List.take_take, List.take_length]

theorem findSymbol_of_folder {d : Disk} {folder root : Disk.Place} {path : String}
    (hroot : d.folder? folder path = some root) (query : String) (exact : Bool) :
    ∃ found, Source.findSymbol d folder path query exact = .ok found := by
  rw [Source.findSymbol, Source.scan, hroot]
  exact ⟨_, rfl⟩

/-- A lookup of a symbol in the sources of a project shows the front of what is found there. -/
theorem lookupSymbol_of_found {p : Project} {found : List LiveSymbol}
    (hsymbol : Text.isBlankText symbol = false)
    (hfuzzy : s.findProject name .fuzzy = .ok (some p))
    (hfound : Source.findSymbol around.disk around.folder p.path symbol exact = .ok found) :
    ∃ shown, lookupSymbol s around name symbol exact = .ok shown ∧ ShowsFound found shown := by
  rw [lookupSymbol, hsymbol, resolveProject_eq hfuzzy]
  simp only [Bool.false_eq_true, if_false, bind, Except.bind, hfound]
  refine ⟨_, rfl, ?_⟩
  have hlength : (found.take lookupLimit).length = min 50 found.length := List.length_take
  constructor
  · rw [take_min_length]
    rfl
  · rw [← hlength]
    rfl
  · by_cases hmore : lookupLimit < found.length
    · rw [if_pos hmore]
      exact iff_of_true rfl hmore
    · rw [if_neg hmore]
      exact iff_of_false Bool.false_ne_true hmore

/-- A lookup succeeds if a symbol is given, the name leads to an active project and its folder is
there. -/
theorem answersLookup (s : Store) (around : Surroundings) (name symbol : String) (exact : Bool)
    (htotal : ∃ found, s.findProject name .fuzzy = .ok found) :
    AnswersLookup s around name symbol exact
      (.ofOutcome 200 (lookupSymbol s around name symbol exact)) := by
  obtain ⟨found?, hfuzzy⟩ := htotal
  cases hsymbol : Text.isBlankText symbol with
  | true =>
      have hrefused : lookupSymbol s around name symbol exact =
          .error (.badRequest "symbol must not be empty") := by
        rw [lookupSymbol, hsymbol]
        rfl
      rw [hrefused]
      exact ⟨iff_of_false (by decide) (by simp [hsymbol]), fun h => absurd h (by decide)⟩
  | false =>
      cases found? with
      | none =>
          have hrefused : lookupSymbol s around name symbol exact = .error (noProject name) := by
            rw [lookupSymbol, hsymbol, resolveProject_of_unknown hfuzzy]
            rfl
          rw [hrefused]
          exact ⟨iff_of_false (of_decide_eq_false rfl) (by simp [hfuzzy]),
            fun h => absurd h (of_decide_eq_false rfl)⟩
      | some p =>
          cases hroot : around.disk.folder? around.folder p.path with
          | none =>
              have hrefused : lookupSymbol s around name symbol exact =
                  .error (.notFound s!"project path not found: {p.path}") := by
                rw [lookupSymbol, hsymbol, resolveProject_eq hfuzzy]
                simp only [Source.findSymbol, Source.scan, hroot, bind, Except.bind,
                  Bool.false_eq_true, if_false]
              rw [hrefused]
              exact ⟨iff_of_false (of_decide_eq_false rfl) (by simp [hfuzzy, hroot]),
                fun h => absurd h (of_decide_eq_false rfl)⟩
          | some root =>
              obtain ⟨found, hfound⟩ := findSymbol_of_folder hroot symbol exact
              obtain ⟨shown, hshown, hfront⟩ := lookupSymbol_of_found hsymbol hfuzzy hfound
              rw [hshown]
              refine ⟨iff_of_true rfl ⟨hsymbol, p, hfuzzy, by rw [hroot]; rfl⟩, fun _ => ?_⟩
              refine ⟨p, found, shown, hfuzzy, hfound, fun env input => ?_, rfl, hfront⟩
              rw [Command.lookupSymbol, Command.requireProject, hfuzzy]
              simp only [Command.fromStore, bind, Except.bind, hfound]

end

/-! ## Searches of the latest fossil -/

/-- Whether a response is the answer to a search: it shows the first twenty of the symbols that the
store finds under the stored name of the project, all of which are of this project, and there is no
other reason to show nothing than that no project is there or that it has no fossil. -/
structure AnswersContext (s : Store) (name part : String) (response : Response) : Prop where
  unknown : s.findProject name .fuzzy = .ok none → response.status = 404
  shows : ∀ p, s.findProject name .fuzzy = .ok (some p) →
    (s.searchSymbols p.name part = .ok (.noFossil p.name) ∧ response.status = 404) ∨
    ∃ rows, s.searchSymbols p.name part = .ok (.found rows) ∧
      (∀ x ∈ rows, x.projectId = p.projectId) ∧
      response = .json 200 (.list ((rows.take (min 20 rows.length)).map Symbol.toJson))

/-- Symbols are searched for in the project that was found, if its name is plain. -/
theorem answersContext {past : List Step} {s : Store} (h : Sound past s) {name : String}
    (hplain : ∀ p, s.findProject name .fuzzy = .ok (some p) → IsPlain p.name) (part : String) :
    AnswersContext s name part (.ofOutcome 200 (symbolContext s name part)) where
  unknown hfuzzy := by
    rw [symbolContext, resolveProject_of_unknown hfuzzy]
    rfl
  shows p hfuzzy := by
    obtain ⟨-, hrow, -⟩ := h.legible.row_of_findProject hfuzzy
    -- the second look under the stored name leads to the same project
    obtain ⟨again, hsame, hfound⟩ :=
      h.findProject_self (Store.mem_of_projectRow? hrow) rfl (hplain p hfuzzy)
    have hname : p.name = again.name := Cell.text.inj (congrArg Store.ProjectRow.name hsame)
    have hid : p.projectId = again.projectId :=
      Uuid.toString_injective (Cell.text.inj (congrArg Store.ProjectRow.projectId hsame))
    by_cases hnone : s.fossilRows (Cell.uuid again.projectId) = []
    · left
      have hsearch : s.searchSymbols p.name part = .ok (.noFossil again.name) :=
        Store.findSymbols_of_noFossil h.coherent hfound hnone _ _
      refine ⟨hsearch.trans (by rw [hname]), ?_⟩
      rw [symbolContext, resolveProject_eq hfuzzy]
      simp only [bind, Except.bind, hsearch]
      rfl
    · right
      obtain ⟨latest, hlistings⟩ := h.searchesListings hfound hnone
      have hsearch := hlistings.searchSymbols part
      refine ⟨_, hsearch, ?_, ?_⟩
      · intro x hx
        rw [hid]
        exact (hlistings.ids latest (List.mem_of_getLast? hlistings.latestIsLast) x
          (List.mem_of_mem_filter hx)).2
      · rw [symbolContext, resolveProject_eq hfuzzy]
        simp only [bind, Except.bind, hsearch, take_min_length]
        rfl

/-! ## Insights -/

/-- Which insights a request is for: the global ones, or those of the active project that a name
leads to as well. -/
inductive IsScope (s : Store) : Option String → Option Uuid → Prop where
  | globalOnly : IsScope s none none
  | project {name : String} {p : Project} (hfuzzy : s.findProject name .fuzzy = .ok (some p)) :
      IsScope s (some name) (some p.projectId)

/-- Whether a response is the answer to a request for insights: it shows the first twenty of those
that are listed without a limit. -/
structure AnswersInsights (s : Store) (name insightType : Option String) (response : Response) :
    Prop where
  unknown : ∀ own, name = some own → s.findProject own .fuzzy = .ok none → response.status = 404
  shows : ∀ projectId, IsScope s name projectId →
    ∃ all, s.listInsights ⟨projectId, insightType, none⟩ = .ok all ∧
      response = .json 200 (.list ((all.take (min 20 all.length)).map Insight.toJson))

theorem answersInsights {s : Store} (h : s.InsightsLegible) (name insightType : Option String) :
    AnswersInsights s name insightType (.ofOutcome 200 (insights s name insightType)) where
  unknown own hname hfuzzy := by
    rw [hname, insights, resolveProject_of_unknown hfuzzy]
    rfl
  shows projectId hscope := by
    have hlimit : insightLimit < 2 ^ 63 := by decide
    obtain ⟨all, hall, hlimited⟩ := Store.listInsights_limited h projectId insightType hlimit
    refine ⟨all, hall, ?_⟩
    rw [take_min_length]
    cases hscope with
    | globalOnly =>
        simp only [insights, bind, Except.bind, hlimited]
        rfl
    | project hfuzzy =>
        rw [insights, resolveProject_eq hfuzzy]
        simp only [Except.map, bind, Except.bind, hlimited]
        rfl

/-! ## All three -/

/-- After any history of projects without blanks at the ends of their names, a request for reading
that reaches one of the three tools is answered with the front of the full answer.  Looking up a name
gives no more than looking up a part, and both give what a scan gives, in its order. -/
theorem capped_prefixes (uniqueSummaries uniqueSymbolNames : Bool) (steps : List Step)
    (hclock : ∀ step ∈ steps, step.fresh.now.IsValid)
    (hnames : ∀ row ∈ ((Store.blank uniqueSummaries uniqueSymbolNames).run steps).projects,
      ∀ own ∈ row.name.text?, Text.trim own = own)
    (r : Request) (q : Question) (hmethod : r.method = "GET")
    (hreached : Question.ofRequest r = .ok q) (fresh : Fresh) (around : Surroundings) :
    let s := (Store.blank uniqueSummaries uniqueSymbolNames).run steps
    let response := (respond s fresh around r).1
    (∀ written, q.route = .lookup written →
      AnswersLookup s around q.name (q.value "symbol") (isSet q.query "exact") response) ∧
    (∀ written, q.route = .context written →
      AnswersContext s q.name (q.value "symbol") response) ∧
    (q.route = .insights →
      AnswersInsights s (value? q.query "project") (value? q.query "insight_type") response) ∧
    ∀ d folder path query scanned, Source.scan d folder path none = .ok scanned →
      Source.Narrows d folder path query scanned := by
  intro s response
  have hs : Sound ([] ++ steps) s := (Sound.blank uniqueSummaries uniqueSymbolNames).run hclock
  have hread : q.route ≠ .analysis → (∀ written, q.route ≠ .fossils written) →
      response = q.read s around :=
    fun hroute hreads => respond_of_get hmethod hreached hroute hreads fresh around
  refine ⟨fun written hroute => ?lookup, fun written hroute => ?context, fun hroute => ?insights,
    fun d folder path query scanned hscan => Source.narrows hscan query⟩
  case lookup =>
    rw [hread (by simp [hroute]) (by simp [hroute]), Question.read, hroute]
    exact answersLookup s around _ _ _ (hs.legible.findProject_total _ _)
  case context =>
    rw [hread (by simp [hroute]) (by simp [hroute]), Question.read, hroute]
    refine answersContext hs (fun p hfuzzy => ?_) _
    obtain ⟨-, hrow, -⟩ := hs.legible.row_of_findProject hfuzzy
    exact ⟨hs.name_ne_empty_of_findProject hfuzzy,
      hnames _ (Store.mem_of_projectRow? hrow) p.name rfl⟩
  case insights =>
    rw [hread (by simp [hroute]) (by simp [hroute]), Question.read, hroute]
    exact answersInsights (Store.insightsLegible_run uniqueSummaries uniqueSymbolNames hclock) _ _

/-- There is one more insight than are shown, and a function in the sources. -/
theorem capped_prefixes_one_more :
    let fresh (first : Nat) : Fresh :=
      ⟨fun k => ⟨BitVec.ofNat 128 (first + k)⟩, ⟨2024, 2, 29, 12, 0, 0, 0⟩⟩
    let steps : List Step := ⟨fresh 1, .register ⟨"demo", "/d", "python"⟩⟩ ::
      (List.range 21).map fun k =>
        ⟨fresh (2 + k), .insight ⟨none, none, Insight.pattern, "c", none, []⟩⟩
    let s := (Store.blank false false).run steps
    let d : Disk :=
      ⟨[(["d"], .folder), (["d", "a.py"], .file (Text.octets "def alpha():\n  pass\n"))]⟩
    let asked (target : String) : Response := (respond s (fresh 30) ⟨d, []⟩ ⟨"GET", target, []⟩).1
    (∃ all, s.listInsights ⟨none, none, none⟩ = .ok all ∧ all.length = 21 ∧
      asked "/insights" = .json 200 (.list ((all.take 20).map Insight.toJson))) ∧
    ∃ found shown, asked "/projects/DEMO/symbols/lookup?symbol=ALPHA" = .json 200 shown ∧
      found.map LiveSymbol.name = ["alpha"] ∧ ShowsFound found shown := by
  intro fresh steps s d asked
  have hclock : ∀ step ∈ steps, step.fresh.now.IsValid := by decide +kernel
  have hprojects : s.projects = [Store.newProjectRow (fresh 1) ⟨"demo", "/d", "python"⟩] := by
    decide +kernel
  have hnames : ∀ row ∈ s.projects, ∀ own ∈ row.name.text?, Text.trim own = own := by
    rw [hprojects]
    decide +kernel
  constructor
  · have hreached : Question.ofRequest ⟨"GET", "/insights", []⟩ =
        .ok ⟨.insights, "", (Target.ofString "/insights").query, ""⟩ :=
      Question.ofRequest_eq (by decide +kernel) rfl (by decide +kernel) (by decide +kernel)
        (by simp)
    obtain ⟨-, -, hinsights, -⟩ :=
      capped_prefixes false false steps hclock hnames _ _ rfl hreached (fresh 30) ⟨d, []⟩
    have hquery : value? (Target.ofString "/insights").query "project" = none ∧
        value? (Target.ofString "/insights").query "insight_type" = none := by decide +kernel
    have hanswer := hinsights rfl
    simp only [hquery] at hanswer
    obtain ⟨all, hall, hshown⟩ := hanswer.shows none .globalOnly
    have hlength : all.length = 21 := by
      have htime : Store.KeepsTime steps := ⟨by decide +kernel, by decide +kernel⟩
      have hlisted := Store.listInsights_eq false false htime ⟨none, none, none⟩
      rw [Except.ok.inj (hall.symm.trans hlisted)]
      decide +kernel
    rw [hlength] at hshown
    exact ⟨all, hall, hlength, hshown⟩
  · have hreached : Question.ofRequest ⟨"GET", "/projects/DEMO/symbols/lookup?symbol=ALPHA", []⟩ =
        .ok ⟨.lookup "DEMO", "DEMO",
          (Target.ofString "/projects/DEMO/symbols/lookup?symbol=ALPHA").query, ""⟩ :=
      Question.ofRequest_eq (by decide +kernel) rfl (by decide +kernel) (by decide +kernel)
        (by simp)
    obtain ⟨hlookup, -⟩ :=
      capped_prefixes false false steps hclock hnames _ _ rfl hreached (fresh 30) ⟨d, []⟩
    have hanswer := hlookup "DEMO" rfl
    have hsymbol : (⟨.lookup "DEMO", "DEMO",
        (Target.ofString "/projects/DEMO/symbols/lookup?symbol=ALPHA").query, ""⟩ :
        Question).value "symbol" = "ALPHA" ∧
        isSet (Target.ofString "/projects/DEMO/symbols/lookup?symbol=ALPHA").query "exact" =
          false := by decide +kernel
    simp only [hsymbol] at hanswer
    have hdemo : s.findProject "DEMO" .fuzzy =
        .ok (some ⟨(fresh 1).id 0, "demo", "/d", "python", .active, none⟩) := by
      unfold Store.findProject Store.projectRow?
      rw [hprojects]
      decide +kernel
    have hroot : d.folder? [] "/d" = some ["d"] := by decide +kernel
    obtain ⟨p, found, shown, hfuzzy, hfound, -, hshown, hfront⟩ := hanswer.shows
      (hanswer.succeeds.mpr ⟨by decide +kernel, _, hdemo, by rw [hroot]; rfl⟩)
    rw [hdemo] at hfuzzy
    cases hfuzzy
    have hfiles : Source.sourceFiles d ["d"] none = [["a.py"]] := by
      have hwalk : (Source.filesBelow d ["d"] d.levels []).filter (Source.isSource none) =
          [["a.py"]] := by decide +kernel
      rw [Source.sourceFiles, hwalk, List.mergeSort_singleton]
    have halpha : Source.findSymbol d [] "/d" "ALPHA" false =
        .ok [⟨"a.py", 1, .function, "alpha", some "()"⟩] := by
      rw [Source.findSymbol, Source.scan_eq hroot, hfiles]
      decide +kernel
    have hone : found = [⟨"a.py", 1, .function, "alpha", some "()"⟩] :=
      Except.ok.inj (hfound.symm.trans halpha)
    exact ⟨found, shown, hshown, by rw [hone]; rfl, hfront⟩

end Http

end FossilRecord
