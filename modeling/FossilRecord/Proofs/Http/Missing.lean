import FossilRecord.Proofs.Http.Addressing
import FossilRecord.Proofs.Http.Answering
import FossilRecord.Proofs.Store.Missing

/-!
# What is missing is missing at every place

The three places that show fossils of a project find the project fuzzily and ask the store about it
in two different ways.  They agree nevertheless: all refuse with one text, or all answer, and then
the version that is shown is that of the last fossil of the history.

`missing_alike` puts this beside the agreement of the store's own operations.  For the places it
takes project names without blanks at their ends.  Other names may lead to another project in the
second look, which `registered_with_blank` shows.
-/

namespace FossilRecord.Http

open Store (Sound IsPlain Step Cell)

/-- Whether a request asks at one of the places of a project, whose name it gives. -/
def Request.Asks (r : Request) (place : String → Route) (name : String) : Prop :=
  r.method = "GET" ∧ ∃ q written, Question.ofRequest r = .ok q ∧ q.route = place written ∧
    q.name = name

/-- Whether the answers at the three places say the same: that something is missing, and what, or
which version is the last one. -/
def AgreeOnFossils (fossil history changes : Response) : Prop :=
  (∃ message, ∀ response ∈ [fossil, history, changes],
    response = .json 404 (.object [("error", .text message)])) ∨
  ∃ shown items said last version,
    fossil = .json 200 shown ∧ history = .json 200 (.list items) ∧ changes = .json 200 said ∧
    items.getLast? = some last ∧ last.field? "version" = some (.int version) ∧
    shown.field? "fossil_version" = some (.int version) ∧
    said.field? "fossil_version" = some (.int version)

section

variable {past : List Step} {s : Store} {name : String}

/-- The latest fossil is shown with its version, whatever else is wanted of it. -/
theorem latestFossil_of_found {p : Project} {latest : Fossil} {symbols : Option (List Symbol)}
    (hfuzzy : s.findProject name .fuzzy = .ok (some p))
    (hlatest : s.latestFossil p.name = .ok (.found latest))
    (hsymbols : s.symbolsForFossil latest.fossilId = .ok symbols) (withTree withSymbols : Bool) :
    ∃ shown, latestFossil s name withTree withSymbols = .ok shown ∧
      shown.field? "fossil_version" = some (.int latest.version) := by
  rw [latestFossil, resolveProject_eq hfuzzy]
  simp only [bind, Except.bind, hlatest, fromStore, found]
  cases withSymbols with
  | false => exact ⟨_, rfl, rfl⟩
  | true =>
      simp only [hsymbols, if_true]
      exact ⟨_, rfl, rfl⟩

theorem recentChanges_of_found {p : Project} {latest : Fossil}
    (hfuzzy : s.findProject name .fuzzy = .ok (some p))
    (hlatest : s.latestFossil p.name = .ok (.found latest)) :
    ∃ said, recentChanges s name = .ok said ∧
      said.field? "fossil_version" = some (.int latest.version) := by
  rw [recentChanges, resolveProject_eq hfuzzy]
  simp only [bind, Except.bind, hlatest]
  exact ⟨_, rfl, rfl⟩

theorem fossilHistory_of_found {p : Project} {history : List Fossil}
    (hfuzzy : s.findProject name .fuzzy = .ok (some p))
    (hhistory : s.fossilHistory p.name = .ok (.found history)) :
    fossilHistory s name = .ok (.list (history.map Fossil.toJson)) := by
  rw [fossilHistory, resolveProject_eq hfuzzy]
  simp only [bind, Except.bind, hhistory]
  rfl

theorem agreeOnFossils_of_refusal {message : String} {fossil history changes : Outcome Json}
    (hfossil : fossil = .error (.notFound message)) (hhistory : history = .error (.notFound message))
    (hchanges : changes = .error (.notFound message)) :
    AgreeOnFossils (.ofOutcome 200 fossil) (.ofOutcome 200 history) (.ofOutcome 200 changes) := by
  left
  refine ⟨message, ?_⟩
  rw [hfossil, hhistory, hchanges]
  intro response hresponse
  simp only [List.mem_cons, List.not_mem_nil, or_false, or_self] at hresponse
  exact hresponse

/-- Where the name leads to no active project, the three places refuse it with one text. -/
theorem agreeOnFossils_of_unresolved (hfuzzy : s.findProject name .fuzzy = .ok none)
    (withTree withSymbols : Bool) :
    AgreeOnFossils (.ofOutcome 200 (latestFossil s name withTree withSymbols))
      (.ofOutcome 200 (fossilHistory s name)) (.ofOutcome 200 (recentChanges s name)) := by
  have hresolve := resolveProject_of_unknown hfuzzy
  apply agreeOnFossils_of_refusal
  · rw [latestFossil, hresolve]
    rfl
  · rw [fossilHistory, hresolve]
    rfl
  · rw [recentChanges, hresolve]
    rfl

/-- Where the store has no fossil under the name that was found, the three places say so with one
text. -/
theorem agreeOnFossils_of_noFossil {p : Project} {missing : String}
    (hfuzzy : s.findProject name .fuzzy = .ok (some p))
    (hlatest : s.latestFossil p.name = .ok (.noFossil missing))
    (hhistory : s.fossilHistory p.name = .ok (.noFossil missing)) (withTree withSymbols : Bool) :
    AgreeOnFossils (.ofOutcome 200 (latestFossil s name withTree withSymbols))
      (.ofOutcome 200 (fossilHistory s name)) (.ofOutcome 200 (recentChanges s name)) := by
  have hresolve := resolveProject_eq hfuzzy
  apply agreeOnFossils_of_refusal
  · rw [latestFossil, hresolve]
    simp only [bind, Except.bind, hlatest]
    rfl
  · rw [fossilHistory, hresolve]
    simp only [bind, Except.bind, hhistory]
    rfl
  · rw [recentChanges, hresolve]
    simp only [bind, Except.bind, hlatest]
    rfl

/-- Where the store has a history under the name that was found, the three places show its last
fossil. -/
theorem agreeOnFossils_of_found {p : Project} {history : List Fossil} {latest : Fossil}
    {symbols : Option (List Symbol)} (hfuzzy : s.findProject name .fuzzy = .ok (some p))
    (hlatest : s.latestFossil p.name = .ok (.found latest))
    (hhistory : s.fossilHistory p.name = .ok (.found history))
    (hlast : history.getLast? = some latest)
    (hsymbols : s.symbolsForFossil latest.fossilId = .ok symbols) (withTree withSymbols : Bool) :
    AgreeOnFossils (.ofOutcome 200 (latestFossil s name withTree withSymbols))
      (.ofOutcome 200 (fossilHistory s name)) (.ofOutcome 200 (recentChanges s name)) := by
  obtain ⟨shown, hshown, hversion⟩ :=
    latestFossil_of_found hfuzzy hlatest hsymbols withTree withSymbols
  obtain ⟨said, hsaid, hsame⟩ := recentChanges_of_found hfuzzy hlatest
  have hlast' : (history.map Fossil.toJson).getLast? = some latest.toJson := by
    rw [List.getLast?_map, hlast]
    rfl
  right
  rw [hshown, hsaid, fossilHistory_of_found hfuzzy hhistory]
  exact ⟨shown, _, said, latest.toJson, latest.version, rfl, rfl, rfl, hlast', rfl, hversion, hsame⟩

/-- The three places agree if the project that the name leads to has a plain name. -/
theorem agreeOnFossils (h : Sound past s)
    (hplain : ∀ p, s.findProject name .fuzzy = .ok (some p) → IsPlain p.name)
    (withTree withSymbols : Bool) :
    AgreeOnFossils (.ofOutcome 200 (latestFossil s name withTree withSymbols))
      (.ofOutcome 200 (fossilHistory s name)) (.ofOutcome 200 (recentChanges s name)) := by
  obtain ⟨found, hfuzzy⟩ := h.legible.findProject_total name .fuzzy
  cases found with
  | none => exact agreeOnFossils_of_unresolved hfuzzy withTree withSymbols
  | some p =>
      obtain ⟨-, hrow, -⟩ := h.legible.row_of_findProject hfuzzy
      obtain ⟨again, hfound, -⟩ :=
        h.findProject_again (Store.mem_of_projectRow? hrow) (hplain p hfuzzy)
      -- both of the store's answers are drawn from one history
      have hlatest := h.latestFossil_eq hfound
      have hhistory := h.fossilHistory_eq hfound
      cases hlast : (s.history (Cell.uuid again.projectId)).getLast? with
      | none =>
          have hnil := List.getLast?_eq_none_iff.mp hlast
          rw [hlast] at hlatest
          rw [hnil, Store.answerOf, if_pos rfl] at hhistory
          exact agreeOnFossils_of_noFossil hfuzzy hlatest hhistory withTree withSymbols
      | some latest =>
          have hne : s.history (Cell.uuid again.projectId) ≠ [] := by
            intro hnil
            rw [hnil] at hlast
            cases hlast
          rw [hlast] at hlatest
          rw [Store.answerOf, if_neg hne] at hhistory
          -- the fossil that is shown is stored, so its symbols can be read
          obtain ⟨row, hrow, -, hread⟩ := h.exists_of_mem_history (List.mem_of_getLast? hlast)
          have hsymbols := h.coherent.symbolsForFossil_eq hrow hread.fossilId
          exact agreeOnFossils_of_found hfuzzy hlatest hhistory hlast hsymbols withTree withSymbols

/-- A request for reading at a place other than that of the corpus is answered from the tables. -/
theorem respond_of_get {r : Request} {q : Question}
    (hmethod : r.method = "GET") (hreached : Question.ofRequest r = .ok q)
    (hroute : q.route ≠ .analysis) (hreads : ∀ written, q.route ≠ .fossils written) (fresh : Fresh)
    (around : Surroundings) : (respond s fresh around r).1 = q.read s around := by
  rw [respond_of_reading hreached hmethod, Question.answer_of_read hroute hreads]

end

/-- After any history, everything that can be asked of the store about the fossils of a project is
answered in the same way: that there is no project with the name as it was given, that the project
under its stored name has no fossil if none was stored for it in the history, or else with what is
found, the history ending in the latest fossil.  The three places that show fossils agree as well,
if no project has a name with blanks at its ends. -/
theorem missing_alike (uniqueSummaries uniqueSymbolNames : Bool) (steps : List Step)
    (hclock : ∀ step ∈ steps, step.fresh.now.IsValid) (name : String) :
    let opened := Store.blank uniqueSummaries uniqueSymbolNames
    let s := opened.run steps
    (∃ found, s.findProject name .strict = .ok found ∧
      match found with
      | none => s.AnswersAlike name (.projectNotFound name)
      | some p =>
          (¬opened.StoredIn p.projectId steps → s.AnswersAlike name (.noFossil p.name)) ∧
          (opened.StoredIn p.projectId steps → s.AnswersAlike name (.found ()) ∧
            ∃ history latest, s.fossilHistory name = .ok (.found history) ∧
              s.latestFossil name = .ok (.found latest) ∧ history.getLast? = some latest)) ∧
    ((∀ r ∈ s.projects, ∀ own ∈ r.name.text?, Text.trim own = own) →
      ∀ fossil history changes : Request, fossil.Asks .fossil name →
        history.Asks .history name → changes.Asks .changes name →
        ∀ (first second third : Fresh) (around : Surroundings),
          AgreeOnFossils (respond s first around fossil).1 (respond s second around history).1
            (respond s third around changes).1) := by
  intro opened s
  have hblank : Sound [] opened := Sound.blank uniqueSummaries uniqueSymbolNames
  have hs : Sound ([] ++ steps) s := hblank.run hclock
  constructor
  · obtain ⟨found, hfound⟩ := hs.legible.findProject_total name .strict
    refine ⟨found, hfound, ?_⟩
    cases found with
    | none => exact Store.answersAlike_of_unknown hfound
    | some p =>
        -- no project has a fossil when the history starts
        have hrows : s.fossilRows (Cell.uuid p.projectId) = [] ↔
            opened.fossilRows (Cell.uuid p.projectId) = [] ∧ ¬opened.StoredIn p.projectId steps :=
          hblank.coherent.fossilRows_run steps
        constructor
        · intro hnot
          exact hs.answersAlike_of_noFossil hfound (hrows.mpr ⟨rfl, hnot⟩)
        · intro hstored
          apply hs.answersAlike_of_fossil hfound
          intro hnil
          exact (hrows.mp hnil).2 hstored
  · rintro hnames fossil history changes ⟨hget, q, written, hreached, hroute, rfl⟩
      ⟨hget', q', written', hreached', hroute', hname'⟩
      ⟨hget'', q'', written'', hreached'', hroute'', hname''⟩ first second third around
    have hplain : ∀ p, s.findProject q.name .fuzzy = .ok (some p) → IsPlain p.name := by
      intro p hfuzzy
      obtain ⟨-, hrow, -⟩ := hs.legible.row_of_findProject hfuzzy
      exact ⟨hs.name_ne_empty_of_findProject hfuzzy,
        hnames _ (Store.mem_of_projectRow? hrow) p.name rfl⟩
    have hagree := agreeOnFossils hs hplain (isSet q.query "include_file_tree")
      (isSet q.query "include_symbols")
    rw [respond_of_get hget hreached (by simp [hroute]) (by simp [hroute]),
      respond_of_get hget' hreached' (by simp [hroute']) (by simp [hroute']),
      respond_of_get hget'' hreached'' (by simp [hroute'']) (by simp [hroute''])]
    unfold Question.read
    rw [hroute, hroute', hroute'', hname', hname'']
    exact hagree

/-- A project is registered and a fossil is stored for it: its latest fossil is found, and the three
places agree on its version. -/
theorem missing_alike_stored :
    let fresh (first : Nat) : Fresh :=
      ⟨fun k => ⟨BitVec.ofNat 128 (first + k)⟩, ⟨2024, 2, 29, 12, 0, 0, 0⟩⟩
    let s := (Store.blank false false).run [⟨fresh 1, .register ⟨"demo", "/d", "rust"⟩⟩,
      ⟨fresh 2, .ingest "demo" "\x7b\x7d" none⟩]
    let asked (place : String) : Response :=
      (respond s (fresh 3) ⟨.empty, []⟩ ⟨"GET", "/projects/demo/" ++ place, []⟩).1
    s.AnswersAlike "demo" (.found ()) ∧
      AgreeOnFossils (asked "fossil") (asked "history") (asked "changes") := by
  intro fresh s asked
  obtain ⟨⟨found, hfound, hanswers⟩, hplaces⟩ := missing_alike false false
    [⟨fresh 1, .register ⟨"demo", "/d", "rust"⟩⟩, ⟨fresh 2, .ingest "demo" "\x7b\x7d" none⟩]
    (by decide) "demo"
  have hasked : ∀ place : String, ∀ route : String → Route,
      Route.ofPath? (Target.ofString ("/projects/demo/" ++ place)).path = some (route "demo") →
      (route "demo").takes "GET" = true → (route "demo").name? = some "demo" →
      (route "demo").shape.check (Target.ofString ("/projects/demo/" ++ place)).query = .ok () →
      (∀ project, route "demo" ≠ .fossils project) →
      Request.Asks ⟨"GET", "/projects/demo/" ++ place, []⟩ route "demo" := by
    intro place route hpath htakes hname hquery hbody
    have hdecoded : decodePart ((route "demo").name?.getD "") = some "demo" := by
      rw [hname]
      decide +kernel
    exact ⟨rfl, _, "demo", Question.ofRequest_eq hpath htakes hdecoded hquery hbody, rfl, rfl⟩
  constructor
  · have hdemo : s.findProject "demo" .strict =
        .ok (some ⟨(fresh 1).id 0, "demo", "/d", "rust", .active, some (fresh 2).now⟩) := by
      decide +kernel
    rw [hdemo] at hfound
    cases hfound
    have hstored : (Store.blank false false).StoredIn ((fresh 1).id 0)
        [⟨fresh 1, .register ⟨"demo", "/d", "rust"⟩⟩, ⟨fresh 2, .ingest "demo" "\x7b\x7d" none⟩] :=
      .inr (.inl ⟨"demo", "\x7b\x7d", none, ⟨(fresh 2).id 0, (fresh 1).id 0, "demo", 1, 0⟩, rfl,
        by decide +kernel, rfl⟩)
    exact (hanswers.2 hstored).1
  · apply hplaces
    · decide +kernel
    · exact hasked "fossil" .fossil (by decide +kernel) rfl rfl (by decide +kernel) (by simp)
    · exact hasked "history" .history (by decide +kernel) rfl rfl (by decide +kernel) (by simp)
    · exact hasked "changes" .changes (by decide +kernel) rfl rfl (by decide +kernel) (by simp)

end FossilRecord.Http
