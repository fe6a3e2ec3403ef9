import FossilRecord.Command.Run
import FossilRecord.Proofs.Store.Outcome
import FossilRecord.Proofs.Store.Readable
import FossilRecord.Proofs.Store.Snapshot

/-!
# The project that a raw record names

A text that cannot be read as what it was to be is kept as it is, in an insight of its project: one
that was to be a fossil, and one that was to be an analysis.  Both are given with a name that leads
to the project, in any case and perhaps with blanks around it.

The insight that keeps a fossil names the project as it is registered, the one that keeps an analysis
names it as it was asked for.  `raw_record_names` states both for every store that a history leaves.
-/

namespace FossilRecord.Command

open Store (Cell Sound Step insightRow rawInsight)

/-! ## Records -/

/-- Whether one insight was added to a store, in a row that it is read back from. -/
structure AddsInsight (s : Store) (i : Insight) (after : Store) : Prop where
  rows : after = { s with insights := s.insights ++ [insightRow i] }
  read : ((insightRow i).typed >>= Store.TypedInsight.decode) = .ok i

theorem addsInsight (s : Store) {i : Insight} (htime : i.createdAt.IsValid) :
    AddsInsight s i { s with insights := s.insights ++ [insightRow i] } where
  rows := rfl
  read := by
    simp only [Store.typed_insightRow, bind, Except.bind, Store.decode_typedInsight htime]

/-- Whether an insight is one of a project and names that project alone, in these words. -/
structure NamesAs (p : Project) (name : String) (i : Insight) : Prop where
  projectId : i.projectId = some p.projectId
  projects : i.projectsInvolved = [name]

/-- An insight names a project in one way. -/
theorem NamesAs.iff_eq {p : Project} {name other : String} {i : Insight} (h : NamesAs p name i) :
    NamesAs p other i ↔ name = other := by
  constructor
  · intro hother
    simpa using h.projects.symm.trans hother.projects
  · rintro rfl
    exact h

/-- The insight that keeps the text of an analysis for a project. -/
def rawAnalysis (fresh : Fresh) (p : Project) (name : String) (model : Option String)
    (text : String) : Insight where
  insightId := fresh.id 0
  projectId := some p.projectId
  fossilId := none
  insightType := Insight.pattern
  content := Fence.strip text
  modelUsed := model
  projectsInvolved := [name]
  createdAt := fresh.now

section

variable {s : Store} {fresh : Fresh} {name text : String} {p : Project} {model : Option String}

/-- A text without a list in it gives one insight, which holds all of it. -/
theorem ofAnalysis_of_raw (hraw : ∀ items, Json.parse (Fence.strip text) ≠ .ok (.list items))
    (projectId : Option Uuid) (project : Option String) :
    NewInsight.ofAnalysis text projectId project model =
      [⟨projectId, none, Insight.pattern, Fence.strip text, model, project.toList⟩] := by
  unfold NewInsight.ofAnalysis
  dsimp only
  split
  · rename_i items hlist
    exact absurd hlist (hraw items)
  · rfl

/-- The text of an analysis is kept for the project that the name leads to, under that name. -/
theorem recordInsights_of_raw (h : s.Legible)
    (hfound : s.findProject name .strict = .ok (some p))
    (hnew : ∀ r ∈ s.insights, r.insightId ≠ Cell.uuid (fresh.id 0))
    (hraw : ∀ items, Json.parse (Fence.strip text) ≠ .ok (.list items)) :
    recordInsights s fresh text (some name) model =
      (.ok "", { s with
        insights := s.insights ++ [insightRow (rawAnalysis fresh p name model text)] }) := by
  have hid : projectId s (some name) = .ok (some p.projectId) := by
    rw [projectId, requireProject, hfound]
    rfl
  have hkey : (s.insights.any fun r => r.insightId = Cell.uuid (fresh.id 0)) = false := by
    simpa using hnew
  have hrefers : s.refersToProject (some p.projectId) = true := h.hasProject_of_findProject hfound
  rw [recordInsights, hid]
  simp only [ofAnalysis_of_raw hraw, Store.recordInsights, Store.recordInsight, hkey, hrefers,
    Store.refersToFossil, Bool.and_self, Bool.false_eq_true, if_true, if_false]
  rfl

end

/-! ## Runs -/

/-- Arguments that hand in the text of an analysis for a project, where the store is kept in a
file.  The text is that of another file or comes in from outside. -/
inductive RecordsText (e : Environment) (s : Store) (place : Disk.Place) (name text : String)
    (model : Option String) (arguments : List String) : Prop where
  | intro (i : Invocation) (settings : Settings) (input : String)
      (harguments : Invocation.ofArguments arguments = .ok i)
      (hcommand : i.command = .insights input (some name) model)
      (hsettings : Settings.load e.disk e.folder e.env i.config = .ok settings)
      (hopen : Store.ofPath e.disk e.folder settings.storePath = .ok ⟨s, some place⟩)
      (hread : readInput { e with disk := Store.keep e.disk (some place) s } input = .ok text)

/-- A run reports what becomes of the text, and puts what is left into the file of the store. -/
theorem run_of_recordsText {e : Environment} {s : Store} {place : Disk.Place} {name text : String}
    {model : Option String} {arguments : List String}
    (h : RecordsText e s place name text model arguments) (fresh : Fresh) :
    (run e fresh arguments).1 = .ofOutcome (recordInsights s fresh text (some name) model).1 ∧
      (run e fresh arguments).2.readAt place =
        .ok (recordInsights s fresh text (some name) model).2.toOctets := by
  obtain ⟨i, settings, input, harguments, hcommand, hsettings, hopen, hread⟩ := h
  have hplace := Store.isFile_of_ofPath hopen
  have hrun : run e fresh arguments =
      (.ofOutcome (recordInsights s fresh text (some name) model).1,
        Store.keep (Store.keep e.disk (some place) s) (some place)
          (recordInsights s fresh text (some name) model).2) := by
    rw [run, harguments]
    simp only [hsettings]
    rw [hcommand, performWith]
    · simp only [hopen, perform, withInput, hread]
    · simp
  rw [hrun]
  obtain ⟨outcome, left⟩ := recordInsights s fresh text (some name) model
  exact ⟨rfl, Store.readAt_keep (Store.isFile_keep hplace s) left⟩

/-- After any history, let a name lead strictly to a project.  A text that was to be a fossil is kept
under the name that the project is registered with.  A text that was to be an analysis is kept under
the name that was given, and so under that of the project only where the two are the same. -/
theorem raw_record_names (uniqueSummaries uniqueSymbolNames : Bool) (steps : List Step)
    (hclock : ∀ step ∈ steps, step.fresh.now.IsValid) (name : String) (p : Project)
    (hfound : ((Store.blank uniqueSummaries uniqueSymbolNames).run steps).findProject name .strict =
      .ok (some p))
    (text : String) (fresh : Fresh) (hnow : fresh.now.IsValid)
    (hnew : ∀ r ∈ ((Store.blank uniqueSummaries uniqueSymbolNames).run steps).insights,
      r.insightId ≠ Cell.uuid (fresh.id 0)) :
    let s := (Store.blank uniqueSummaries uniqueSymbolNames).run steps
    (∃ kept after, s.keepRawFossil fresh name text = (.ok (some kept), after) ∧
      AddsInsight s kept after ∧ kept.content = text ∧ NamesAs p p.name kept) ∧
    ∀ e place model arguments, RecordsText e s place name text model arguments →
      (∀ items, Json.parse (Fence.strip text) ≠ .ok (.list items)) →
      ∃ kept octets after, (run e fresh arguments).1 = .done "" ∧
        (run e fresh arguments).2.readAt place = .ok octets ∧
        Store.ofOctets? octets = some after ∧ AddsInsight s kept after ∧
        kept.content = Fence.strip text ∧ NamesAs p name kept ∧
        (NamesAs p p.name kept ↔ name = p.name) := by
  intro s
  have hblank : Sound [] (Store.blank uniqueSummaries uniqueSymbolNames) := Sound.blank _ _
  have hs : s.Legible := (hblank.run hclock).legible
  constructor
  · exact ⟨_, _, Store.keepRawFossil_of_found hs hfound hnew, addsInsight s hnow, rfl, rfl, rfl⟩
  · intro e place model arguments hrecords hraw
    obtain ⟨hreport, hplace⟩ := run_of_recordsText hrecords fresh
    rw [recordInsights_of_raw hs hfound hnew hraw] at hreport hplace
    have hnamed : NamesAs p name (rawAnalysis fresh p name model text) := ⟨rfl, rfl⟩
    exact ⟨_, _, _, hreport, hplace, Store.ofOctets?_toOctets _, addsInsight s hnow, rfl, hnamed,
      hnamed.iff_eq⟩

/-- The text comes in from outside, for a project that is asked for in capitals. -/
theorem raw_record_names_capitals :
    let fresh (first : Nat) : Fresh :=
      ⟨fun k => ⟨BitVec.ofNat 128 (first + k)⟩, ⟨2024, 2, 29, 12, 0, 0, 0⟩⟩
    let p : Project := ⟨⟨BitVec.ofNat 128 1⟩, "demo", "/d", "rust", .active, none⟩
    let s := Store.empty.run [⟨fresh 1, .register ⟨"demo", "/d", "rust"⟩⟩]
    let e : Environment :=
      ⟨⟨[(["custodian.db"], .file s.toOctets)]⟩, [], [], Text.octets "coupling grows"⟩
    (∃ kept after, s.keepRawFossil (fresh 2) "DEMO" "coupling grows" = (.ok (some kept), after) ∧
      AddsInsight s kept after ∧ NamesAs p "demo" kept) ∧
    ∃ kept octets after,
      (run e (fresh 2) ["insights", "-", "--project", "DEMO"]).2.readAt ["custodian.db"] =
        .ok octets ∧
      Store.ofOctets? octets = some after ∧ AddsInsight s kept after ∧ NamesAs p "DEMO" kept ∧
      ¬NamesAs p "demo" kept := by
  intro fresh p s e
  have hopen : Store.ofPath e.disk e.folder "custodian.db" = .ok ⟨s, some ["custodian.db"]⟩ := by
    have hlocate : e.disk.locate e.folder "custodian.db" = .ok ["custodian.db"] := by decide +kernel
    have hread : e.disk.read e.folder "custodian.db" = .ok s.toOctets := by
      rw [Disk.read, hlocate]
      rfl
    rw [Store.ofPath, if_neg (by decide +kernel), hlocate, hread]
    simp only [Store.ofOctets?_toOctets]
  have hrecords : RecordsText e s ["custodian.db"] "DEMO" "coupling grows" none
      ["insights", "-", "--project", "DEMO"] :=
    ⟨⟨"custodian.toml", .insights "-" (some "DEMO") none⟩, Settings.default_, "-",
      by decide +kernel, rfl, by decide +kernel, hopen, by decide +kernel⟩
  obtain ⟨⟨fossil, kept, hfossil, hadds, -, hnames⟩, hruns⟩ := raw_record_names false false
    [⟨fresh 1, .register ⟨"demo", "/d", "rust"⟩⟩] (by decide) "DEMO" p (by decide +kernel)
    "coupling grows" (fresh 2) (by decide) (by decide +kernel)
  obtain ⟨raw, octets, after, -, hplace, hstore, hrow, -, hgiven, hiff⟩ :=
    hruns e ["custodian.db"] none _ hrecords fun items hlist => by
      have hnone : (Json.parse (Fence.strip "coupling grows")).toOption = none := by decide +kernel
      rw [hlist] at hnone
      cases hnone
  exact ⟨⟨fossil, kept, hfossil, hadds, hnames⟩, raw, octets, after, hplace, hstore, hrow, hgiven,
    fun hdemo => absurd (hiff.mp hdemo) (by decide)⟩

/-- What two texts are kept as for a project that is asked for in capitals: only the one that was to
be a fossil is kept under the name that the project is registered with. -/
theorem analysis_named_in_capitals :
    let fresh (first : Nat) : Fresh :=
      ⟨fun k => ⟨BitVec.ofNat 128 (first + k)⟩, ⟨2024, 2, 29, 12, 0, 0, 0⟩⟩
    let p : Project := ⟨⟨BitVec.ofNat 128 1⟩, "demo", "/d", "rust", .active, none⟩
    let s := Store.empty.run [⟨fresh 1, .register ⟨"demo", "/d", "rust"⟩⟩]
    s.findProject "DEMO" .strict = .ok (some p) ∧
      ((recordInsights s (fresh 2) "coupling grows" (some "DEMO") none).2.insights.map
        fun r => (r.projectId, r.projectsInvolved)) =
        [(Cell.uuid p.projectId, .text "[\"DEMO\"]")] ∧
      ((s.keepRawFossil (fresh 2) "DEMO" "coupling grows").2.insights.map
        fun r => (r.projectId, r.projectsInvolved)) =
        [(Cell.uuid p.projectId, .text "[\"demo\"]")] := by
  decide +kernel

end FossilRecord.Command
