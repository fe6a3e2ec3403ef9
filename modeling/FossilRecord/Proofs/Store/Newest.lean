import FossilRecord.Proofs.Store.Recorded

/-!
# Listings, the newest first

The latest questions and the insights are listed newest first, and what is listed is what was
given when it was recorded.  Where the clock never ran backwards, a listing is the order of writing
backwards, less what is not asked for, up to its limit (`listings_newest_first`).
-/

namespace FossilRecord.Store

/-- Rows that are each read as what they were made of are all read so. -/
theorem mapM_typed_decode {α ρ τ : Type} {row : α → ρ} {typed : ρ → Except Failure τ}
    {decode : τ → Except Failure α} {mid : α → τ} {items : List α}
    (hread : ∀ x ∈ items, typed (row x) = .ok (mid x) ∧ decode (mid x) = .ok x) :
    ((items.map row).mapM typed >>= fun ts => ts.mapM decode) = .ok items := by
  have hdecode := mapM_map_eq_ok (f := decode) (g := id) fun x hx => (hread x hx).2
  rw [mapM_map_eq_ok fun x hx => (hread x hx).1]
  rwa [List.map_id] at hdecode

/-! ## Questions -/

/-- Whether a question was put to the tool that is asked for, if one is. -/
def asksOf (tool : Option String) (e : QueryLogEntry) : Bool :=
  decide (tool = none ∨ tool = some e.toolName)

/-- Whether a step that logs a question gives parameters that come back from their text as they
are: numbers are whole, and nothing is nested deeper than is read. -/
def Step.LogsWhole (step : Step) : Prop :=
  ∀ e ∈ step.entry?, ∀ j ∈ e.queryParams, Json.Fits Json.depthLimit j ∧ j.isWhole = true

section

variable {steps : List Step}

/-- A question that was logged is read back as it was given. -/
theorem KeepsTime.reads_entry (h : KeepsTime steps) (hwhole : ∀ step ∈ steps, step.LogsWhole)
    {s : Store} {e : QueryLogEntry} (he : e ∈ recorded Step.entry? s steps) :
    (queryRow e).typed = .ok (typedQuery e) ∧ (typedQuery e).decode = .ok e := by
  obtain ⟨step, hstep, hentry⟩ := exists_of_mem_recorded he
  have hparams := hwhole step hstep e hentry
  have hback : loggedBack e = e := by
    obtain ⟨entryId, toolName, projectName, queryParams, timestamp⟩ := e
    cases queryParams with
    | none => rfl
    | some j =>
        rw [loggedBack, Option.map_some, Json.readBack_of_isWhole j (hparams j rfl).2]
  have hdecode := decode_typedQuery ⟨fun j hj => (hparams j hj).1,
    h.isValid (entry_times s steps) he⟩
  rw [hback] at hdecode
  exact ⟨typed_queryRow e, hdecode⟩

theorem recentQueries_eq (u v : Bool) (h : KeepsTime steps)
    (hwhole : ∀ step ∈ steps, step.LogsWhole) (tool : Option String) (limit : Nat) :
    ((blank u v).run steps).recentQueries tool limit = .ok
      (limited limit ((recorded Step.entry? (blank u v) steps).filter (asksOf tool)).reverse) := by
  rw [recentQueries, logRows, run_queryLog]
  simp only [bind, Except.bind]
  rw [h.newestFirst_eq (entry_times _ _) queryRow QueryRow.timestamp (fun _ => rfl) ?wanted,
    limited_map]
  · refine mapM_typed_decode fun e he => h.reads_entry hwhole (s := blank u v) ?_
    exact List.mem_of_mem_filter (List.mem_reverse.mp (mem_of_mem_limited he))
  case wanted =>
    intro e
    cases tool with
    | none => simp [asksOf]
    | some name => simp [asksOf, queryRow, eq_comm]

end

/-! ## Insights -/

/-- Whether an insight is global or of the project that is asked for, and of the type that is asked
for, if one is. -/
def covers (projectId : Option Uuid) (insightType : Option String) (i : Insight) : Bool :=
  decide ((i.projectId = none ∨ i.projectId = projectId) ∧
    (insightType = none ∨ insightType = some i.insightType))

theorem optUuid_eq_null (id : Option Uuid) : optUuid id = .null ↔ id = none :=
  optUuid_injective.eq_iff (b := none)

theorem optUuid_eq_uuid (id : Option Uuid) (u : Uuid) : optUuid id = Cell.uuid u ↔ id = some u :=
  optUuid_injective.eq_iff (b := some u)

/-- The rows that a query wants are those of the insights that it covers. -/
theorem wants_insightRow (q : InsightQuery) (i : Insight) :
    q.wants (insightRow i) = covers q.projectId q.insightType i := by
  obtain ⟨projectId, insightType, limit⟩ := q
  rw [InsightQuery.wants, covers]
  cases projectId <;> cases insightType <;>
    simp [insightRow, optUuid_eq_null, optUuid_eq_uuid, @eq_comm String]

section

variable {steps : List Step}

/-- An insight that was recorded is read back as it was given. -/
theorem KeepsTime.reads_insight (h : KeepsTime steps) {s : Store} {i : Insight}
    (hi : i ∈ recorded Step.insight? s steps) :
    (insightRow i).typed = .ok (typedInsight i) ∧ (typedInsight i).decode = .ok i :=
  ⟨typed_insightRow i, decode_typedInsight (h.isValid (insight_times s steps) hi)⟩

theorem listInsights_eq (u v : Bool) (h : KeepsTime steps) (q : InsightQuery) :
    ((blank u v).run steps).listInsights q = .ok
      (match q.limit with
      | some limit => limited limit ((recorded Step.insight? (blank u v) steps).filter
          (covers q.projectId q.insightType)).reverse
      | none => ((recorded Step.insight? (blank u v) steps).filter
          (covers q.projectId q.insightType)).reverse) := by
  have hall : ∀ shown : List Insight, shown ⊆ recorded Step.insight? (blank u v) steps →
      (shown.map insightRow).mapM InsightRow.typed >>= List.mapM TypedInsight.decode =
        .ok shown :=
    fun shown hshown => mapM_typed_decode fun i hi => h.reads_insight (hshown hi)
  have hbackwards : ((recorded Step.insight? (blank u v) steps).filter
      (covers q.projectId q.insightType)).reverse ⊆ recorded Step.insight? (blank u v) steps :=
    fun i hi => List.mem_of_mem_filter (List.mem_reverse.mp hi)
  rw [listInsights, run_insights,
    h.newestFirst_eq (insight_times _ _) insightRow InsightRow.createdAt (fun _ => rfl)
      (wants_insightRow q)]
  cases hlimit : q.limit with
  | none => exact hall _ hbackwards
  | some limit =>
      simp only [limited_map]
      exact hall _ fun i hi => hbackwards (mem_of_mem_limited hi)

end

/-! ## Both listings -/

/-- Where the clock never ran backwards, the latest questions, of a tool or of all, are those that
were logged, each as it was given and the last one first, and so are the insights that are global
or of the project that is asked for, and of the type that is asked for.  No insight of another
project is among them. -/
theorem listings_newest_first (u v : Bool) {steps : List Step} (hclock : KeepsTime steps)
    (hwhole : ∀ step ∈ steps, step.LogsWhole) :
    (∀ tool, ShowsFirst (((blank u v).run steps).recentQueries tool)
      ((recorded Step.entry? (blank u v) steps).filter (asksOf tool)).reverse) ∧
    (∀ projectId insightType,
      ShowsFirst (fun limit => ((blank u v).run steps).listInsights
        ⟨projectId, insightType, some limit⟩)
        ((recorded Step.insight? (blank u v) steps).filter (covers projectId insightType)).reverse ∧
      ((blank u v).run steps).listInsights ⟨projectId, insightType, none⟩ =
        .ok ((recorded Step.insight? (blank u v) steps).filter
          (covers projectId insightType)).reverse) ∧
    ∀ q shown, ((blank u v).run steps).listInsights q = .ok shown →
      ∀ i ∈ shown, i.projectId = none ∨ i.projectId = q.projectId := by
  refine ⟨fun tool => ?queries, fun projectId insightType => ⟨?limited, ?all⟩, ?others⟩
  case queries => exact showsFirst_of_limited (recentQueries_eq u v hclock hwhole tool)
  case limited =>
    exact showsFirst_of_limited fun limit =>
      listInsights_eq u v hclock ⟨projectId, insightType, some limit⟩
  case all => exact listInsights_eq u v hclock ⟨projectId, insightType, none⟩
  case others =>
    intro q shown hshown i hi
    rw [listInsights_eq u v hclock q] at hshown
    have hcovered : i ∈ ((recorded Step.insight? (blank u v) steps).filter
        (covers q.projectId q.insightType)).reverse := by
      cases hlimit : q.limit with
      | none =>
          rw [hlimit] at hshown
          cases hshown
          exact hi
      | some limit =>
          rw [hlimit] at hshown
          cases hshown
          exact mem_of_mem_limited hi
    have hcovers := (List.mem_filter.mp (List.mem_reverse.mp hcovered)).2
    rw [covers, decide_eq_true_eq] at hcovers
    exact hcovers.1

/-- Two questions and two insights are written at the same time, and an insight of another project
after them. -/
theorem listings_newest_first_same_time :
    let fresh (first : Nat) : Fresh :=
      ⟨fun k => ⟨BitVec.ofNat 128 (first + k)⟩, ⟨2024, 2, 29, 12, 0, 0, 0⟩⟩
    let insight (projectId : Option Uuid) (content : String) : Write :=
      .insight ⟨projectId, none, Insight.pattern, content, none, []⟩
    let demo : Uuid := ⟨BitVec.ofNat 128 1⟩
    let other : Uuid := ⟨BitVec.ofNat 128 2⟩
    let steps : List Step := [⟨fresh 1, .register ⟨"demo", "/d", "rust"⟩⟩,
      ⟨fresh 2, .register ⟨"other", "/o", "rust"⟩⟩,
      ⟨fresh 3, .log ⟨"get_codebase", some "demo", some .null⟩⟩,
      ⟨fresh 4, .log ⟨"lookup_symbol", none, none⟩⟩, ⟨fresh 5, insight none "everywhere"⟩,
      ⟨fresh 6, insight (some demo) "in demo"⟩, ⟨fresh 7, insight (some other) "elsewhere"⟩]
    KeepsTime steps ∧ (∀ step ∈ steps, step.LogsWhole) ∧
      (∃ shown, ((blank false false).run steps).recentQueries none (2 ^ 64 - 1) = .ok shown ∧
        shown.map QueryLogEntry.toolName = ["lookup_symbol", "get_codebase"]) ∧
      ∃ shown, ((blank false false).run steps).listInsights ⟨some demo, none, some 2⟩ = .ok shown ∧
        shown.map Insight.content = ["in demo", "everywhere"] := by
  intro fresh insight demo other steps
  have hclock : KeepsTime steps := by
    refine ⟨?_, by decide⟩
    simp only [steps, List.forall_mem_cons, List.not_mem_nil, false_imp_iff, implies_true, and_true]
    decide
  have hwhole : ∀ step ∈ steps, step.LogsWhole := by
    simp only [steps, List.forall_mem_cons]
    refine ⟨nofun, nofun, ?_, ?_, nofun, nofun, nofun, nofun⟩
    · rintro _ ⟨⟩ _ ⟨⟩
      exact ⟨.null Json.depthLimit, rfl⟩
    · rintro _ ⟨⟩ _ ⟨⟩
  obtain ⟨hqueries, hinsights, -⟩ := listings_newest_first false false hclock hwhole
  refine ⟨hclock, hwhole, ⟨_, (hqueries none).all _ (by decide), ?_⟩,
    ⟨_, (hinsights (some demo) none).1.upTo 2 (.inl (by decide)), ?_⟩⟩
  · decide +kernel
  · decide +kernel

end FossilRecord.Store
