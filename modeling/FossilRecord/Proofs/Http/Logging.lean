import FossilRecord.Http.Serve
import FossilRecord.Proofs.Store.Transaction

/-!
# Questions that are logged

A request that reaches a tool is answered by one of ten handlers, and each of them writes to the
query log at a place of its own.  This module reads off a request which tool it asks and which
project it names, and follows the log through the handlers.

* `Question.ofRequest_ok` says what a request that reaches a tool looks like.
* `respond_logged` is the main statement: such a request leaves one more entry in the log, with the
  name of its tool and the project as it was requested.  The only request without an entry is one
  for a corpus that is not answered with it.
* `respond_unknown_analysis` is a request of that kind.

None of it depends on how the store came to be, only on a log that takes another row.
-/

namespace FossilRecord.Http

open Store (QueryRow queryRow)

/-- The name under which the questions of a place are logged. -/
def Route.tool : Route → String
  | .projects => "list_projects"
  | .fossil _ => "get_project_fossil"
  | .history _ => "get_fossil_history"
  | .changes _ => "get_recent_changes"
  | .fossils _ => "store_fossil"
  | .lookup _ => "lookup_symbol"
  | .context _ => "get_symbol_context"
  | .related _ => "find_related_files"
  | .insights => "get_detective_insights"
  | .analysis => "get_analysis_context"

/-- The project that a request names: the one in its path, or the one in its query at the two places
that take it from there. -/
def Request.project? (r : Request) : Option String :=
  match Route.ofPath? (Target.ofString r.target).path with
  | some .insights | some .analysis => value? (Target.ofString r.target).query "project"
  | some route => route.name?.bind decodePart
  | none => none

/-! ## Requests that reach a tool -/

/-- What a question has from the request that it was read from. -/
structure Question.ReadFrom (q : Question) (r : Request) : Prop where
  place : Route.ofPath? (Target.ofString r.target).path = some q.route
  takes : q.route.takes r.method = true
  name : decodePart (q.route.name?.getD "") = some q.name
  query : q.query = (Target.ofString r.target).query
  /-- Where a body is read, the text is that of the body. -/
  text : ∀ written, q.route = .fossils written → readBody r.body = .ok q.text

/-- A request that reaches a tool names its place and comes in a way that the place takes, gives the
name in its path decoded, and is read with the query and the body that it has. -/
theorem Question.ofRequest_ok {r : Request} {q : Question} (h : Question.ofRequest r = .ok q) :
    q.ReadFrom r := by
  unfold Question.ofRequest at h
  simp only at h
  split at h
  · cases h
  · rename_i route hroute
    split at h
    · cases h
    · rename_i htakes
      rw [Bool.not_eq_true', Bool.not_eq_false] at htakes
      split at h
      · cases h
      · rename_i name hname
        split at h
        · cases h
        · split at h
          · -- only where a fossil is stored can the body still be refused
            rename_i written
            cases hbody : readBody r.body with
            | error response =>
                rw [hbody] at h
                cases h
            | ok text =>
                rw [hbody] at h
                cases h
                exact ⟨hroute, htakes, hname, rfl, fun _ _ => hbody⟩
          · rename_i hother
            cases h
            refine ⟨hroute, htakes, hname, rfl, ?_⟩
            intro written hwritten
            exact absurd hwritten (hother written)

/-- A request reaches the tool at its place if it comes in a way that the place takes, with a name
that can be decoded and the query that the tool wants, and no body is read there. -/
theorem Question.ofRequest_eq {r : Request} {route : Route} {name : String}
    (hroute : Route.ofPath? (Target.ofString r.target).path = some route)
    (htakes : route.takes r.method = true) (hname : decodePart (route.name?.getD "") = some name)
    (hquery : route.shape.check (Target.ofString r.target).query = .ok ())
    (hbody : ∀ project, route ≠ .fossils project) :
    Question.ofRequest r = .ok ⟨route, name, (Target.ofString r.target).query, ""⟩ := by
  unfold Question.ofRequest
  simp only [hroute, htakes, hname, hquery, Bool.not_true, Bool.false_eq_true, if_false]

/-- A question is logged under the name of its place. -/
theorem Question.logEntry_toolName (q : Question) : q.logEntry.toolName = q.route.tool := by
  unfold Question.logEntry Route.tool
  cases q.route <;> rfl

/-- A question is logged with the project that its request names. -/
theorem Question.logEntry_projectName {r : Request} {q : Question}
    (h : Question.ofRequest r = .ok q) : q.logEntry.projectName = r.project? := by
  obtain ⟨hroute, -, hname, hquery, -⟩ := Question.ofRequest_ok h
  unfold Question.logEntry Request.project?
  rw [hroute, ← hquery]
  cases hq : q.route <;> rw [hq] at hname
  case fossil | history | changes | fossils | lookup | context | related => exact hname.symm
  all_goals rfl

end FossilRecord.Http

namespace FossilRecord.Store

/-! ## The log through the writes -/

/-- A log that takes another row gets the row of the question. -/
theorem logQuietly_queryLog {s : Store} {rows : List QueryRow} (hrows : s.queryLog = some rows)
    {fresh : Fresh} (hfresh : ∀ r ∈ rows, r.entryId ≠ Cell.uuid (fresh.id 0))
    (input : NewQueryLogEntry) :
    (s.logQuietly fresh input).queryLog = some (rows ++ [queryRow
      ⟨fresh.id 0, input.toolName, input.projectName, input.queryParams, fresh.now⟩]) := by
  have hany : (rows.any fun r => r.entryId = Cell.uuid (fresh.id 0)) = false := by
    simpa using hfresh
  unfold logQuietly logQuery
  simp [hrows, hany]

theorem ingest_queryLog (s : Store) (fresh : Fresh) (name raw : String)
    (promptUsed : Option String) :
    (s.ingest fresh name raw promptUsed).2.queryLog = s.queryLog := by
  rcases ingest_cases s fresh name raw promptUsed with
    ⟨payload, project, prompt, drawn, version, -, -, -, -, -, -, hstored⟩ | ⟨result, -, hkept⟩
  · rw [hstored]
    rfl
  · rw [hkept]

theorem recordInsight_queryLog (s : Store) (fresh : Fresh) (input : NewInsight) :
    (s.recordInsight fresh input).2.queryLog = s.queryLog := by
  unfold recordInsight
  simp only
  split
  · rfl
  · split <;> rfl

theorem keepRawFossil_queryLog (s : Store) (fresh : Fresh) (name raw : String) :
    (s.keepRawFossil fresh name raw).2.queryLog = s.queryLog := by
  unfold keepRawFossil
  cases s.findProject name .strict with
  | error failure => rfl
  | ok found =>
      cases found with
      | none => rfl
      | some project =>
          have hkept := recordInsight_queryLog s fresh
            ⟨some project.projectId, none, Insight.rawFossil, raw, none, [project.name]⟩
          cases hrecord : s.recordInsight fresh
              ⟨some project.projectId, none, Insight.rawFossil, raw, none, [project.name]⟩ with
          | mk result after =>
              rw [hrecord] at hkept
              cases result <;> simpa [hrecord] using hkept

end FossilRecord.Store

namespace FossilRecord.Http

open Store (Cell QueryRow queryRow)

/-- Storing a fossil, or keeping its text, does not touch the log. -/
theorem storeFossil_queryLog (s : Store) (fresh : Fresh) (name body : String)
    (promptUsed : Option String) :
    (storeFossil s fresh name body promptUsed).2.queryLog = s.queryLog := by
  have hingest := Store.ingest_queryLog s fresh name body promptUsed
  unfold storeFossil
  cases hresult : s.ingest fresh name body promptUsed with
  | mk result after =>
      rw [hresult] at hingest
      cases result with
      | error failure => exact hingest
      | ok outcome =>
          cases outcome with
          | stored receipt => exact hingest
          | projectNotFound missing => exact hingest
          | malformed reason =>
              -- the text is kept in the store that the ingestion left
              have hkeep := Store.keepRawFossil_queryLog after fresh name body
              cases hkept : after.keepRawFossil fresh name body with
              | mk kept last =>
                  rw [hkept] at hkeep
                  have hlast := hkeep.trans hingest
                  rcases kept with failure | _ | insight <;> simpa [hkept] using hlast

/-! ## The log through a request -/

/-- Whether a question is logged, given the status of its answer: all are, but a corpus only once
it is there. -/
def Question.IsLogged (q : Question) (status : Nat) : Prop :=
  q.route = .analysis → status = 200

instance (q : Question) (status : Nat) : Decidable (q.IsLogged status) :=
  inferInstanceAs (Decidable (_ → _))

section

variable {q : Question} {s : Store} {rows : List QueryRow} {fresh : Fresh}

/-- A question that is not for a corpus is logged before it is answered, and the answer leaves the
log alone. -/
theorem Question.answer_queryLog_of_ne (hroute : q.route ≠ .analysis) (around : Surroundings) :
    (q.answer s fresh around).2.queryLog = (s.logQuietly fresh q.logEntry).queryLog := by
  have hstored := storeFossil_queryLog (s.logQuietly fresh q.logEntry) (fresh.after 1) q.name q.text
    (value? q.query "prompt_used")
  unfold Question.answer
  -- what is logged does not matter for what follows, so it is not opened
  generalize s.logQuietly fresh q.logEntry = logged at hstored ⊢
  split
  · cases hresult : storeFossil logged (fresh.after 1) q.name q.text
        (value? q.query "prompt_used") with
    | mk outcome after =>
        rw [hresult] at hstored
        simpa only [hresult] using hstored
  · rename_i hanalysis
    exact absurd hanalysis hroute
  · rfl

/-- Answering a question leaves its entry in the log, once, if it is one that is logged. -/
theorem Question.answer_queryLog (hrows : s.queryLog = some rows)
    (hfresh : ∀ r ∈ rows, r.entryId ≠ Cell.uuid (fresh.id 0)) (around : Surroundings) :
    (q.answer s fresh around).2.queryLog =
      some (if q.IsLogged (q.answer s fresh around).1.status then
        rows ++ [queryRow ⟨fresh.id 0, q.logEntry.toolName, q.logEntry.projectName,
          q.logEntry.queryParams, fresh.now⟩] else rows) := by
  have hlogged := Store.logQuietly_queryLog hrows hfresh q.logEntry
  by_cases hroute : q.route = .analysis
  · -- the corpus is there before its entry, so the status decides
    have hanswer : q.answer s fresh around = (q.read s around,
        if (q.read s around).status = 200 then s.logQuietly fresh q.logEntry else s) := by
      unfold Question.answer
      rw [hroute]
    rw [hanswer]
    by_cases hstatus : (q.read s around).status = 200
    · have his : q.IsLogged (q.read s around).status := fun _ => hstatus
      simpa only [if_pos hstatus, if_pos his] using hlogged
    · have hnot : ¬q.IsLogged (q.read s around).status := fun h => hstatus (h hroute)
      simpa only [if_neg hstatus, if_neg hnot] using hrows
  · have his : q.IsLogged (q.answer s fresh around).1.status := fun h => absurd h hroute
    rw [if_pos his, Question.answer_queryLog_of_ne hroute, hlogged]

end

/-- A request that reaches a tool leaves the log as it was and one entry behind it, which carries
the name of the tool and the project as the request names it.  This holds of every request, however
it is answered, but for one for a corpus that is answered with a refusal: that leaves no entry. -/
theorem respond_logged (s : Store) (rows : List QueryRow) (hrows : s.queryLog = some rows)
    (fresh : Fresh) (hfresh : ∀ r ∈ rows, r.entryId ≠ Cell.uuid (fresh.id 0))
    (around : Surroundings) (r : Request) (q : Question) (hreached : Question.ofRequest r = .ok q) :
    ∃ entry : QueryLogEntry, entry.toolName = q.route.tool ∧ entry.projectName = r.project? ∧
      (respond s fresh around r).2.queryLog =
        some (if q.IsLogged (respond s fresh around r).1.status then rows ++ [queryRow entry]
          else rows) := by
  refine ⟨⟨fresh.id 0, q.logEntry.toolName, q.logEntry.projectName, q.logEntry.queryParams,
    fresh.now⟩, q.logEntry_toolName, Question.logEntry_projectName hreached, ?_⟩
  have hanswer := Question.answer_queryLog (q := q) hrows hfresh around
  unfold respond
  rw [hreached]
  -- an answer to `HEAD` has the status of the answer to `GET`
  by_cases hhead : r.method = "HEAD"
  · simpa [hhead, Response.withoutBody] using hanswer
  · simpa [hhead] using hanswer

/-- Who asks for the fossil of a project that is not there is told so, and the log has the entry. -/
theorem respond_logged_unknown_project :
    let fresh : Fresh := ⟨fun k => ⟨BitVec.ofNat 128 k⟩, ⟨2024, 2, 29, 12, 0, 0, 0⟩⟩
    let asked := respond .empty fresh ⟨.empty, []⟩ ⟨"GET", "/projects/ghost/fossil", []⟩
    asked.1.status = 404 ∧ ∃ entry : QueryLogEntry, entry.toolName = "get_project_fossil" ∧
      entry.projectName = some "ghost" ∧ asked.2.queryLog = some ([] ++ [queryRow entry]) := by
  intro fresh asked
  have hstatus : asked.1.status = 404 := by decide +kernel
  obtain ⟨entry, htool, hproject, hlog⟩ :=
    respond_logged .empty [] rfl fresh (by simp) ⟨.empty, []⟩
      ⟨"GET", "/projects/ghost/fossil", []⟩ ⟨.fossil "ghost", "ghost", [], ""⟩
      (Question.ofRequest_eq (by decide +kernel) (by decide) (by decide +kernel) (by decide +kernel)
        (fun _ h => by cases h))
  refine ⟨hstatus, entry, htool, hproject.trans (by decide +kernel), ?_⟩
  have hlogged : Question.IsLogged ⟨.fossil "ghost", "ghost", [], ""⟩ asked.1.status :=
    fun h => by cases h
  rwa [if_pos hlogged] at hlog

/-- Who asks for the corpus of a project that is not there is told so as well, by the tool itself,
and the log does not have the entry. -/
theorem respond_unknown_analysis :
    let fresh : Fresh := ⟨fun k => ⟨BitVec.ofNat 128 k⟩, ⟨2024, 2, 29, 12, 0, 0, 0⟩⟩
    let r : Request := ⟨"GET", "/analysis?project=ghost", []⟩
    let asked := respond .empty fresh ⟨.empty, []⟩ r
    (∃ q, Question.ofRequest r = .ok q ∧ q.route = .analysis) ∧ r.project? = some "ghost" ∧
      asked.1.status = 404 ∧ asked.2.queryLog = some [] := by
  intro fresh r asked
  have hreached : Question.ofRequest r =
      .ok ⟨.analysis, "", (Target.ofString r.target).query, ""⟩ :=
    Question.ofRequest_eq (by decide +kernel) (by decide) (by decide +kernel) (by decide +kernel)
      (fun _ h => by cases h)
  exact ⟨⟨_, hreached, rfl⟩, by decide +kernel, by decide +kernel, by decide +kernel⟩

end FossilRecord.Http
