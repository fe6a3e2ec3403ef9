import FossilRecord.Proofs.Http.Answering
import FossilRecord.Proofs.Store.Growth

/-!
# Two questions decide how a text is stored

Whoever hands in a text for a project is told one of three things: that there is no such project,
that the text is no payload, or which version the text has become.  What is asked is whether the name
leads strictly to a project and whether the text is read as a payload, and nothing else: the first
question alone decides that nothing is written, and both together what is written and for which
project.

`respond_storing` says so of every request that reaches the tool.  The tables it speaks of have the
entry of the request in their log already.
-/

namespace FossilRecord.Http

open Store (Cell queryRow insightRow IsHighestVersion Sound Step Unseen draws)

/-- How a request to store a text is answered and what it leaves, given the tables with its entry in
the log and the project that its name leads to. -/
def AnswersStoring (q : Question) (body : List UInt8) (logged : Store) (found : Option Project)
    (answered : Response × Store) : Prop :=
  match found, Payload.parse q.text with
  | none, _ =>
      answered =
        (.json 404 (.object [("error", .text s!"project '{q.name}' not found")]), logged)
  | some p, .error flaw =>
      ∃ insight : Insight,
        answered =
          (.json 422 (.object [("error", .text flaw.message)]),
            { logged with insights := logged.insights ++ [insightRow insight] }) ∧
        insight.insightType = "raw_fossil" ∧ Text.octets insight.content = body ∧
        insight.projectId = some p.projectId ∧ insight.projectsInvolved = [p.name]
  | some p, .ok payload =>
      ((logged.fossilRows (Cell.uuid p.projectId)).length : Int) < Json.maxInt64 →
        ∃ receipt highest,
          answered.1 = .json 201 (.object receipt.toFields) ∧
          logged.FossilAdded receipt answered.2 ∧ answered.2.insights = logged.insights ∧
          receipt.projectId = p.projectId ∧ receipt.projectName = p.name ∧
          IsHighestVersion (logged.fossilRows (Cell.uuid p.projectId)) highest ∧
          receipt.version = 1 + highest ∧ receipt.symbolCount = payload.symbols.length

section

variable {past : List Step} {s : Store} {fresh : Fresh} {q : Question} {body : List UInt8}
  {found : Option Project}

/-- In tables that are sound and have no further constraints, the two questions decide. -/
theorem answersStoring (h : Sound past s) (hfree : s.Unconstrained)
    (hfresh : Unseen fresh s (draws q.text)) (hbody : Text.octets q.text = body)
    (hfound : s.findProject q.name .strict = .ok found) (promptUsed : Option String) :
    AnswersStoring q body s found
      (.ofOutcome 201 (storeFossil s fresh q.name q.text promptUsed).1,
        (storeFossil s fresh q.name q.text promptUsed).2) := by
  rw [storeFossil_eq_carryOut h hfree hfresh]
  unfold AnswersStoring decisionOn
  rw [hfound]
  cases found with
  | none => rfl
  | some p =>
      cases hparse : Payload.parse q.text with
      | error flaw => exact ⟨_, rfl, rfl, hbody, rfl, rfl⟩
      | ok payload =>
          intro hroom
          obtain ⟨prompt, hprompt⟩ := h.legible.promptFor p promptUsed
          have hversions := h.coherent.versions (Cell.uuid p.projectId)
          have hadded : s.FossilAdded
              ⟨fresh.id 0, p.projectId, p.name, (s.fossilRows (Cell.uuid p.projectId)).length + 1,
                payload.symbols.length⟩
              (s.withFossil fresh p.projectId
                ((s.fossilRows (Cell.uuid p.projectId)).length + 1) payload prompt) :=
            Store.fossilAdded_withFossil h.coherent.distinctProjectIds payload prompt
              (h.legible.hasProject_of_findProject hfound)
          simp only [hprompt]
          rw [Store.versionFor_of_lt hversions hroom]
          exact ⟨_, _, rfl, hadded, rfl, rfl, rfl, hversions.isHighestVersion, Int.add_comm _ 1, rfl⟩

end

/-- A request that hands in a text for a project leaves its entry in the log.  After any history, what
else it leaves and how it is answered is decided by what its name leads to and by what its text is
read as. -/
theorem respond_storing (steps : List Step) (hclock : ∀ step ∈ steps, step.fresh.now.IsValid)
    (fresh : Fresh) (around : Surroundings) (r : Request) (q : Question) (written : String)
    (hreached : Question.ofRequest r = .ok q) (hroute : q.route = .fossils written)
    (hlog : ∀ rows, (Store.empty.run steps).queryLog = some rows →
      ∀ row ∈ rows, row.entryId ≠ Cell.uuid (fresh.id 0))
    (hfresh : Unseen (fresh.after 1) (Store.empty.run steps) (draws q.text)) :
    ∃ rows found, (Store.empty.run steps).queryLog = some rows ∧
      (Store.empty.run steps).findProject q.name .strict = .ok found ∧
      AnswersStoring q r.body
        ((Store.empty.run steps).withLog (some (rows ++ [queryRow
          ⟨fresh.id 0, "store_fossil", some q.name, q.logEntry.queryParams, fresh.now⟩])))
        found (respond (Store.empty.run steps) fresh around r) := by
  have hblank : Sound [] Store.empty := Sound.blank false false
  have hsound := hblank.run hclock
  have hfree := Store.unconstrained_run steps
  -- a history starts with a log that has no rows, so there is one
  obtain ⟨rows, hrows⟩ := (hblank.coherent.run_extends steps).queryLog [] rfl
  rw [List.nil_append] at hrows
  obtain ⟨found, hfound⟩ := hsound.legible.findProject_total q.name .strict
  have htext := (Question.ofRequest_ok hreached).text written hroute
  have hlogged : (Store.empty.run steps).logQuietly fresh q.logEntry =
      (Store.empty.run steps).withLog (some (rows ++ [queryRow
        ⟨fresh.id 0, "store_fossil", some q.name, q.logEntry.queryParams, fresh.now⟩])) := by
    have htool : q.logEntry.toolName = "store_fossil" := by
      rw [q.logEntry_toolName, hroute]
      rfl
    have hname : q.logEntry.projectName = some q.name := by
      unfold Question.logEntry
      rw [hroute]
    rw [Store.logQuietly_eq, Store.logQuietly_queryLog hrows (hlog rows hrows), htool, hname]
  have hmethod : r.method ≠ "HEAD" := by
    rw [Question.method_of_store hreached hroute]
    decide
  have hends : AnswersStoring q r.body ((Store.empty.run steps).logQuietly fresh q.logEntry) found
      (respond (Store.empty.run steps) fresh around r) := by
    rw [respond_of_ne_head hreached hmethod, Question.answer_of_store hroute, Store.logQuietly_eq]
    apply answersStoring (hsound.withLog _) (hfree.withLog _) (hfresh.withLog _)
    · exact octets_of_readBody htext
    · rw [Store.findProject_withLog, hfound]
  rw [hlogged] at hends
  exact ⟨rows, found, hrows, hfound, hends⟩

/-- A text that is no payload is handed in for a project that is there, and is kept. -/
theorem respond_storing_unreadable :
    let fresh (first : Nat) : Fresh :=
      ⟨fun k => ⟨BitVec.ofNat 128 (first + k)⟩, ⟨2024, 2, 29, 12, 0, 0, 0⟩⟩
    let s := Store.empty.run [⟨fresh 1, .register ⟨"demo", "/d", "rust"⟩⟩]
    let r : Request := ⟨"POST", "/projects/demo/fossils", [0x78]⟩
    let q : Question := ⟨.fossils "demo", "demo", [], "x"⟩
    (respond s (fresh 2) ⟨.empty, []⟩ r).1.status = 422 ∧
      ∃ rows found, s.queryLog = some rows ∧ s.findProject "demo" .strict = .ok found ∧
        AnswersStoring q [0x78]
          (s.withLog (some (rows ++ [queryRow
            ⟨(fresh 2).id 0, "store_fossil", some "demo", q.logEntry.queryParams,
              (fresh 2).now⟩])))
          found (respond s (fresh 2) ⟨.empty, []⟩ r) := by
  intro fresh s r q
  have hquery : (Target.ofString r.target).query = [] := by decide +kernel
  have hreached : Question.ofRequest r = .ok q := by
    rw [@Question.ofRequest_store r "demo" "demo" "x" (by decide +kernel) rfl (by decide +kernel)
      (by decide +kernel) (by decide) (by decide +kernel), hquery]
  refine ⟨by decide +kernel, ?_⟩
  exact respond_storing [⟨fresh 1, .register ⟨"demo", "/d", "rust"⟩⟩] (by decide) (fresh 2)
    ⟨.empty, []⟩ r q "demo" hreached rfl (by decide +kernel)
    ⟨by decide +kernel, by decide +kernel, by decide +kernel, by decide +kernel⟩

end FossilRecord.Http
