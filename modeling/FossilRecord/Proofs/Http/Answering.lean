import FossilRecord.Proofs.Http.Logging
import FossilRecord.Proofs.Store.Outcome
import FossilRecord.Proofs.Text.Octets

/-!
# How a question is answered

A question that only reads is answered from the tables beside the log, and leaves them as they are.
Where a text is stored, what is to be done is decided by two things, what the name leads to and what
the text is read as, and is then carried out with the identifiers and the time that are taken from
outside.  `storeFossil_eq_carryOut` says so of sound tables.
-/

namespace FossilRecord.Http

open Store (Cell QueryRow Failure Sound Step Unseen draws rawInsight insightRow)

/-! ## What a request that reaches a tool is like -/

section

variable {r : Request} {q : Question}

/-- A request that hands in a text reaches the tool if its body is not too long and is a text. -/
theorem Question.ofRequest_store {written name text : String}
    (hroute : Route.ofPath? (Target.ofString r.target).path = some (.fossils written))
    (hmethod : r.method = "POST") (hname : decodePart written = some name)
    (hquery : (Route.fossils written).shape.check (Target.ofString r.target).query = .ok ())
    (hlength : r.body.length ≤ bodyLimit) (htext : Text.strict r.body = .ok text) :
    Question.ofRequest r =
      .ok ⟨.fossils written, name, (Target.ofString r.target).query, text⟩ := by
  have htakes : (Route.fossils written).takes r.method = true := by
    rw [hmethod]
    rfl
  have hbody : readBody r.body = .ok text := by
    rw [readBody, if_neg (Nat.not_lt.mpr hlength), htext]
  have hpart : decodePart ((Route.fossils written).name?.getD "") = some name := hname
  unfold Question.ofRequest
  simp only [hroute, htakes, hpart, hquery, hbody, Bool.not_true, Bool.false_eq_true, if_false]
  rfl

/-- A request that reaches a tool, other than one for the head of an answer, gets the answer of the
tool. -/
theorem respond_of_ne_head (h : Question.ofRequest r = .ok q) (hmethod : r.method ≠ "HEAD")
    (s : Store) (fresh : Fresh) (around : Surroundings) :
    respond s fresh around r = q.answer s fresh around := by
  unfold respond
  rw [h]
  simp only
  rw [if_neg hmethod]

/-- A request for reading that reaches a tool gets the answer of the tool. -/
theorem respond_of_reading (h : Question.ofRequest r = .ok q) (hmethod : r.method = "GET")
    (s : Store) (fresh : Fresh) (around : Surroundings) :
    respond s fresh around r = q.answer s fresh around := by
  refine respond_of_ne_head h ?_ s fresh around
  rw [hmethod]
  decide

/-- A request that reaches a tool leaves what the tool leaves. -/
theorem respond_snd (h : Question.ofRequest r = .ok q) (s : Store) (fresh : Fresh)
    (around : Surroundings) : (respond s fresh around r).2 = (q.answer s fresh around).2 := by
  unfold respond
  rw [h]

/-- A request that does not reach a tool is answered whatever the store is, and leaves it alone. -/
theorem respond_of_refused {response : Response} (h : Question.ofRequest r = .error response)
    (s : Store) (fresh : Fresh) (around : Surroundings) :
    respond s fresh around r = (response, s) := by
  unfold respond
  rw [h]

/-- A request that hands in a text is neither one for reading nor one for the head of an answer. -/
theorem Question.method_of_store (h : Question.ofRequest r = .ok q) {written : String}
    (hroute : q.route = .fossils written) : r.method = "POST" := by
  have htakes := (Question.ofRequest_ok h).takes
  rw [hroute] at htakes
  exact of_decide_eq_true htakes

/-- Two stores give the same response to a request if they give the same answer to its question. -/
theorem respond_congr {s t : Store} {fresh fresh' : Fresh} {around : Surroundings}
    (h : ∀ q, Question.ofRequest r = .ok q →
      (q.answer s fresh around).1 = (q.answer t fresh' around).1) :
    (respond s fresh around r).1 = (respond t fresh' around r).1 := by
  unfold respond
  cases hread : Question.ofRequest r with
  | error response => rfl
  | ok q =>
      simp only
      rw [h q hread]

/-- The text of a body has the octets of the body. -/
theorem octets_of_readBody {body : List UInt8} {text : String} (h : readBody body = .ok text) :
    Text.octets text = body := by
  unfold readBody at h
  split at h
  · cases h
  · split at h
    · rename_i read hread
      cases h
      exact Text.octets_of_strict hread
    · cases h

end

/-! ## Reading -/

section

variable {q : Question} {s : Store} {fresh : Fresh}

/-- No tool but the one for the corpus looks at the log. -/
theorem Question.read_withLog (hroute : q.route ≠ .analysis) (log : Option (List QueryRow))
    (around : Surroundings) : q.read (s.withLog log) around = q.read s around := by
  unfold Question.read
  cases hq : q.route with
  | analysis => exact absurd hq hroute
  | projects | fossil _ | history _ | changes _ | fossils _ | lookup _ | context _ | related _
  | insights => rfl

/-- A question that is not for a corpus and stores nothing is answered from the tables beside the
log. -/
theorem Question.answer_of_read (hroute : q.route ≠ .analysis)
    (hreads : ∀ written, q.route ≠ .fossils written) (around : Surroundings) :
    q.answer s fresh around = (q.read s around, s.logQuietly fresh q.logEntry) := by
  have hread : q.read (s.logQuietly fresh q.logEntry) around = q.read s around := by
    rw [Store.logQuietly_eq, Question.read_withLog hroute]
  unfold Question.answer
  cases hq : q.route with
  | analysis => exact absurd hq hroute
  | fossils written => exact absurd hq (hreads written)
  | projects | fossil _ | history _ | changes _ | lookup _ | context _ | related _ | insights =>
      simp only [hread]

theorem Question.answer_of_store {written : String} (hroute : q.route = .fossils written)
    (around : Surroundings) :
    q.answer s fresh around =
      (.ofOutcome 201 (storeFossil (s.logQuietly fresh q.logEntry) (fresh.after 1) q.name q.text
          (value? q.query "prompt_used")).1,
        (storeFossil (s.logQuietly fresh q.logEntry) (fresh.after 1) q.name q.text
          (value? q.query "prompt_used")).2) := by
  unfold Question.answer
  rw [hroute]

end

/-! ## Storing -/

/-- What is to be done with a text that is handed in. -/
inductive Decision where
  /-- Nothing is written. -/
  | refuse (refusal : Refusal)
  /-- The text is kept for a project. -/
  | keep (p : Project) (flaw : PayloadFlaw)
  /-- The payload becomes a version of a project. -/
  | store (p : Project) (version : Int) (payload : Payload) (promptUsed : String)

/-- What is decided about a text: whether there is the project, and then whether it is a payload. -/
def decisionOn (s : Store) (name body : String) (promptUsed : Option String) : Decision :=
  match s.findProject name .strict, Payload.parse body with
  | .error failure, _ => .refuse (.failed failure)
  | .ok none, _ => .refuse (noProject name)
  | .ok (some p), .error flaw => .keep p flaw
  | .ok (some p), .ok payload =>
      match s.promptFor p promptUsed, s.versionFor (Cell.uuid p.projectId) with
      | .error failure, _ => .refuse (.failed failure)
      | .ok _, .error failure => .refuse (.failed failure)
      | .ok prompt, .ok version => .store p version payload prompt

/-- Does what was decided, with what is taken from outside. -/
def Decision.carryOut (s : Store) (fresh : Fresh) (body : String) :
    Decision → Outcome Json × Store
  | .refuse refusal => (.error refusal, s)
  | .keep p flaw =>
      (.error (.unprocessable flaw.message),
        { s with insights := s.insights ++ [insightRow (rawInsight fresh p body)] })
  | .store p version payload promptUsed =>
      (.ok (.object (FossilReceipt.mk (fresh.id 0) p.projectId p.name version
          payload.symbols.length).toFields),
        s.withFossil fresh p.projectId version payload promptUsed)

section

variable {past : List Step} {s : Store} {fresh : Fresh} {name body : String}
  {promptUsed : Option String}

/-- Whether or not the text is a payload, a name that leads to no project is all that is told. -/
theorem storeFossil_of_unknown (hfound : s.findProject name .strict = .ok none) :
    storeFossil s fresh name body promptUsed = (.error (noProject name), s) := by
  unfold storeFossil
  cases hparse : Payload.parse body with
  | error flaw =>
      rw [Store.ingest_of_malformed hparse]
      simp only
      rw [Store.keepRawFossil_of_unknown hfound]
  | ok p => rw [Store.ingest_of_unknown hparse hfound]

/-- A text that is no payload is kept, as it is, for the project that the name leads to. -/
theorem storeFossil_of_malformed (h : s.Legible) {p : Project}
    (hfound : s.findProject name .strict = .ok (some p)) {flaw : PayloadFlaw}
    (hparse : Payload.parse body = .error flaw)
    (hnew : ∀ r ∈ s.insights, r.insightId ≠ Cell.uuid (fresh.id 0)) :
    storeFossil s fresh name body promptUsed =
      (.error (.unprocessable flaw.message),
        { s with insights := s.insights ++ [insightRow (rawInsight fresh p body)] }) := by
  unfold storeFossil
  rw [Store.ingest_of_malformed hparse]
  simp only
  rw [Store.keepRawFossil_of_found h hfound hnew]

theorem storeFossil_of_stored {receipt : FossilReceipt} {after : Store}
    (hstored : s.ingest fresh name body promptUsed = (.ok (.stored receipt), after)) :
    storeFossil s fresh name body promptUsed = (.ok (.object receipt.toFields), after) := by
  unfold storeFossil
  rw [hstored]

theorem storeFossil_of_failed {failure : Failure} {after : Store}
    (hfailed : s.ingest fresh name body promptUsed = (.error failure, after)) :
    storeFossil s fresh name body promptUsed = (.error (.failed failure), after) := by
  unfold storeFossil
  rw [hfailed]

/-- In sound tables without further constraints, what is decided is done, whatever is drawn. -/
theorem storeFossil_eq_carryOut (h : Sound past s) (hfree : s.Unconstrained)
    (hfresh : Unseen fresh s (draws body)) :
    storeFossil s fresh name body promptUsed =
      (decisionOn s name body promptUsed).carryOut s fresh body := by
  obtain ⟨found, hfound⟩ := h.legible.findProject_total name .strict
  unfold decisionOn
  rw [hfound]
  cases found with
  | none => exact storeFossil_of_unknown hfound
  | some p =>
      cases hparse : Payload.parse body with
      | error flaw =>
          have hdraws : draws body = 1 := by
            unfold draws
            rw [hparse]
          exact storeFossil_of_malformed h.legible hfound hparse
            (hfresh.insights 0 (by omega))
      | ok payload =>
          obtain ⟨prompt, hprompt⟩ := h.legible.promptFor p promptUsed
          have hversions := h.coherent.versions (Cell.uuid p.projectId)
          simp only [hprompt]
          by_cases hroom : ((s.fossilRows (Cell.uuid p.projectId)).length : Int) < Json.maxInt64
          · have hdraws : draws body = payload.symbols.length + 1 := by
              unfold draws
              rw [hparse]
            rw [hdraws] at hfresh
            rw [Store.versionFor_of_lt hversions hroom]
            exact storeFossil_of_stored (Store.ingest_of_prompt h.coherent h.legible
              hfree.summaries hfree.symbolNames hfound hparse hroom hfresh.unused hprompt)
          · obtain ⟨failure, hfull⟩ := Store.versionFor_of_le hversions (Int.not_lt.mp hroom)
            rw [hfull]
            exact storeFossil_of_failed (Store.ingest_of_full hparse hfound hprompt hfull)

end

end FossilRecord.Http
