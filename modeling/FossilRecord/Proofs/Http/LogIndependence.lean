import FossilRecord.Proofs.Http.Answering
import FossilRecord.Proofs.Store.Alike

/-!
# The log decides nothing

What a tool answers and what it writes beside its entry in the log does not depend on the log: not on
the entries that are there, and not on whether there is a log at all.  Two runs of one request, with
different logs and with different identifiers and times, give responses and tables that are the same
up to those identifiers and times.  The one place that reads the log is that of the corpus.

For a text that is stored this is so because what is to be done is decided by the tables beside the
log before anything is drawn: one decision is carried out by both runs.
-/

namespace FossilRecord.Http

open Store (QueryRow Sound Step Unseen TablesAlike)

/-- The same response, or the receipt of a fossil that each run stored under the identifier that it
drew. -/
def Response.Alike (a b : Fresh) (x y : Response) : Prop :=
  x = y ∨ ∃ (receipt : FossilReceipt) (k : Nat), receipt.fossilId = a.id k ∧
    x = .json 201 (.object receipt.toFields) ∧
    y = .json 201 (.object { receipt with fossilId := b.id k }.toFields)

section

variable {a b : Fresh}

/-- What is decided about a text does not depend on the log. -/
theorem decisionOn_withLog (s : Store) (log : Option (List QueryRow)) (name body : String)
    (promptUsed : Option String) :
    decisionOn (s.withLog log) name body promptUsed = decisionOn s name body promptUsed := by
  unfold decisionOn
  simp only [Store.findProject_withLog, Store.promptFor_withLog, Store.versionFor_withLog]

/-- What was decided is done without a look at the log. -/
theorem Decision.carryOut_queryLog (d : Decision) (s : Store) (body : String) :
    (d.carryOut s a body).2.queryLog = s.queryLog := by
  cases d with
  | refuse | keep | store => rfl

/-- What was decided is done alike by two runs with different draws and different logs. -/
theorem Decision.carryOut_alike (d : Decision) (s : Store) (log log' : Option (List QueryRow))
    (body : String) :
    Response.Alike a b (.ofOutcome 201 (d.carryOut (s.withLog log) a body).1)
        (.ofOutcome 201 (d.carryOut (s.withLog log') b body).1) ∧
      TablesAlike a b (d.carryOut (s.withLog log) a body).2
        (d.carryOut (s.withLog log') b body).2 := by
  cases d with
  | refuse refusal => exact ⟨.inl rfl, .withLog s log log'⟩
  | keep p flaw => exact ⟨.inl rfl, (TablesAlike.withLog s log log').withInsight p body⟩
  | store p version payload promptUsed =>
      constructor
      · right
        exact ⟨⟨a.id 0, p.projectId, p.name, version, payload.symbols.length⟩, 0, rfl, rfl, rfl⟩
      · exact (TablesAlike.withLog s log log').withFossil rfl p.projectId version payload promptUsed

theorem Response.Alike.of_after {count : Nat} {x y : Response}
    (h : Response.Alike (a.after count) (b.after count) x y) : Response.Alike a b x y := by
  rcases h with hsame | ⟨receipt, k, hid, hx, hy⟩
  · exact .inl hsame
  · exact .inr ⟨receipt, k + count, hid, hx, hy⟩

end

/-! ## Whole requests -/

/-- Whether a request is for a corpus: it names the place, and comes in a way that the place takes. -/
def Request.AsksForCorpus (r : Request) : Prop :=
  Route.ofPath? (Target.ofString r.target).path = some .analysis ∧
    (r.method = "GET" ∨ r.method = "HEAD")

/-- How many identifiers a request draws beside that of its entry in the log. -/
def Request.draws (r : Request) : Nat :=
  match Question.ofRequest r with
  | .ok ⟨.fossils _, _, _, text⟩ => Store.draws text
  | _ => 0

section

variable {past : List Step} {s : Store} {fresh fresh' : Fresh} {r : Request} {q : Question}

theorem Request.draws_of_store (h : Question.ofRequest r = .ok q) {written : String}
    (hroute : q.route = .fossils written) : r.draws = Store.draws q.text := by
  obtain ⟨route, name, query, text⟩ := q
  cases hroute
  rw [Request.draws, h]

theorem Question.route_ne_analysis (h : Question.ofRequest r = .ok q) (hnot : ¬r.AsksForCorpus) :
    q.route ≠ .analysis := by
  intro hroute
  obtain ⟨hpath, htakes, -, -, -⟩ := Question.ofRequest_ok h
  rw [hroute] at hpath htakes
  have hmethod : r.method = "GET" ∨ r.method = "HEAD" := by
    simpa [Route.takes] using htakes
  exact hnot ⟨hpath, hmethod⟩

/-- A question that stores a text is answered alike by two runs. -/
theorem Question.answer_alike (h : Sound past s) (hfree : s.Unconstrained) {written : String}
    (hroute : q.route = .fossils written)
    (hfresh : Unseen (fresh.after 1) s (Store.draws q.text))
    (hfresh' : Unseen (fresh'.after 1) s (Store.draws q.text))
    (log log' : Option (List QueryRow)) (around : Surroundings) :
    Response.Alike fresh fresh' (q.answer (s.withLog log) fresh around).1
        (q.answer (s.withLog log') fresh' around).1 ∧
      TablesAlike fresh fresh' (q.answer (s.withLog log) fresh around).2
        (q.answer (s.withLog log') fresh' around).2 := by
  have hdone : ∀ fresh log, Unseen fresh s (Store.draws q.text) →
      storeFossil (s.withLog log) fresh q.name q.text (value? q.query "prompt_used") =
        (decisionOn s q.name q.text (value? q.query "prompt_used")).carryOut (s.withLog log) fresh
          q.text := by
    intro fresh log hfresh
    rw [storeFossil_eq_carryOut (h.withLog log) (hfree.withLog log) (hfresh.withLog log),
      decisionOn_withLog]
  rw [Question.answer_of_store hroute, Question.answer_of_store hroute, Store.logQuietly_eq,
    Store.logQuietly_eq (s.withLog log'), Store.withLog_withLog, Store.withLog_withLog,
    hdone _ _ hfresh, hdone _ _ hfresh']
  -- one decision is carried out twice
  obtain ⟨hresponse, htables⟩ :=
    (decisionOn s q.name q.text (value? q.query "prompt_used")).carryOut_alike s _ _ q.text
  exact ⟨hresponse.of_after, htables.of_after⟩

/-- Two runs of a request that is not for a corpus, with different logs, are alike. -/
theorem respond_alike (h : Sound past s) (hfree : s.Unconstrained)
    (hfresh : Unseen (fresh.after 1) s r.draws) (hfresh' : Unseen (fresh'.after 1) s r.draws)
    (hnot : ¬r.AsksForCorpus) (log log' : Option (List QueryRow)) (around : Surroundings) :
    Response.Alike fresh fresh' (respond (s.withLog log) fresh around r).1
        (respond (s.withLog log') fresh' around r).1 ∧
      TablesAlike fresh fresh' (respond (s.withLog log) fresh around r).2
        (respond (s.withLog log') fresh' around r).2 := by
  cases hreached : Question.ofRequest r with
  | error response =>
      rw [respond_of_refused hreached, respond_of_refused hreached]
      exact ⟨.inl rfl, .withLog s log log'⟩
  | ok q =>
      have hanalysis := Question.route_ne_analysis hreached hnot
      by_cases hstore : ∃ written, q.route = .fossils written
      · obtain ⟨written, hroute⟩ := hstore
        have hmethod : r.method ≠ "HEAD" := by
          rw [Question.method_of_store hreached hroute]
          decide
        rw [Request.draws_of_store hreached hroute] at hfresh hfresh'
        rw [respond_of_ne_head hreached hmethod, respond_of_ne_head hreached hmethod]
        exact Question.answer_alike h hfree hroute hfresh hfresh' log log' around
      · have hreads : ∀ written, q.route ≠ .fossils written :=
          fun written hroute => hstore ⟨written, hroute⟩
        have hanswer : ∀ log fresh, q.answer (s.withLog log) fresh around =
            (q.read s around, s.withLog ((s.withLog log).logQuietly fresh q.logEntry).queryLog) := by
          intro log fresh
          have hlogged := Store.logQuietly_eq (s.withLog log) fresh q.logEntry
          rw [Store.withLog_withLog] at hlogged
          rw [Question.answer_of_read hanalysis hreads, Question.read_withLog hanalysis, ← hlogged]
        constructor
        · left
          apply respond_congr
          intro q' hreached'
          rw [hreached] at hreached'
          cases hreached'
          rw [hanswer, hanswer]
        · rw [respond_snd hreached, respond_snd hreached, hanswer, hanswer]
          exact .withLog s _ _

/-- A request for reading leaves all tables but the log as they were. -/
theorem respond_get_leaves (hmethod : r.method = "GET") (s : Store) (fresh : Fresh)
    (around : Surroundings) : ∃ log, (respond s fresh around r).2 = s.withLog log := by
  cases hreached : Question.ofRequest r with
  | error response => exact ⟨s.queryLog, by rw [respond_of_refused hreached]; rfl⟩
  | ok q =>
      have hreads : ∀ written, q.route ≠ .fossils written := by
        intro written hroute
        have hpost := Question.method_of_store hreached hroute
        rw [hmethod] at hpost
        exact absurd hpost (by decide)
      rw [respond_snd hreached]
      by_cases hroute : q.route = .analysis
      · unfold Question.answer
        rw [hroute]
        simp only
        split
        · exact ⟨_, Store.logQuietly_eq s fresh q.logEntry⟩
        · exact ⟨s.queryLog, rfl⟩
      · rw [Question.answer_of_read hroute hreads]
        exact ⟨_, Store.logQuietly_eq s fresh q.logEntry⟩

end

/-- After any history, the log may be replaced by any other one or be missing: a request that is not
for a corpus gets the same response and leaves the same tables beside the log, up to the identifiers
and the times that the two runs take from outside.  A request for reading, be it for a corpus or not,
leaves all tables beside the log as they were. -/
theorem respond_whatever_log (steps : List Step)
    (hclock : ∀ step ∈ steps, step.fresh.now.IsValid) (log : Option (List QueryRow))
    (fresh fresh' : Fresh) (around : Surroundings) (r : Request)
    (hfresh : Unseen (fresh.after 1) (Store.empty.run steps) r.draws)
    (hfresh' : Unseen (fresh'.after 1) (Store.empty.run steps) r.draws) :
    let s := Store.empty.run steps
    (¬r.AsksForCorpus →
      Response.Alike fresh fresh' (respond s fresh around r).1
          (respond (s.withLog log) fresh' around r).1 ∧
        TablesAlike fresh fresh' (respond s fresh around r).2
          (respond (s.withLog log) fresh' around r).2) ∧
      (r.method = "GET" → ∃ left, (respond s fresh around r).2 = s.withLog left) := by
  intro s
  have hblank : Sound [] Store.empty := Sound.blank false false
  have hs : Sound ([] ++ steps) s := hblank.run hclock
  constructor
  · intro hnot
    exact respond_alike hs (Store.unconstrained_run steps) hfresh hfresh' hnot s.queryLog log around
  · intro hmethod
    exact respond_get_leaves hmethod s fresh around

/-- A text with a symbol is handed in for a project twice, once with the log that there is and once
without one, and becomes a fossil both times. -/
theorem respond_whatever_log_stored :
    let fresh (first : Nat) : Fresh :=
      ⟨fun k => ⟨BitVec.ofNat 128 (first + k)⟩, ⟨2024, 2, 29, 12, 0, 0, 0⟩⟩
    let s := Store.empty.run [⟨fresh 1, .register ⟨"demo", "/d", "rust"⟩⟩]
    let r : Request := ⟨"POST", "/projects/demo/fossils",
      Text.octets "\x7b\"symbols\":[\x7b\"name\":\"f\"\x7d]\x7d"⟩
    (respond s (fresh 2) ⟨.empty, []⟩ r).1.status = 201 ∧
      (respond s (fresh 2) ⟨.empty, []⟩ r).2.symbols.length = 1 ∧
      Response.Alike (fresh 2) (fresh 9) (respond s (fresh 2) ⟨.empty, []⟩ r).1
        (respond (s.withLog none) (fresh 9) ⟨.empty, []⟩ r).1 ∧
      TablesAlike (fresh 2) (fresh 9) (respond s (fresh 2) ⟨.empty, []⟩ r).2
        (respond (s.withLog none) (fresh 9) ⟨.empty, []⟩ r).2 := by
  intro fresh s r
  have hcorpus : ¬r.AsksForCorpus := by
    rintro ⟨-, hmethod | hmethod⟩
    · exact absurd hmethod (by decide)
    · exact absurd hmethod (by decide)
  have hanswered : (respond s (fresh 2) ⟨.empty, []⟩ r).1.status = 201 ∧
      (respond s (fresh 2) ⟨.empty, []⟩ r).2.symbols.length = 1 := by
    decide +kernel
  obtain ⟨halike, -⟩ := respond_whatever_log [⟨fresh 1, .register ⟨"demo", "/d", "rust"⟩⟩]
    (by decide) none (fresh 2) (fresh 9) ⟨.empty, []⟩ r
    ⟨by decide +kernel, by decide +kernel, by decide +kernel, by decide +kernel⟩
    ⟨by decide +kernel, by decide +kernel, by decide +kernel, by decide +kernel⟩
  exact ⟨hanswered.1, hanswered.2, halike hcorpus⟩

/-- The head of a corpus is answered as the corpus is, which cannot be written without a log. -/
theorem respond_head_analysis :
    let fresh (first : Nat) : Fresh :=
      ⟨fun k => ⟨BitVec.ofNat 128 (first + k)⟩, ⟨2024, 2, 29, 12, 0, 0, 0⟩⟩
    let r : Request := ⟨"HEAD", "/analysis", []⟩
    (respond Store.empty (fresh 1) ⟨.empty, []⟩ r).1.status = 200 ∧
      (respond (Store.empty.withLog none) (fresh 1) ⟨.empty, []⟩ r).1.status = 500 :=
  ⟨by decide +kernel, by decide +kernel⟩

end FossilRecord.Http
