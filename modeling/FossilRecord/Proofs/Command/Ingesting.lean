import FossilRecord.Command.Run
import FossilRecord.Proofs.Http.LogIndependence
import FossilRecord.Proofs.Store.Snapshot

/-!
# A text from a file and a text that is posted

The command line and the tool that is asked over HTTP store a text in the same way: whatever the store
is, one of them does what the other one does (`ingestText_eq`), and only the words differ in which
the result is told.  What each of them needs around that, opening the file of the store and reading
the input on the one side, logging the request on the other, changes nothing about it.

`run_ingest_as_posted` compares whole runs.  Each draws identifiers and reads the clock for itself, so
the tables are the same up to those.
-/

namespace FossilRecord.Command

open Store (Cell Failure Sound Step TablesAlike Unseen draws)

/-! ## The same in other words -/

/-- What is said on the command line where a request is refused. -/
def complaintOf : Http.Refusal → Complaint
  | .notFound message | .badRequest message => .plain message
  | .unprocessable reason =>
      .plain (s!"malformed fossil output ({reason}); raw text kept as a {Insight.rawFossil}" ++
        " insight")
  | .failed failure => ofFailure failure

/-- What a command prints where a request is answered. -/
def told : Http.Outcome Json → Outcome
  | .ok value => .ok (printed value)
  | .error refusal => .error (complaintOf refusal)

/-- The command does what the tool does, with the same draws and whatever the store is. -/
theorem ingestText_eq (s : Store) (fresh : Fresh) (name raw : String)
    (promptUsed : Option String) :
    ingestText s fresh name raw promptUsed =
      (told (Http.storeFossil s fresh name raw promptUsed).1,
        (Http.storeFossil s fresh name raw promptUsed).2) := by
  unfold ingestText Http.storeFossil
  obtain ⟨result, after⟩ := s.ingest fresh name raw promptUsed
  rcases result with failure | receipt | name' | reason
  · rfl
  · rfl
  · rfl
  · simp only
    obtain ⟨kept, left⟩ := after.keepRawFossil fresh name raw
    rcases kept with failure | _ | insight
    · rfl
    · rfl
    · rfl

/-! ## What a run does -/

/-- Arguments that hand in the text of a file, where the store is kept in another file. -/
inductive IngestsFile (e : Environment) (s : Store) (place : Disk.Place) (name text : String)
    (promptUsed : Option String) (arguments : List String) : Prop where
  | intro (i : Invocation) (settings : Settings) (input : String) (octets : List UInt8)
      (harguments : Invocation.ofArguments arguments = .ok i)
      (hcommand : i.command = .ingest name input promptUsed)
      (hsettings : Settings.load e.disk e.folder e.env i.config = .ok settings)
      (hopen : Store.ofPath e.disk e.folder settings.storePath = .ok ⟨s, some place⟩)
      (hfile : isStandardInput input = false)
      (hread : e.disk.read e.folder input = .ok octets)
      (htext : Text.strict octets = .ok text)
      (hother : e.disk.locate e.folder input ≠ .ok place)

/-- A request that hands in a text in its body, where the name is in its path and the prompt in its
query, and the body is not too long. -/
inductive HandsIn (name text : String) (promptUsed : Option String) (r : Http.Request) : Prop where
  | intro (written : String)
      (hroute : Http.Route.ofPath? (Http.Target.ofString r.target).path = some (.fossils written))
      (hmethod : r.method = "POST") (hname : Http.decodePart written = some name)
      (hquery : (Http.Route.fossils written).shape.check (Http.Target.ofString r.target).query =
        .ok ())
      (hprompt : Http.value? (Http.Target.ofString r.target).query "prompt_used" = promptUsed)
      (hlength : r.body.length ≤ Http.bodyLimit) (htext : Text.strict r.body = .ok text)

section

variable {e : Environment} {s : Store} {place : Disk.Place} {name text : String}
  {promptUsed : Option String} {arguments : List String}

/-- A run reports what becomes of the text, and puts what is left into the file of the store. -/
theorem run_of_ingestsFile (h : IngestsFile e s place name text promptUsed arguments)
    (fresh : Fresh) :
    (run e fresh arguments).1 = .ofOutcome (ingestText s fresh name text promptUsed).1 ∧
      (run e fresh arguments).2.readAt place =
        .ok (ingestText s fresh name text promptUsed).2.toOctets := by
  obtain ⟨i, settings, input, octets, harguments, hcommand, hsettings, hopen, hfile, hread, htext,
    hother⟩ := h
  have hplace := Store.isFile_of_ofPath hopen
  -- the store is put into its file first, which leaves the text where it is
  have hkept : (Store.keep e.disk (some place) s).read e.folder input = .ok octets :=
    Disk.read_put hplace hread hother
  have hinput : readInput { e with disk := Store.keep e.disk (some place) s } input = .ok text := by
    rw [readInput, hfile]
    simp only [Bool.false_eq_true, if_false, hkept, textOf, htext]
  have hrun : run e fresh arguments =
      (.ofOutcome (ingestText s fresh name text promptUsed).1,
        Store.keep (Store.keep e.disk (some place) s) (some place)
          (ingestText s fresh name text promptUsed).2) := by
    rw [run, harguments]
    simp only [hsettings]
    rw [hcommand, performWith]
    · simp only [hopen, perform, withInput, hinput]
    · simp
  rw [hrun]
  obtain ⟨outcome, left⟩ := ingestText s fresh name text promptUsed
  exact ⟨rfl, Store.readAt_keep (Store.isFile_keep hplace s) left⟩

/-- A request is answered as the tool says, and leaves what the tool leaves, once it is logged. -/
theorem respond_of_handsIn {r : Http.Request} (h : HandsIn name text promptUsed r) (s : Store)
    (fresh : Fresh) (around : Http.Surroundings) :
    ∃ log, Http.respond s fresh around r =
      (.ofOutcome 201 (Http.storeFossil (s.withLog log) (fresh.after 1) name text promptUsed).1,
        (Http.storeFossil (s.withLog log) (fresh.after 1) name text promptUsed).2) := by
  obtain ⟨written, hroute, hmethod, hname, hquery, hprompt, hlength, htext⟩ := h
  have hreached := Http.Question.ofRequest_store hroute hmethod hname hquery hlength htext
  have hhead : r.method ≠ "HEAD" := by
    rw [hmethod]
    decide
  rw [Http.respond_of_ne_head hreached hhead, Http.Question.answer_of_store rfl,
    Store.logQuietly_eq, hprompt]
  exact ⟨_, rfl⟩

end

/-! ## What is told -/

/-- What a run reports and a request is answered, where the run has drawn `a` and the request `b`: it
depends on what the name leads to and on what the text is read as.  A receipt is the same up to the
identifier of the fossil; it is missing only if the versions of the project have run out. -/
inductive ToldAlike (a b : Fresh) (s : Store) (name text : String) :
    Report → Http.Response → Prop where
  | unknown (hfound : s.findProject name .strict = .ok none) :
      ToldAlike a b s name text (.failed (.plain s!"project '{name}' not found"))
        (.json 404 (.object [("error", .text s!"project '{name}' not found")]))
  | malformed (p : Project) (flaw : PayloadFlaw)
      (hfound : s.findProject name .strict = .ok (some p))
      (hparse : Payload.parse text = .error flaw) :
      ToldAlike a b s name text
        (.failed (.plain
          (s!"malformed fossil output ({flaw.message}); raw text kept as a {Insight.rawFossil}" ++
            " insight")))
        (.json 422 (.object [("error", .text flaw.message)]))
  | stored (p : Project) (payload : Payload) (version : Int)
      (hfound : s.findProject name .strict = .ok (some p)) (hparse : Payload.parse text = .ok payload)
      (hversion : s.versionFor (Cell.uuid p.projectId) = .ok version) :
      ToldAlike a b s name text
        (.done (printed (.object
          (FossilReceipt.mk (a.id 0) p.projectId p.name version payload.symbols.length).toFields)))
        (.json 201 (.object
          (FossilReceipt.mk (b.id 0) p.projectId p.name version payload.symbols.length).toFields))
  | full (p : Project) (payload : Payload) (failure : Failure)
      (hfound : s.findProject name .strict = .ok (some p)) (hparse : Payload.parse text = .ok payload)
      (hversion : s.versionFor (Cell.uuid p.projectId) = .error failure) :
      ToldAlike a b s name text (.failed (ofFailure failure))
        (.json 500 (.object [("error", .text failure.message)]))

/-! ### The words for a project that is not there -/

/-- A text starts as its first piece does. -/
theorem head?_append {piece : String} {first : Char} (h : piece.toList.head? = some first)
    (rest : String) : (piece ++ rest).toList.head? = some first := by
  rw [String.toList_append, List.head?_append, h]
  rfl

/-- No failure of the store is told in words that start as those for a missing project do. -/
theorem head?_message (failure : Failure) :
    ∃ first, failure.message.toList.head? = some first ∧ first ≠ 'p' := by
  cases failure with
  | unknownStatus word => exact ⟨'c', head?_append (by decide +kernel) _, by decide⟩
  | table fault => exact ⟨'d', head?_append (head?_append (by decide +kernel) _) _, by decide⟩
  | json message => exact ⟨'j', head?_append (by decide +kernel) _, by decide⟩
  | uuid flaw => exact ⟨'u', head?_append (by decide +kernel) _, by decide⟩
  | instant flaw => exact ⟨'d', head?_append (by decide +kernel) _, by decide⟩
  | versionTaken project attempts =>
      refine ⟨'c', head?_append (head?_append (head?_append (head?_append ?_ _) _) _) _, by decide⟩
      decide +kernel

theorem failed_ne_noProject {c : Complaint} {first : Char}
    (hfirst : c.message.toList.head? = some first) (hne : first ≠ 'p') (name : String) :
    Report.failed c ≠ .failed (noProject name) := by
  intro hsame
  have hwords : (noProject name).message.toList.head? = some 'p' :=
    head?_append (head?_append (by decide +kernel) _) _
  have herrors := congrArg (fun r => r.errors.toList) hsame
  simp only [Report.failed, Complaint.render, String.toList_append, List.append_assoc,
    List.append_cancel_left_eq] at herrors
  have hheads := congrArg List.head? herrors
  simp [List.head?_append, hfirst, hwords] at hheads
  exact hne hheads

namespace ToldAlike

variable {a b : Fresh} {s : Store} {name text : String} {report : Report} {response : Http.Response}

/-- The one succeeds where the other one does. -/
theorem code_eq_zero_iff (h : ToldAlike a b s name text report response) :
    report.code = 0 ↔ response.status = 201 := by
  cases h with
  | stored => exact iff_of_true rfl rfl
  | unknown | malformed | full =>
      apply iff_of_false
      · exact Nat.one_ne_zero
      · exact of_decide_eq_true rfl

/-- The one misses the project where the other one does. -/
theorem eq_noProject_iff (h : ToldAlike a b s name text report response) :
    report = .failed (noProject name) ↔ response.status = 404 := by
  cases h with
  | unknown => exact iff_of_true rfl rfl
  | malformed =>
      apply iff_of_false
      · apply failed_ne_noProject _ (show 'm' ≠ 'p' by decide) name
        refine head?_append (head?_append (head?_append (head?_append ?_ _) _) _) _
        decide +kernel
      · exact of_decide_eq_true rfl
  | stored =>
      apply iff_of_false
      · intro hsame
        exact absurd (congrArg Report.code hsame) Nat.zero_ne_one
      · exact of_decide_eq_true rfl
  | full p payload failure =>
      obtain ⟨first, hfirst, hne⟩ := head?_message failure
      apply iff_of_false
      · exact failed_ne_noProject hfirst hne name
      · exact of_decide_eq_true rfl

end ToldAlike

/-! ## Both at once -/

section

variable {past : List Step} {s : Store} {a b : Fresh} {text : String} (name : String)

/-- What is decided about a text is told in both ways. -/
theorem toldAlike_carryOut (h : Sound past s) (promptUsed : Option String) (t : Store) :
    ToldAlike a b s name text
      (.ofOutcome (told ((Http.decisionOn s name text promptUsed).carryOut s a text).1))
      (.ofOutcome 201 ((Http.decisionOn s name text promptUsed).carryOut t b text).1) := by
  obtain ⟨found, hfound⟩ := h.legible.findProject_total name .strict
  unfold Http.decisionOn
  rw [hfound]
  cases found with
  | none => exact .unknown hfound
  | some p =>
      cases hparse : Payload.parse text with
      | error flaw => exact .malformed p flaw hfound hparse
      | ok payload =>
          obtain ⟨prompt, hprompt⟩ := h.legible.promptFor p promptUsed
          simp only [hprompt]
          cases hversion : s.versionFor (Cell.uuid p.projectId) with
          | ok version => exact .stored p payload version hfound hparse hversion
          | error failure => exact .full p payload failure hfound hparse hversion

/-- The command and the tool, on tables that differ in the log and with different draws. -/
theorem ingestText_alike (h : Sound past s) (hfree : s.Unconstrained)
    (ha : Unseen a s (draws text)) (hb : Unseen b s (draws text)) (promptUsed : Option String)
    (log : Option (List Store.QueryRow)) :
    (ingestText s a name text promptUsed).2.queryLog = s.queryLog ∧
      TablesAlike a b (ingestText s a name text promptUsed).2
        (Http.storeFossil (s.withLog log) b name text promptUsed).2 ∧
      ToldAlike a b s name text (.ofOutcome (ingestText s a name text promptUsed).1)
        (.ofOutcome 201 (Http.storeFossil (s.withLog log) b name text promptUsed).1) := by
  -- one decision is carried out twice
  rw [ingestText_eq, Http.storeFossil_eq_carryOut h hfree ha,
    Http.storeFossil_eq_carryOut (h.withLog log) (hfree.withLog log) (hb.withLog log),
    Http.decisionOn_withLog]
  obtain ⟨-, htables⟩ :=
    (Http.decisionOn s name text promptUsed).carryOut_alike s s.queryLog log text
  exact ⟨Http.Decision.carryOut_queryLog _ s text, htables, toldAlike_carryOut name h promptUsed _⟩

end

/-- After any history, a text is handed in from a file and is posted.  The file of the store then
holds the same tables as the tool has left, up to the identifiers and the times that the two take
from outside, and the log that it held before.  The run succeeds, misses the project or finds the
text malformed where the request does, and tells the same. -/
theorem run_ingest_as_posted (steps : List Step) (hclock : ∀ step ∈ steps, step.fresh.now.IsValid)
    (e : Environment) (place : Disk.Place) (name text : String) (promptUsed : Option String)
    (arguments : List String) (r : Http.Request) (around : Http.Surroundings)
    (fresh fresh' : Fresh)
    (hrun : IngestsFile e (Store.empty.run steps) place name text promptUsed arguments)
    (hrequest : HandsIn name text promptUsed r)
    (hfresh : Unseen fresh (Store.empty.run steps) (draws text))
    (hfresh' : Unseen (fresh'.after 1) (Store.empty.run steps) (draws text)) :
    let s := Store.empty.run steps
    let left := run e fresh arguments
    let answered := Http.respond s fresh' around r
    (∃ octets kept, left.2.readAt place = .ok octets ∧ Store.ofOctets? octets = some kept ∧
        kept.queryLog = s.queryLog ∧ TablesAlike fresh (fresh'.after 1) kept answered.2) ∧
      ToldAlike fresh (fresh'.after 1) s name text left.1 answered.1 ∧
      (left.1.code = 0 ↔ answered.1.status = 201) ∧
      (left.1 = .failed (noProject name) ↔ answered.1.status = 404) := by
  intro s left answered
  have hblank : Sound [] Store.empty := Sound.blank false false
  have hs : Sound ([] ++ steps) s := hblank.run hclock
  obtain ⟨hreport, hplace⟩ := run_of_ingestsFile (s := s) hrun fresh
  obtain ⟨log, hanswered⟩ := respond_of_handsIn hrequest s fresh' around
  obtain ⟨hlog, htables, htold⟩ :=
    ingestText_alike name hs (Store.unconstrained_run steps) hfresh hfresh' promptUsed log
  change answered = _ at hanswered
  change left.1 = _ at hreport
  change left.2.readAt place = _ at hplace
  rw [hanswered, hreport, hplace]
  -- all that is needed of the two results is known, so they may be any from here on
  generalize ingestText s fresh name text promptUsed = ingested at *
  generalize Http.storeFossil (s.withLog log) (fresh'.after 1) name text promptUsed = posted at *
  exact ⟨⟨_, ingested.2, rfl, Store.ofOctets?_toOctets _, hlog, htables⟩, htold,
    htold.code_eq_zero_iff, htold.eq_noProject_iff⟩

/-- A payload with a symbol is handed in from a file and is posted, and becomes a fossil both
times. -/
theorem run_ingest_as_posted_stored :
    let fresh (first : Nat) : Fresh :=
      ⟨fun k => ⟨BitVec.ofNat 128 (first + k)⟩, ⟨2024, 2, 29, 12, 0, 0, 0⟩⟩
    let s := Store.empty.run [⟨fresh 1, .register ⟨"demo", "/d", "rust"⟩⟩]
    let text := "\x7b\"symbols\":[\x7b\"name\":\"f\"\x7d]\x7d"
    let e : Environment :=
      ⟨⟨[(["custodian.db"], .file s.toOctets), (["t.json"], .file (Text.octets text))]⟩, [], [], []⟩
    let left := run e (fresh 2) ["ingest", "demo", "t.json", "--prompt-used", "p"]
    let answered := Http.respond s (fresh 9) ⟨.empty, []⟩
      ⟨"POST", "/projects/demo/fossils?prompt_used=p", Text.octets text⟩
    left.1.code = 0 ∧ answered.1.status = 201 ∧ answered.2.symbols.length = 1 ∧
      (∃ octets kept, left.2.readAt ["custodian.db"] = .ok octets ∧
        Store.ofOctets? octets = some kept ∧ kept.queryLog = s.queryLog ∧
        TablesAlike (fresh 2) ((fresh 9).after 1) kept answered.2) ∧
      ToldAlike (fresh 2) ((fresh 9).after 1) s "demo" text left.1 answered.1 := by
  intro fresh s text e left answered
  have hanswered : answered.1.status = 201 ∧ answered.2.symbols.length = 1 := by decide +kernel
  have hopen : Store.ofPath e.disk e.folder "custodian.db" = .ok ⟨s, some ["custodian.db"]⟩ := by
    have hlocate : e.disk.locate e.folder "custodian.db" = .ok ["custodian.db"] := by decide +kernel
    have hread : e.disk.read e.folder "custodian.db" = .ok s.toOctets := by
      rw [Disk.read, hlocate]
      rfl
    rw [Store.ofPath, if_neg (by decide +kernel), hlocate, hread]
    simp only [Store.ofOctets?_toOctets]
  have hrun : IngestsFile e s ["custodian.db"] "demo" text (some "p")
      ["ingest", "demo", "t.json", "--prompt-used", "p"] :=
    ⟨⟨"custodian.toml", .ingest "demo" "t.json" (some "p")⟩, Settings.default_, "t.json",
      Text.octets text, by decide +kernel, rfl, by decide +kernel, hopen, by decide +kernel,
      by decide +kernel, by decide +kernel, by decide +kernel⟩
  have hrequest : HandsIn "demo" text (some "p")
      ⟨"POST", "/projects/demo/fossils?prompt_used=p", Text.octets text⟩ :=
    ⟨"demo", by decide +kernel, rfl, by decide +kernel, by decide +kernel, by decide +kernel,
      by decide +kernel, by decide +kernel⟩
  obtain ⟨hkept, htold, hdone, -⟩ := run_ingest_as_posted
    [⟨fresh 1, .register ⟨"demo", "/d", "rust"⟩⟩] (by decide) e ["custodian.db"] "demo" text
    (some "p") ["ingest", "demo", "t.json", "--prompt-used", "p"] _ ⟨.empty, []⟩ (fresh 2) (fresh 9)
    hrun hrequest
    ⟨by decide +kernel, by decide +kernel, by decide +kernel, by decide +kernel⟩
    ⟨by decide +kernel, by decide +kernel, by decide +kernel, by decide +kernel⟩
  exact ⟨hdone.mpr hanswered.1, hanswered.1, hanswered.2, hkept, htold⟩

end FossilRecord.Command
