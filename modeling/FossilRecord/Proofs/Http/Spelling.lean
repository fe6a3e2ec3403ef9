import FossilRecord.Proofs.Http.Answering
import FossilRecord.Proofs.Http.Addressing
import FossilRecord.Proofs.Http.Logging
import FossilRecord.Proofs.Store.Missing
import FossilRecord.Proofs.Store.Spelling

/-!
# Every spelling of a registered name

A project with a plain name is asked for under any spelling of that name, that is in any case of the
letters A to Z and with blanks around it.  Nothing that is asked so is refused for want of a
project: neither what is ingested, nor the latest fossil, nor a request at any place.  The places
that look fuzzily find active projects only.

`known_alike` puts this beside the fact that no more than those spellings are the same to a lookup:
`other_letters_differ` is a name that is not found in another case, because it has a letter with an
accent.
-/

namespace FossilRecord.Http

open Store (Sound IsPlain Step Cell SameName)

/-! ## Refusals for want of a project -/

/-- Whether a result says that there is no project of some name. -/
def MissesProject {α : Type} (outcome : Outcome α) : Prop :=
  ∃ missing, outcome = .error (noProject missing)

section

variable {α β : Type}

theorem not_missesProject_ok (a : α) : ¬MissesProject (.ok a : Outcome α) := by
  rintro ⟨missing, h⟩
  cases h

theorem not_missesProject_failed (failure : Store.Failure) :
    ¬MissesProject (.error (.failed failure) : Outcome α) := by
  rintro ⟨missing, h⟩
  cases h

theorem not_missesProject_fromStore (x : Except Store.Failure α) :
    ¬MissesProject (fromStore x) := by
  cases x with
  | ok a => exact not_missesProject_ok a
  | error failure => exact not_missesProject_failed failure

theorem not_missesProject_bind {x : Outcome α} {f : α → Outcome β} (hx : ¬MissesProject x)
    (hf : ∀ a, ¬MissesProject (f a)) : ¬MissesProject (x >>= f) := by
  cases x with
  | error refusal =>
      rintro ⟨missing, h⟩
      cases h
      exact hx ⟨missing, rfl⟩
  | ok a => exact hf a

/-- All words about a missing project begin in the same way, so words that do not are about
something else. -/
theorem not_missesProject_notFound {message front : String} {rest : List Char}
    (hfront : message.toList = front.toList ++ rest) (hlength : 9 ≤ front.toList.length)
    (hne : front.toList.take 9 ≠ "project '".toList) :
    ¬MissesProject (.error (.notFound message) : Outcome α) := by
  rintro ⟨missing, h⟩
  have hwords : (s!"project '{missing}' not found").toList =
      "project '".toList ++ (missing.toList ++ "' not found".toList) := by
    simp only [toString, String.toList_append, List.append_assoc]
  rw [noProject, Except.error.injEq, Refusal.notFound.injEq] at h
  refine hne ?_
  rw [← List.take_append_of_le_length hlength, ← hfront, h, hwords]
  exact List.take_left' rfl

/-- An answer of another kind is no such refusal, as the words about a missing fossil are others. -/
theorem not_missesProject_found {l : Lookup α} (h : ∀ missing, l.kind ≠ .projectNotFound missing) :
    ¬MissesProject (found l) := by
  cases l with
  | found value => exact not_missesProject_ok value
  | projectNotFound name => exact absurd rfl (h name)
  | noFossil name =>
      have hwords : (s!"no fossil found for '{name}'").toList =
          "no fossil found for '".toList ++ (name.toList ++ "'".toList) := by
        simp only [toString, String.toList_append, List.append_assoc]
      exact not_missesProject_notFound hwords (by decide) (by decide)

/-- A response with the result of a tool says that a project is missing only if the result does. -/
theorem missesProject_of_response {status : Nat} (hstatus : status ≠ 404) {outcome : Outcome Json}
    {missing : String} (h : Response.ofOutcome status outcome = .ofRefusal (noProject missing)) :
    MissesProject outcome := by
  cases outcome with
  | ok value => exact absurd (congrArg Response.status h) hstatus
  | error refusal =>
      cases refusal with
      | notFound message =>
          injection h with _ _ hbody
          injection hbody with hvalue
          injection hvalue with hfields
          injection hfields with hfield
          injection hfield with _ htext
          injection htext with hmessage
          exact ⟨missing, by rw [hmessage, noProject]⟩
      | badRequest message | unprocessable message | failed failure =>
          have hcodes := congrArg Response.status h
          cases hcodes

end

/-! ## Tools that know the project -/

section

variable {past : List Step} {s : Store} {name : String} {p : Project}

/-- A tool that finds a project and asks the store about it under its own name does not say that a
project is missing, if the store does not. -/
theorem not_missesProject_asking {α β : Type} {ask : Project → Except Store.Failure (Lookup α)}
    {rest : Project → α → Outcome β} (hfuzzy : s.findProject name .fuzzy = .ok (some p))
    {kind : Lookup Unit} (hkind : ∀ missing, kind ≠ .projectNotFound missing)
    (hanswer : ∃ l, ask p = .ok l ∧ l.kind = kind)
    (hrest : ∀ a, ¬MissesProject (rest p a)) :
    ¬MissesProject (do
      let project ← resolveProject s name
      let x ← found (← fromStore (ask project))
      rest project x) := by
  obtain ⟨l, hl, hlkind⟩ := hanswer
  have hresolved : resolveProject s name = .ok p := resolveProject_eq hfuzzy
  have hasked : fromStore (ask p) = .ok l := by rw [hl]; rfl
  have hfound : ¬MissesProject (found l) :=
    not_missesProject_found fun missing => hlkind ▸ hkind missing
  simp only [hresolved, bind, Except.bind, hasked]
  exact not_missesProject_bind hfound hrest

/-- Everything that is asked of the store about a project under its plain name is answered. -/
theorem exists_answersAlike (h : Sound past s) (hfuzzy : s.findProject name .fuzzy = .ok (some p))
    (hplain : IsPlain p.name) :
    ∃ kind, (∀ missing, kind ≠ Lookup.projectNotFound missing) ∧ s.AnswersAlike p.name kind := by
  obtain ⟨-, hrow, -⟩ := h.legible.row_of_findProject hfuzzy
  obtain ⟨again, hagain, -⟩ := h.findProject_again (Store.mem_of_projectRow? hrow) hplain
  by_cases hnone : s.fossilRows (Cell.uuid again.projectId) = []
  · exact ⟨_, by simp, h.answersAlike_of_noFossil hagain hnone⟩
  · exact ⟨_, by simp, (h.answersAlike_of_fossil hagain hnone).1⟩

theorem not_missesProject_lookupSymbol (hfuzzy : s.findProject name .fuzzy = .ok (some p))
    (around : Surroundings) (symbol : String) (exact : Bool) :
    ¬MissesProject (lookupSymbol s around name symbol exact) := by
  rw [lookupSymbol, resolveProject_eq hfuzzy]
  split
  · rintro ⟨missing, h⟩
    cases h
  · simp only [bind, Except.bind]
    split
    · have hwords : (s!"project path not found: {p.path}").toList =
          "project path not found: ".toList ++ p.path.toList := by
        simp only [toString, String.toList_append]
      exact not_missesProject_notFound hwords (by decide) (by decide)
    · exact not_missesProject_ok _

theorem not_missesProject_insights (hfuzzy : s.findProject name .fuzzy = .ok (some p))
    (insightType : Option String) : ¬MissesProject (insights s (some name) insightType) := by
  rw [insights, resolveProject_eq hfuzzy]
  exact not_missesProject_bind (not_missesProject_ok (some p.projectId)) fun _ =>
    not_missesProject_bind (not_missesProject_fromStore _) fun _ => not_missesProject_ok _

theorem not_missesProject_corpus (hfound : s.findProject name .strict = .ok (some p)) :
    ¬MissesProject (corpus s (some name)) := by
  rw [corpus, Corpus.build, hfound]
  simp only [bind, Except.bind]
  cases Corpus.ofProjects s [p] with
  | error failure => exact not_missesProject_failed failure
  | ok built => exact not_missesProject_ok _

theorem not_missesProject_storeFossil (hfound : s.findProject name .strict = .ok (some p))
    (fresh : Fresh) (body : String) (promptUsed : Option String) :
    ¬MissesProject (storeFossil s fresh name body promptUsed).1 := by
  unfold storeFossil
  cases hparse : Payload.parse body with
  | error flaw =>
      -- the text is kept for the project, which is there
      rw [Store.ingest_of_malformed hparse]
      simp only
      unfold Store.keepRawFossil
      rw [hfound]
      simp only
      split
      · rename_i hkept
        split at hkept <;> cases hkept
        exact not_missesProject_failed _
      · rename_i hkept
        split at hkept <;> cases hkept
      · rintro ⟨missing, h⟩
        cases h
  | ok payload =>
      unfold Store.ingest
      simp only [hparse, hfound]
      cases s.promptFor p promptUsed with
      | error failure => exact not_missesProject_failed failure
      | ok prompt =>
          simp only
          cases s.storeFossil fresh p payload prompt Store.maxAttempts with
          | mk result after =>
              cases result with
              | error failure => exact not_missesProject_failed failure
              | ok receipt => exact not_missesProject_ok _

end

/-! ## Requests -/

/-- Whether the tool at a place looks for the project among the inactive ones as well. -/
def Route.looksStrictly : Route → Bool
  | .fossils _ => true
  | .analysis => true
  | _ => false

section

variable {past : List Step} {s : Store} {name : String} {p : Project}

/-- A question that only reads, about an active project with a plain name, is not refused for want
of it. -/
theorem Question.read_ne_noProject (h : Sound past s) {q : Question}
    (hnamed : q.logEntry.projectName = some name)
    (hfuzzy : s.findProject name .fuzzy = .ok (some p)) (hplain : IsPlain p.name)
    (hroute : q.route.looksStrictly = false) (around : Surroundings) (missing : String) :
    q.read s around ≠ .ofRefusal (noProject missing) := by
  obtain ⟨kind, hkind, hanswers⟩ := exists_answersAlike h hfuzzy hplain
  have hok : ∀ {outcome : Outcome Json}, ¬MissesProject outcome →
      Response.ofOutcome 200 outcome ≠ .ofRefusal (noProject missing) :=
    fun houtcome heq => houtcome (missesProject_of_response (by decide) heq)
  obtain ⟨route, own, query, text⟩ := q
  cases route with
  | projects => cases hnamed
  | fossils _ | analysis => cases hroute
  | fossil _ =>
      obtain rfl : own = name := Option.some.inj hnamed
      refine hok (not_missesProject_asking hfuzzy hkind hanswers.latest fun fossil => ?_)
      dsimp only
      split
      · exact not_missesProject_bind (not_missesProject_fromStore _) fun _ => not_missesProject_ok _
      · exact not_missesProject_ok _
  | history _ =>
      obtain rfl : own = name := Option.some.inj hnamed
      exact hok (not_missesProject_asking hfuzzy hkind hanswers.history fun _ =>
        not_missesProject_ok _)
  | changes _ =>
      obtain rfl : own = name := Option.some.inj hnamed
      exact hok (not_missesProject_asking hfuzzy hkind hanswers.latest fun _ =>
        not_missesProject_ok _)
  | lookup _ =>
      obtain rfl : own = name := Option.some.inj hnamed
      exact hok (not_missesProject_lookupSymbol hfuzzy around _ _)
  | context _ =>
      obtain rfl : own = name := Option.some.inj hnamed
      exact hok (not_missesProject_asking hfuzzy hkind (hanswers.symbols _ _) fun _ =>
        not_missesProject_ok _)
  | related _ =>
      obtain rfl : own = name := Option.some.inj hnamed
      exact hok (not_missesProject_asking hfuzzy hkind (hanswers.related _) fun _ =>
        not_missesProject_ok _)
  | insights =>
      have hquery : value? query "project" = some name := hnamed
      rw [Question.read, hquery]
      exact hok (not_missesProject_insights hfuzzy _)

/-- A question about a project that its tool finds is not refused for want of it. -/
theorem Question.answer_ne_noProject (h : Sound past s) {q : Question}
    (hnamed : q.logEntry.projectName = some name) (hstrict : s.Knows .strict name)
    (hfuzzy : q.route.looksStrictly = true ∨
      ∃ p, s.findProject name .fuzzy = .ok (some p) ∧ IsPlain p.name)
    (fresh : Fresh) (around : Surroundings) (missing : String) :
    (q.answer s fresh around).1 ≠ .ofRefusal (noProject missing) := by
  obtain ⟨p, hstrict⟩ := hstrict
  cases hroute : q.route.looksStrictly with
  | true =>
      unfold Question.logEntry at hnamed
      cases hq : q.route with
      | fossils _ =>
          simp only [hq, Option.some.injEq] at hnamed
          subst hnamed
          have hfound : (s.logQuietly fresh q.logEntry).findProject q.name .strict =
              .ok (some p) := by
            rw [Store.logQuietly_eq, Store.findProject_withLog]
            exact hstrict
          have hstored := not_missesProject_storeFossil hfound (fresh.after 1) q.text
            (value? q.query "prompt_used")
          rw [Question.answer_of_store hq]
          dsimp only
          exact fun heq => hstored (missesProject_of_response (by decide) heq)
      | analysis =>
          simp only [hq] at hnamed
          have hcorpus := not_missesProject_corpus hstrict
          unfold Question.answer
          rw [hq]
          simp only [Question.read, hq, hnamed]
          cases hbuilt : corpus s (some name) with
          | ok text =>
              intro heq
              have hcodes := congrArg Response.status heq
              cases hcodes
          | error refusal =>
              have hrefused : Response.ofOutcome 200 (.error refusal) = .ofRefusal refusal := rfl
              intro heq
              obtain ⟨m, hm⟩ := missesProject_of_response (by decide) (hrefused.trans heq)
              exact hcorpus ⟨m, by rw [hbuilt, Except.error.inj hm]⟩
      | projects | fossil _ | history _ | changes _ | lookup _ | context _ | related _ | insights =>
          rw [hq] at hroute
          cases hroute
  | false =>
      obtain ⟨p, hfound, hplain⟩ := hfuzzy.resolve_left (by simp [hroute])
      have hreads : q.route ≠ .analysis ∧ ∀ written, q.route ≠ .fossils written := by
        refine ⟨fun heq => ?_, fun written heq => ?_⟩ <;> rw [heq] at hroute <;> cases hroute
      rw [Question.answer_of_read hreads.1 hreads.2]
      exact Question.read_ne_noProject h hnamed hfound hplain hroute around missing

/-- A request about a project that the tool finds is not refused for want of it. -/
theorem respond_ne_noProject (h : Sound past s) {r : Request} {q : Question}
    (hreached : Question.ofRequest r = .ok q) (hnamed : r.project? = some name)
    (hstrict : s.Knows .strict name)
    (hfuzzy : q.route.looksStrictly = true ∨
      ∃ p, s.findProject name .fuzzy = .ok (some p) ∧ IsPlain p.name)
    (fresh : Fresh) (around : Surroundings) (missing : String) :
    (respond s fresh around r).1 ≠ .ofRefusal (noProject missing) := by
  rw [← Question.logEntry_projectName hreached] at hnamed
  have hanswer := Question.answer_ne_noProject h hnamed hstrict hfuzzy fresh around missing
  unfold respond
  rw [hreached]
  simp only
  split
  · intro heq
    have hbody := congrArg Response.body heq
    cases hbody
  · exact hanswer

/-! ## The main statement -/

/-- Whether nothing that is asked for under a name is refused for want of a project; the places that
look among active projects only count if the project is active. -/
structure Welcomes (s : Store) (name : String) (active : Prop) : Prop where
  ingest : ∀ fresh raw promptUsed missing,
    (s.ingest fresh name raw promptUsed).1 ≠ .ok (.projectNotFound missing)
  latest : ∀ missing, s.latestFossil name ≠ .ok (.projectNotFound missing)
  respond : ∀ (r : Request) (q : Question), Question.ofRequest r = .ok q →
    r.project? = some name → (q.route.looksStrictly = true ∨ active) →
      ∀ fresh around missing, (respond s fresh around r).1 ≠ .ofRefusal (noProject missing)

theorem welcomes_of_registered (h : Sound past s) {r : Store.ProjectRow} (hr : r ∈ s.projects)
    {own : String} (hown : r.name = .text own) (hplain : IsPlain own) (hsame : SameName own name) :
    Welcomes s name (r.status = .text ProjectStatus.active.label) := by
  obtain ⟨⟨p, hstrict⟩, hfuzzy⟩ := h.knows_of_registered hr hown hplain hsame
  refine ⟨fun fresh raw promptUsed => Store.ingest_ne_projectNotFound hstrict fresh raw promptUsed,
    fun missing hlatest => ?_, fun request q hreached hnamed hactive => ?_⟩
  · rw [h.latestFossil_eq hstrict] at hlatest
    split at hlatest <;> cases hlatest
  · exact respond_ne_noProject h hreached hnamed ⟨p, hstrict⟩ (hactive.imp_right hfuzzy)

end

/-- Two names are both known or both unknown after every history, to either lookup, if and only if
they are the same up to blanks at their ends and the case of the letters A to Z.  By every such
spelling of its name, a project with a plain name is ingested for, looked up and asked for. -/
theorem known_alike (a b : String) :
    (∀ mode, SameName a b ↔
      ∀ uniqueSummaries uniqueSymbolNames steps, (∀ step ∈ steps, step.fresh.now.IsValid) →
        (((Store.blank uniqueSummaries uniqueSymbolNames).run steps).Knows mode a ↔
          ((Store.blank uniqueSummaries uniqueSymbolNames).run steps).Knows mode b)) ∧
    (SameName a b → IsPlain a →
      ∀ uniqueSummaries uniqueSymbolNames steps, (∀ step ∈ steps, step.fresh.now.IsValid) →
        ∀ r ∈ ((Store.blank uniqueSummaries uniqueSymbolNames).run steps).projects,
          r.name = .text a → Welcomes ((Store.blank uniqueSummaries uniqueSymbolNames).run steps) b
            (r.status = .text ProjectStatus.active.label)) := by
  refine ⟨fun mode => Store.sameName_iff mode a b, ?_⟩
  intro hsame hplain uniqueSummaries uniqueSymbolNames steps hclock r hr hname
  have hsound := (Sound.blank uniqueSummaries uniqueSymbolNames).run hclock
  exact welcomes_of_registered hsound hr hname hplain hsame

/-- A project is registered as `Demo` and asked for as ` dEMO`. -/
theorem known_alike_demo :
    let fresh : Fresh := ⟨fun k => ⟨BitVec.ofNat 128 k⟩, ⟨2024, 2, 29, 12, 0, 0, 0⟩⟩
    let s := (Store.blank false false).run [⟨fresh, .register ⟨"Demo", "/d", "rust"⟩⟩]
    (s.Knows .fuzzy "Demo" ↔ s.Knows .fuzzy " dEMO") ∧ Welcomes s " dEMO" True := by
  intro fresh s
  have hsame : SameName "Demo" " dEMO" := by decide
  have hclock : ∀ step ∈ [(⟨fresh, .register ⟨"Demo", "/d", "rust"⟩⟩ : Step)],
      step.fresh.now.IsValid := by decide
  obtain ⟨hknown, hwelcomes⟩ := known_alike "Demo" " dEMO"
  refine ⟨(hknown .fuzzy).mp hsame false false _ hclock, ?_⟩
  have hactive := hwelcomes hsame (by decide) false false _ hclock
    (Store.newProjectRow fresh ⟨"Demo", "/d", "rust"⟩) (List.mem_singleton.mpr rfl) rfl
  exact ⟨hactive.ingest, hactive.latest, fun r q hreached hnamed _ =>
    hactive.respond r q hreached hnamed (.inr rfl)⟩

/-- Two spellings of a name are the same in lower case, but the project that is registered with one
of them is not found by the other, since lookups do not fold the letter with the accent. -/
theorem other_letters_differ :
    let fresh : Fresh := ⟨fun k => ⟨BitVec.ofNat 128 k⟩, ⟨2024, 2, 29, 12, 0, 0, 0⟩⟩
    let s := (Store.blank false false).run [⟨fresh, .register ⟨"CAFÉ", "/a", ""⟩⟩]
    Text.lower "CAFÉ" = Text.lower "café" ∧
      s.findProject "CAFÉ" .strict =
        .ok (some ⟨fresh.id 0, "CAFÉ", "/a", "", .active, none⟩) ∧
      s.findProject "café" .strict = .ok none ∧ s.findProject "café" .fuzzy = .ok none ∧
      s.latestFossil "café" = .ok (.projectNotFound "café") ∧
      (s.ingest fresh "café" "\x7b\x7d" none).1 = .ok (.projectNotFound "café") ∧
      (respond s fresh ⟨.empty, []⟩ ⟨"GET", "/projects/caf%C3%A9/changes", []⟩).1.status = 404 := by
  decide +kernel

end FossilRecord.Http
