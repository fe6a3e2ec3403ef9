import FossilRecord.Proofs.Store.Ingested
import FossilRecord.Proofs.Store.Reading

/-!
# What becomes of a text

A text that is handed in for a project becomes a fossil, or is refused because there is no such
project or because it is no payload.  A text that is no payload can still be kept as an insight.  This
module says for each case what the two writes give and what they leave, all other tables being as
they were.

None of it looks at the query log, so all of it holds whatever the log is: `withLog` puts another
one, or none, in its place.
-/

namespace FossilRecord.Store

/-- Whether a store has no constraints beyond those of its own. -/
structure Unconstrained (s : Store) : Prop where
  summaries : s.uniqueSummaries = false
  symbolNames : s.uniqueSymbolNames = false

/-- A store that was opened without rows has no further constraints, whatever was written. -/
theorem unconstrained_run (steps : List Step) : (empty.run steps).Unconstrained := by
  obtain ⟨hsummaries, hnames⟩ := (Coherent.blank false false).run_constraints steps
  exact ⟨hsummaries, hnames⟩

/-! ## Another log -/

/-- The store with another query log, or without one. -/
def withLog (s : Store) (log : Option (List QueryRow)) : Store :=
  { s with queryLog := log }

section

variable (s : Store) (log : Option (List QueryRow))

@[simp] theorem withLog_withLog (log' : Option (List QueryRow)) :
    (s.withLog log').withLog log = s.withLog log := rfl

@[simp] theorem findProject_withLog (name : String) (mode : ProjectLookup) :
    (s.withLog log).findProject name mode = s.findProject name mode := rfl

@[simp] theorem promptFor_withLog (project : Project) (promptUsed : Option String) :
    (s.withLog log).promptFor project promptUsed = s.promptFor project promptUsed := rfl

@[simp] theorem versionFor_withLog (projectId : Cell) :
    (s.withLog log).versionFor projectId = s.versionFor projectId := rfl

end

section

variable {past : List Step} {s : Store}

theorem Unconstrained.withLog (h : s.Unconstrained) (log : Option (List QueryRow)) :
    (s.withLog log).Unconstrained :=
  { h with }

theorem Coherent.withLog (h : Coherent past s) (log : Option (List QueryRow)) :
    Coherent past (s.withLog log) :=
  { h with }

theorem Legible.withLog (h : s.Legible) (log : Option (List QueryRow)) : (s.withLog log).Legible :=
  { h with }

theorem Sound.withLog (h : Sound past s) (log : Option (List QueryRow)) :
    Sound past (s.withLog log) where
  coherent := h.coherent.withLog log
  legible := h.legible.withLog log
  fossils := h.fossils

end

/-- Logging changes nothing but the log. -/
theorem logQuietly_eq (s : Store) (fresh : Fresh) (input : NewQueryLogEntry) :
    s.logQuietly fresh input = s.withLog (s.logQuietly fresh input).queryLog := by
  unfold logQuietly logQuery
  cases hrows : s.queryLog with
  | none =>
      simp only [withLog]
  | some rows =>
      simp only
      split
      · simp only [withLog]
      · rfl

/-! ## What is drawn -/

/-- The identifiers that are drawn first, so many of them, are those of no row, and no two of them
are the same. -/
structure Unseen (fresh : Fresh) (s : Store) (count : Nat) : Prop where
  fossils : ∀ k < count, ∀ r ∈ s.fossils, r.fossilId ≠ Cell.uuid (fresh.id k)
  symbols : ∀ k < count, ∀ r ∈ s.symbols, r.symbolId ≠ Cell.uuid (fresh.id k)
  insights : ∀ k < count, ∀ r ∈ s.insights, r.insightId ≠ Cell.uuid (fresh.id k)
  distinct : ∀ j < count, ∀ k < count, fresh.id j = fresh.id k → j = k

section

variable {fresh : Fresh} {s : Store} {count : Nat}

theorem Unseen.unused (h : Unseen fresh s (count + 1)) : Unused fresh s count where
  fossil := h.fossils 0 (Nat.succ_pos count)
  symbols k hk := h.symbols (k + 1) (Nat.succ_lt_succ hk)
  distinct := by
    intro j hj k hk hid
    have hsucc := h.distinct (j + 1) (Nat.succ_lt_succ hj) (k + 1) (Nat.succ_lt_succ hk) hid
    omega

theorem Unseen.withLog (h : Unseen fresh s count) (log : Option (List QueryRow)) :
    Unseen fresh (s.withLog log) count :=
  { h with }

end

/-- How many identifiers are drawn for a text: for a payload that of the fossil and one for each of
its symbols, else that of the insight that keeps the text. -/
def draws (raw : String) : Nat :=
  match Payload.parse raw with
  | .ok p => p.symbols.length + 1
  | .error _ => 1

/-! ## Texts that are ingested -/

section

variable {s : Store} {fresh : Fresh} {name raw : String} {promptUsed : Option String}

theorem ingest_of_malformed {flaw : PayloadFlaw} (hparse : Payload.parse raw = .error flaw) :
    s.ingest fresh name raw promptUsed = (.ok (.malformed flaw.message), s) := by
  rw [ingest, hparse]

theorem ingest_of_unknown {p : Payload} (hparse : Payload.parse raw = .ok p)
    (hfound : s.findProject name .strict = .ok none) :
    s.ingest fresh name raw promptUsed = (.ok (.projectNotFound name), s) := by
  rw [ingest, hparse]
  simp only
  rw [hfound]

/-- A payload for a project whose versions have run out is not stored. -/
theorem ingest_of_full {p : Payload} {project : Project} {prompt : String} {failure : Failure}
    (hparse : Payload.parse raw = .ok p)
    (hfound : s.findProject name .strict = .ok (some project))
    (hprompt : s.promptFor project promptUsed = .ok prompt)
    (hversion : s.versionFor (Cell.uuid project.projectId) = .error failure) :
    s.ingest fresh name raw promptUsed = (.error failure, s) := by
  have hwrite : s.writeFossil fresh project.projectId p prompt = .error (.failed failure) := by
    rw [writeFossil, hversion]
    rfl
  unfold ingest
  simp only [hparse, hfound, hprompt, maxAttempts, storeFossil, hwrite, settle]

/-! ## Texts that are kept -/

/-- The insight that keeps a text which was to be a fossil of a project. -/
def rawInsight (fresh : Fresh) (p : Project) (raw : String) : Insight where
  insightId := fresh.id 0
  projectId := some p.projectId
  fossilId := none
  insightType := Insight.rawFossil
  content := raw
  modelUsed := none
  projectsInvolved := [p.name]
  createdAt := fresh.now

theorem keepRawFossil_of_unknown (hfound : s.findProject name .strict = .ok none) :
    s.keepRawFossil fresh name raw = (.ok none, s) := by
  rw [keepRawFossil, hfound]

/-- A text is kept for a project that is there, and nothing else is written. -/
theorem keepRawFossil_of_found (h : s.Legible) {p : Project}
    (hfound : s.findProject name .strict = .ok (some p))
    (hnew : ∀ r ∈ s.insights, r.insightId ≠ Cell.uuid (fresh.id 0)) :
    s.keepRawFossil fresh name raw =
      (.ok (some (rawInsight fresh p raw)),
        { s with insights := s.insights ++ [insightRow (rawInsight fresh p raw)] }) := by
  have hkey : (s.insights.any fun r => r.insightId = Cell.uuid (fresh.id 0)) = false := by
    simpa using hnew
  have hrefers : s.refersToProject (some p.projectId) = true := h.hasProject_of_findProject hfound
  rw [keepRawFossil, hfound]
  simp only [recordInsight, hkey, hrefers, refersToFossil, Bool.and_self, if_true,
    Bool.false_eq_true, if_false]
  rfl

end

end FossilRecord.Store
