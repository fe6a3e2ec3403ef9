import FossilRecord.Proofs.Store.Growth
import FossilRecord.Proofs.Store.Recorded

/-!
# The instruction in force

A fossil says which instruction it came from: the one that was given with it, else the last one
recorded for its project by then, else the last global one.  What is recorded for other projects or
later does not matter (`instruction`).  The context for refining prompts quotes the last global one.
-/

namespace FossilRecord.Store

/-- The last of some prompts that is for a project, or that is global. -/
def lastPrompt (prompts : List CustodianPrompt) (projectId : Option Uuid) :
    Option CustodianPrompt :=
  (prompts.filter fun p => p.projectId = projectId).getLast?

/-- The instruction that a fossil of a project came from, by the prompts recorded before it. -/
def instruction (prompts : List CustodianPrompt) (projectId : Uuid) : Option String → String
  | some given => given
  | none =>
      match lastPrompt prompts (some projectId), lastPrompt prompts none with
      | some own, _ => own.prompt
      | none, some shared => shared.prompt
      | none, none => CustodianPrompt.unknown

theorem lastPrompt_eq_none {prompts : List CustodianPrompt} {projectId : Option Uuid} :
    lastPrompt prompts projectId = none ↔ ∀ p ∈ prompts, p.projectId ≠ projectId := by
  rw [lastPrompt, List.getLast?_eq_none_iff, List.filter_eq_nil_iff]
  simp only [decide_eq_true_eq, ne_eq]

/-! ## The latest prompt -/

section

variable {steps : List Step}

theorem newestPrompt?_eq (u v : Bool) (h : KeepsTime steps) (projectId : Option Uuid) :
    ((blank u v).run steps).newestPrompt? (optUuid projectId) =
      (lastPrompt (recorded Step.prompt? (blank u v) steps) projectId).map promptRow := by
  have hscope : ∀ p : CustodianPrompt,
      decide ((promptRow p).projectId = optUuid projectId) = decide (p.projectId = projectId) :=
    fun p => decide_eq_decide.mpr optUuid_injective.eq_iff
  rw [newestPrompt?, run_prompts, h.newestFirst_eq (prompt_times _ _) promptRow PromptRow.createdAt
    (fun _ => rfl) hscope, List.head?_map, List.head?_reverse, lastPrompt]

/-- A prompt that was recorded is read back as it was given. -/
theorem KeepsTime.reads_prompt (h : KeepsTime steps) {s : Store} {projectId : Option Uuid}
    {p : CustodianPrompt} (hp : lastPrompt (recorded Step.prompt? s steps) projectId = some p) :
    (promptRow p).decode = .ok p :=
  decode_promptRow (h.isValid (prompt_times s steps)
    (List.mem_of_mem_filter (List.mem_of_getLast? hp)))

/-- The latest prompt of a project is the last one recorded for it, or else the last global one. -/
theorem latestPrompt_some_eq (u v : Bool) (h : KeepsTime steps) (projectId : Uuid) :
    ((blank u v).run steps).latestPrompt (some projectId) =
      .ok ((lastPrompt (recorded Step.prompt? (blank u v) steps) (some projectId)).or
        (lastPrompt (recorded Step.prompt? (blank u v) steps) none)) := by
  have hown : ((blank u v).run steps).newestPrompt? (Cell.uuid projectId) = _ :=
    newestPrompt?_eq u v h (some projectId)
  have hshared : ((blank u v).run steps).newestPrompt? .null = _ := newestPrompt?_eq u v h none
  rw [latestPrompt, Option.bind_some, hown, hshared]
  cases hlast : lastPrompt (recorded Step.prompt? (blank u v) steps) (some projectId) with
  | some own => simp [h.reads_prompt hlast, Except.map]
  | none =>
      cases hglobal : lastPrompt (recorded Step.prompt? (blank u v) steps) none with
      | some shared => simp [h.reads_prompt hglobal, Except.map]
      | none => rfl

/-- The latest prompt for no project in particular is the last global one. -/
theorem latestPrompt_none_eq (u v : Bool) (h : KeepsTime steps) :
    ((blank u v).run steps).latestPrompt none =
      .ok (lastPrompt (recorded Step.prompt? (blank u v) steps) none) := by
  have hshared : ((blank u v).run steps).newestPrompt? .null = _ := newestPrompt?_eq u v h none
  rw [latestPrompt, Option.bind_none, hshared]
  cases hglobal : lastPrompt (recorded Step.prompt? (blank u v) steps) none with
  | some shared => simp [h.reads_prompt hglobal, Except.map]
  | none => rfl

theorem promptFor_eq (u v : Bool) (h : KeepsTime steps) (project : Project)
    (promptUsed : Option String) :
    ((blank u v).run steps).promptFor project promptUsed =
      .ok (instruction (recorded Step.prompt? (blank u v) steps) project.projectId promptUsed) := by
  cases promptUsed with
  | some given => rfl
  | none =>
      rw [promptFor, latestPrompt_some_eq u v h, instruction]
      cases lastPrompt (recorded Step.prompt? (blank u v) steps) (some project.projectId) with
      | some own => rfl
      | none => cases lastPrompt (recorded Step.prompt? (blank u v) steps) none <;> rfl

end

/-! ## Fossils that were stored -/

section

variable {past more : List Step} {s t : Store} {fresh : Fresh} {name raw : String}
variable {promptUsed : Option String} {receipt : FossilReceipt}

/-- The instruction that a stored fossil came from is read wherever its tables have grown. -/
theorem promptUsed_of_stored (hs : Sound past s) (ht : Sound more t) (hnow : fresh.now.IsValid)
    (hstored : (s.ingest fresh name raw promptUsed).1 = .ok (.stored receipt))
    (hgrown : (s.ingest fresh name raw promptUsed).2.Extends t) :
    ∃ project prompt history, project.projectId = receipt.projectId ∧
      s.promptFor project promptUsed = .ok prompt ∧
      t.fossilHistory receipt.projectName = .ok (.found history) ∧
      (∃ f ∈ history, f.fossilId = receipt.fossilId) ∧
      ∀ f ∈ history, f.fossilId = receipt.fossilId →
        f.projectId = receipt.projectId ∧ f.promptUsed = prompt := by
  obtain ⟨payload, project, prompt, drawn, version, stored, -, hid, hprompt, rfl, hkeeps⟩ :=
    keeps_of_stored hs ht hnow hstored hgrown
  obtain ⟨kept, hkept, hkeptId⟩ := hkeeps.project
  refine ⟨project, prompt, t.history (Cell.uuid receipt.projectId), hid, hprompt, ?_,
    ⟨_, hkeeps.history, hkeeps.fossilId⟩, fun f hf hsame => ?_⟩
  · rw [ht.fossilHistory_eq hkept, hkeptId, answerOf, if_neg (List.ne_nil_of_mem hkeeps.history)]
  · rw [hkeeps.only f hf hsame]
    exact ⟨rfl, rfl⟩

end

/-! ## Whole histories -/

/-- Every fossil that was stored says in every later state that it came from the instruction in
force when it was stored: the one that was given with it, or the last one recorded for its project
before it, or the last global one before it.  The context for refining prompts is there exactly if a
global prompt was ever recorded, and begins with the last one. -/
theorem prompts_in_force (u v : Bool) {steps : List Step} (hclock : KeepsTime steps)
    (hsteps : ∀ step ∈ steps, step.IsWritable) :
    (∀ before step later, steps = before ++ step :: later →
      ∀ name raw promptUsed receipt, step.write = .ingest name raw promptUsed →
        (((blank u v).run before).ingest step.fresh name raw promptUsed).1 =
          .ok (.stored receipt) →
        ∃ history,
          ((blank u v).run steps).fossilHistory receipt.projectName = .ok (.found history) ∧
          (∃ f ∈ history, f.fossilId = receipt.fossilId) ∧
          ∀ f ∈ history, f.fossilId = receipt.fossilId →
            f.projectId = receipt.projectId ∧
            f.promptUsed = instruction (recorded Step.prompt? (blank u v) before)
              receipt.projectId promptUsed) ∧
    (Corpus.refinement ((blank u v).run steps) = .ok none ↔
      ∀ p ∈ recorded Step.prompt? (blank u v) steps, p.projectId ≠ none) ∧
    ∀ p, lastPrompt (recorded Step.prompt? (blank u v) steps) none = some p →
      ∃ rest, Corpus.refinement ((blank u v).run steps) =
        .ok (some (Corpus.line ("Current custodian prompt:\n" ++ p.prompt ++ "\n") ++ rest)) := by
  have hreadable := (Readable.blank u v).run hsteps
  have hquoted : ∀ p, lastPrompt (recorded Step.prompt? (blank u v) steps) none = some p →
      ∃ rest, Corpus.refinement ((blank u v).run steps) =
        .ok (some (Corpus.line ("Current custodian prompt:\n" ++ p.prompt ++ "\n") ++ rest)) := by
    intro p hp
    obtain ⟨usage, husage⟩ := hreadable.paramUsage_total Corpus.paramRows
    obtain ⟨lookups, hlookups⟩ :=
      hreadable.recentQueries_total (some "lookup_symbol") Corpus.lookupRows
    rw [Corpus.refinement, latestPrompt_none_eq u v hclock, hp]
    simp only [bind, Except.bind, husage, hlookups, String.append_assoc]
    exact ⟨_, rfl⟩
  refine ⟨?stored, ?none, hquoted⟩
  case stored =>
    rintro before step later rfl name raw promptUsed receipt hwrite hstored
    have hbefore := hclock.before
    have hs := (Sound.blank u v).run hbefore.valid
    have hperform : ((blank u v).run before).perform step =
        (((blank u v).run before).ingest step.fresh name raw promptUsed).2 := by
      simp only [perform, hwrite]
    have hgrown := (hs.coherent.perform step).run_extends later
    rw [← run_cons, ← run_append, hperform] at hgrown
    obtain ⟨project, prompt, history, hid, hprompt, hhistory, hthere, hall⟩ :=
      promptUsed_of_stored hs hreadable.sound (hclock.valid step (by simp)) hstored hgrown
    rw [promptFor_eq u v hbefore, hid] at hprompt
    cases hprompt
    exact ⟨history, hhistory, hthere, hall⟩
  case none =>
    rw [← lastPrompt_eq_none]
    cases hlast : lastPrompt (recorded Step.prompt? (blank u v) steps) none with
    | none =>
        rw [Corpus.refinement, latestPrompt_none_eq u v hclock, hlast]
        exact ⟨fun _ => rfl, fun _ => rfl⟩
    | some p =>
        obtain ⟨rest, hrest⟩ := hquoted p hlast
        rw [hrest]
        simp

/-- A fossil is stored when there are a global prompt, one for its project and a newer one for
another project; a prompt for its project that is recorded later does not matter. -/
theorem prompts_in_force_own :
    let fresh (first : Nat) : Fresh :=
      ⟨fun k => ⟨BitVec.ofNat 128 (first + k)⟩, ⟨2024, 2, 29, 12, 0, first, 0⟩⟩
    let demo : Uuid := ⟨BitVec.ofNat 128 1⟩
    let prompt (projectId : Option Uuid) (text : String) : Write :=
      .prompt ⟨projectId, text, "me", none⟩
    let raw := "\x7b\"symbols\":[\x7b\"name\":\"f\"\x7d]\x7d"
    let before : List Step := [⟨fresh 1, .register ⟨"demo", "/d", "rust"⟩⟩,
      ⟨fresh 2, .register ⟨"other", "/o", "rust"⟩⟩, ⟨fresh 3, prompt none "for all"⟩,
      ⟨fresh 4, prompt (some demo) "for demo"⟩,
      ⟨fresh 5, prompt (some ⟨BitVec.ofNat 128 2⟩) "for other"⟩]
    let step : Step := ⟨fresh 6, .ingest "demo" raw none⟩
    let steps := before ++ step :: [⟨fresh 8, prompt (some demo) "later"⟩]
    KeepsTime steps ∧ (∀ other ∈ steps, other.IsWritable) ∧
      ∃ receipt history,
        (((blank false false).run before).ingest (fresh 6) "demo" raw none).1 =
          .ok (.stored receipt) ∧
        ((blank false false).run steps).fossilHistory receipt.projectName = .ok (.found history) ∧
        ∃ f ∈ history, f.fossilId = receipt.fossilId ∧ f.promptUsed = "for demo" := by
  intro fresh demo prompt raw before step steps
  have hwritable : ∀ other ∈ steps, other.IsWritable := by
    simp only [steps, before, List.cons_append, List.nil_append, List.forall_mem_cons]
    exact ⟨⟨by decide, by simp⟩, ⟨by decide, by simp⟩, ⟨by decide, by simp [prompt]⟩,
      ⟨by decide, by simp [prompt]⟩, ⟨by decide, by simp [prompt]⟩, ⟨by decide, by simp [step]⟩,
      ⟨by decide, by simp [prompt]⟩, by simp⟩
  have hclock : KeepsTime steps := ⟨fun other hother => (hwritable other hother).now, by decide⟩
  have hstored : (((blank false false).run before).ingest (fresh 6) "demo" raw none).1 =
      .ok (.stored ⟨⟨BitVec.ofNat 128 6⟩, demo, "demo", 1, 1⟩) := by
    decide +kernel
  obtain ⟨history, hhistory, ⟨f, hf, hid⟩, hall⟩ :=
    (prompts_in_force false false hclock hwritable).1 before step _ rfl "demo" raw none _ rfl hstored
  have hinForce : instruction (recorded Step.prompt? (blank false false) before) demo none =
      "for demo" := by
    decide +kernel
  exact ⟨hclock, hwritable, _, history, hstored, hhistory, f, hf, hid,
    (hall f hf hid).2.trans hinForce⟩

end FossilRecord.Store
