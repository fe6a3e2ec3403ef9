import FossilRecord.Proofs.Instant.Order
import FossilRecord.Proofs.Store.Order
import FossilRecord.Proofs.Store.Unfailing

/-!
# What a history has recorded

Logged questions, insights and prompts are only ever added.  The three tables hold a row for every
write of their kind that was accepted, in the order in which the writes came, and nothing else
touches them.  Where the clock never ran backwards, newest first is that order backwards: rows
written at the same time stand as they were written, the later one first.
-/

namespace FossilRecord.Store

/-! ## Accepted writes -/

/-- The steps of a history whose writes did not fail. -/
def accepted : Store → List Step → List Step
  | _, [] => []
  | s, step :: rest =>
      if (s.failureOf step).isNone then step :: accepted (s.perform step) rest
      else accepted (s.perform step) rest

/-- The question that a step gives to be logged. -/
def Step.entry? (step : Step) : Option QueryLogEntry :=
  match step.write with
  | .log input =>
      some ⟨step.fresh.id 0, input.toolName, input.projectName, input.queryParams, step.fresh.now⟩
  | .register _ | .setStatus .. | .ingest .. | .insight _ | .prompt _ => none

/-- The insight that a step gives to be recorded. -/
def Step.insight? (step : Step) : Option Insight :=
  match step.write with
  | .insight input =>
      some ⟨step.fresh.id 0, input.projectId, input.fossilId, input.insightType, input.content,
        input.modelUsed, input.projectsInvolved, step.fresh.now⟩
  | .register _ | .setStatus .. | .ingest .. | .log _ | .prompt _ => none

/-- The prompt that a step gives to be recorded. -/
def Step.prompt? (step : Step) : Option CustodianPrompt :=
  match step.write with
  | .prompt input =>
      some ⟨step.fresh.id 0, input.projectId, input.prompt, input.createdBy, input.notes,
        step.fresh.now⟩
  | .register _ | .setStatus .. | .ingest .. | .log _ | .insight _ => none

theorem accepted_sublist (s : Store) (steps : List Step) : (s.accepted steps).Sublist steps := by
  induction steps generalizing s with
  | nil => exact List.Sublist.refl []
  | cons step rest ih =>
      rw [accepted]
      split
      · exact (ih (s.perform step)).cons_cons step
      · exact (ih (s.perform step)).cons step

theorem accepted_append (s : Store) (steps more : List Step) :
    s.accepted (steps ++ more) = s.accepted steps ++ (s.run steps).accepted more := by
  induction steps generalizing s with
  | nil => rfl
  | cons step rest ih =>
      rw [List.cons_append, accepted, accepted, ih, run_cons]
      split <;> rfl

section

variable {α : Type} {item? : Step → Option α}

/-- What the accepted steps of a history give, in the order of the steps. -/
def recorded (item? : Step → Option α) (s : Store) (steps : List Step) : List α :=
  (s.accepted steps).filterMap item?

theorem recorded_append (s : Store) (steps more : List Step) :
    recorded item? s (steps ++ more) =
      recorded item? s steps ++ recorded item? (s.run steps) more := by
  rw [recorded, accepted_append, List.filterMap_append, recorded, recorded]

theorem exists_of_mem_recorded {s : Store} {steps : List Step} {x : α}
    (hx : x ∈ recorded item? s steps) : ∃ step ∈ steps, item? step = some x := by
  obtain ⟨step, hstep, hitem⟩ := List.mem_filterMap.mp hx
  exact ⟨step, (accepted_sublist s steps).subset hstep, hitem⟩

/-- What is recorded has the time of its step. -/
theorem recorded_times {time : α → Instant}
    (htime : ∀ step x, item? step = some x → time x = step.fresh.now) (s : Store)
    (steps : List Step) :
    ((recorded item? s steps).map time).Sublist (steps.map fun step => step.fresh.now) := by
  have hall : ∀ steps : List Step,
      ((steps.filterMap item?).map time).Sublist (steps.map fun step => step.fresh.now) := by
    intro steps
    induction steps with
    | nil => exact List.Sublist.refl []
    | cons step rest ih =>
        rw [List.map_cons]
        cases hx : item? step with
        | none =>
            rw [List.filterMap_cons_none hx]
            exact ih.cons _
        | some x =>
            rw [List.filterMap_cons_some hx, List.map_cons, htime step x hx]
            exact ih.cons_cons _
  exact (hall (s.accepted steps)).trans ((accepted_sublist s steps).map _)

/-- A table that every accepted step adds to what it gives holds all that a history records. -/
theorem run_table {ρ : Type} (table : Store → Option (List ρ)) {row : α → ρ}
    (hstep : ∀ s : Store, s.DistinctProjectNames → ∀ step rows, table s = some rows →
      table (s.perform step) = some (rows ++ (recorded item? s [step]).map row))
    {past : List Step} {s : Store} (h : Coherent past s) {rows : List ρ}
    (hrows : table s = some rows) (steps : List Step) :
    table (s.run steps) = some (rows ++ (recorded item? s steps).map row) := by
  induction steps generalizing past s rows with
  | nil => simpa [recorded, accepted] using hrows
  | cons step rest ih =>
      have hnext := hstep s h.projectNames step rows hrows
      have hsplit : recorded item? s (step :: rest) =
          recorded item? s [step] ++ recorded item? (s.perform step) rest :=
        recorded_append s [step] rest
      rw [run_cons, ih (h.perform step) hnext, hsplit, List.map_append, List.append_assoc]

/-- A step that gives nothing, or is refused, records nothing. -/
theorem recorded_singleton (s : Store) (step : Step) :
    recorded item? s [step] = if (s.failureOf step).isNone then (item? step).toList else [] := by
  rw [recorded, accepted, accepted]
  split
  · cases hitem : item? step <;> simp [hitem]
  · rfl

end

section

variable (s : Store) (steps : List Step)

theorem entry_times : ((recorded Step.entry? s steps).map QueryLogEntry.timestamp).Sublist
    (steps.map fun step => step.fresh.now) := by
  refine recorded_times (fun step e he => ?_) s steps
  unfold Step.entry? at he
  split at he <;> cases he
  rfl

theorem insight_times : ((recorded Step.insight? s steps).map Insight.createdAt).Sublist
    (steps.map fun step => step.fresh.now) := by
  refine recorded_times (fun step i hi => ?_) s steps
  unfold Step.insight? at hi
  split at hi <;> cases hi
  rfl

theorem prompt_times : ((recorded Step.prompt? s steps).map CustodianPrompt.createdAt).Sublist
    (steps.map fun step => step.fresh.now) := by
  refine recorded_times (fun step p hp => ?_) s steps
  unfold Step.prompt? at hp
  split at hp <;> cases hp
  rfl

end

/-! ## The three tables -/

/-- Only logging a question touches the log. -/
theorem Effect.queryLog {s s' : Store} {fresh : Fresh} {w : Write} (h : Effect s fresh w s')
    (hother : ∀ input, w ≠ .log input) : s'.queryLog = s.queryLog := by
  cases h with
  | logged input => exact absurd rfl (hother input)
  | unchanged | described | registered | restated | stored | noted | instructed => rfl

/-- Only recording an insight touches the insights. -/
theorem Effect.insights {s s' : Store} {fresh : Fresh} {w : Write} (h : Effect s fresh w s')
    (hother : ∀ input, w ≠ .insight input) : s'.insights = s.insights := by
  cases h with
  | noted input => exact absurd rfl (hother input)
  | unchanged | described | registered | restated | stored | logged | instructed => rfl

/-- Only recording a prompt touches the prompts. -/
theorem Effect.prompts {s s' : Store} {fresh : Fresh} {w : Write} (h : Effect s fresh w s')
    (hother : ∀ input, w ≠ .prompt input) : s'.prompts = s.prompts := by
  cases h with
  | instructed input => exact absurd rfl (hother input)
  | unchanged | described | registered | restated | stored | logged | noted => rfl

section

variable {s : Store}

theorem perform_queryLog (hnames : s.DistinctProjectNames) (step : Step) (rows : List QueryRow)
    (hrows : s.queryLog = some rows) :
    (s.perform step).queryLog = some (rows ++ (recorded Step.entry? s [step]).map queryRow) := by
  have heffect := perform_effect s hnames step
  rw [recorded_singleton]
  cases hwrite : step.write with
  | log input =>
      simp only [perform, failureOf, Step.entry?, hwrite, logQuery, hrows]
      split
      · simpa [failureIn] using hrows
      · simp [failureIn]
  | _ =>
      rw [heffect.queryLog (by simp [hwrite])]
      simpa [Step.entry?, hwrite] using hrows

theorem perform_insights (hnames : s.DistinctProjectNames) (step : Step) (rows : List InsightRow)
    (hrows : some s.insights = some rows) :
    some (s.perform step).insights =
      some (rows ++ (recorded Step.insight? s [step]).map insightRow) := by
  have heffect := perform_effect s hnames step
  cases hrows
  rw [recorded_singleton]
  cases hwrite : step.write with
  | insight input =>
      simp only [perform, failureOf, Step.insight?, hwrite, recordInsight]
      split
      · simp [failureIn]
      · split <;> simp [failureIn]
  | _ =>
      rw [heffect.insights (by simp [hwrite])]
      simp [Step.insight?, hwrite]

theorem perform_prompts (hnames : s.DistinctProjectNames) (step : Step) (rows : List PromptRow)
    (hrows : some s.prompts = some rows) :
    some (s.perform step).prompts =
      some (rows ++ (recorded Step.prompt? s [step]).map promptRow) := by
  have heffect := perform_effect s hnames step
  cases hrows
  rw [recorded_singleton]
  cases hwrite : step.write with
  | prompt input =>
      simp only [perform, failureOf, Step.prompt?, hwrite, recordPrompt]
      split
      · simp [failureIn]
      · split <;> simp [failureIn]
  | _ =>
      rw [heffect.prompts (by simp [hwrite])]
      simp [Step.prompt?, hwrite]

end

section

variable (u v : Bool) (steps : List Step)

/-- The log holds the questions that were logged. -/
theorem run_queryLog : ((blank u v).run steps).queryLog =
    some ((recorded Step.entry? (blank u v) steps).map queryRow) :=
  run_table Store.queryLog (fun _ => perform_queryLog) (Coherent.blank u v) rfl steps

/-- The insights are those that were recorded. -/
theorem run_insights : ((blank u v).run steps).insights =
    (recorded Step.insight? (blank u v) steps).map insightRow :=
  Option.some.inj (run_table (fun s => some s.insights) (fun _ => perform_insights)
    (Coherent.blank u v) rfl steps)

/-- The prompts are those that were recorded. -/
theorem run_prompts : ((blank u v).run steps).prompts =
    (recorded Step.prompt? (blank u v) steps).map promptRow :=
  Option.some.inj (run_table (fun s => some s.prompts) (fun _ => perform_prompts)
    (Coherent.blank u v) rfl steps)

end

/-- A stored identifier says whether there is one, and which. -/
theorem optUuid_injective : Function.Injective optUuid := by
  intro a b h
  cases a <;> cases b
  case none.none => rfl
  case some.some => exact congrArg some (Uuid.toString_injective (Cell.text.inj h))
  all_goals cases h

/-! ## Rows up to a limit -/

section

variable {α β : Type}

/-- Whether a listing shows the first rows of a table, as many as are asked for.  More of them than a
table can have are asked for by a number beyond 63 bits. -/
structure ShowsFirst (listing : Nat → Except Failure (List α)) (table : List α) : Prop where
  upTo : ∀ limit, limit < 2 ^ 63 ∨ table.length ≤ limit → listing limit = .ok (table.take limit)
  all : ∀ limit, 2 ^ 63 ≤ limit → listing limit = .ok table

theorem limited_map (f : α → β) (limit : Nat) (rows : List α) :
    limited limit (rows.map f) = (limited limit rows).map f := by
  unfold limited
  split
  · rw [List.map_take]
  · rfl

theorem showsFirst_of_limited {listing : Nat → Except Failure (List α)} {table : List α}
    (h : ∀ limit, listing limit = .ok (limited limit table)) : ShowsFirst listing table := by
  have hpow : Nat.pow 2 63 = 2 ^ 63 := rfl
  refine ⟨fun limit hlimit => ?_, fun limit hlimit => ?_⟩
  · rw [h, limited]
    split
    · rfl
    · have hlength : table.length ≤ limit := by omega
      rw [List.take_of_length_le hlength]
  · rw [h, limited, if_neg (by omega)]

/-! ## Newest first -/

/-- Rows that were written one after the other stand backwards if they are listed newest first. -/
theorem newestFirst_of_pairwise {key : α → Cell} {rows : List α}
    (h : rows.Pairwise fun a b => (key a).le (key b) = true) :
    newestFirst key rows = rows.reverse := by
  refine List.mergeSort_of_pairwise ?_
  rw [List.pairwise_reverse]
  exact h

end

/-- Whether the clock never ran backwards and could be written down. -/
structure KeepsTime (steps : List Step) : Prop where
  valid : ∀ step ∈ steps, step.fresh.now.IsValid
  forward : (steps.map fun step => step.fresh.now).Pairwise Instant.NotAfter

theorem KeepsTime.before {steps more : List Step} (h : KeepsTime (steps ++ more)) :
    KeepsTime steps where
  valid step hstep := h.valid step (List.mem_append_left more hstep)
  forward := h.forward.sublist ((List.sublist_append_left steps more).map _)

section

variable {α ρ : Type} {steps : List Step} {items : List α} {time : α → Instant}

/-- What was recorded has times that can be written down. -/
theorem KeepsTime.isValid (h : KeepsTime steps)
    (htimes : (items.map time).Sublist (steps.map fun step => step.fresh.now)) {x : α}
    (hx : x ∈ items) : (time x).IsValid := by
  obtain ⟨step, hstep, hnow⟩ := List.mem_map.mp (htimes.subset (List.mem_map_of_mem hx))
  rw [← hnow]
  exact h.valid step hstep

/-- Rows of what was recorded stand backwards if they are listed newest first, those written at the
same time too, whichever of them are wanted. -/
theorem KeepsTime.newestFirst_eq (h : KeepsTime steps)
    (htimes : (items.map time).Sublist (steps.map fun step => step.fresh.now)) (row : α → ρ)
    (key : ρ → Cell) (hkey : ∀ x, key (row x) = Cell.instant (time x)) {wanted : ρ → Bool}
    {keep : α → Bool} (hwanted : ∀ x, wanted (row x) = keep x) :
    newestFirst key ((items.map row).filter wanted) = ((items.filter keep).reverse).map row := by
  have hkept : ((items.filter keep).map time).Sublist (steps.map fun step => step.fresh.now) :=
    (List.filter_sublist.map time).trans htimes
  have hforward := List.pairwise_map.mp (h.forward.sublist hkept)
  have hfilter : (items.map row).filter wanted = (items.filter keep).map row := by
    rw [List.filter_map]
    exact congrArg (List.map row) (congrArg (List.filter · items) (funext hwanted))
  rw [hfilter, List.map_reverse]
  refine newestFirst_of_pairwise (List.pairwise_map.mpr ?_)
  refine hforward.imp_of_mem fun {a b} ha hb hab => ?_
  rw [hkey, hkey, Cell.instant, Cell.instant, Cell.le, decide_eq_true_eq]
  exact Instant.toOffset_le (h.isValid hkept ha) (h.isValid hkept hb) hab

end

/-! ## Readable from the first -/

/-- A store without rows can be read, whatever further constraints it has. -/
theorem Readable.blank (u v : Bool) : Readable [] (Store.blank u v) where
  sound := Sound.blank u v
  queryLog := ⟨[], rfl, by simp⟩
  insights := by simp [InsightsLegible, Store.blank, Store.empty]

end FossilRecord.Store
