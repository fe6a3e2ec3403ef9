import FossilRecord.Proofs.Store.Outcome

/-!
# Rows up to what is drawn

Two runs of one write take different identifiers and different times from outside, so the rows that
they write are not the same.  `TablesAlike` says that they are the same but for this: where a row of
one run has an identifier or a time that it took, the row of the other run has the one that was taken
in its place.  Everything else in a row is equal, and so are all rows that were there before.
-/

namespace FossilRecord.Store

section

/-! Throughout, `a` is what the first run takes from outside, and `b` what the second one takes. -/

variable (a b : Fresh)

/-- The same project, or one that both runs indexed. -/
def ProjectRow.Alike (r r' : ProjectRow) : Prop :=
  r = r' ∨ r.lastIndexed = Cell.instant a.now ∧ r' = { r with lastIndexed := Cell.instant b.now }

/-- The same fossil, or one that each run wrote under the identifier that it drew. -/
def FossilRow.Alike (r r' : FossilRow) : Prop :=
  r = r' ∨ ∃ k, r.fossilId = Cell.uuid (a.id k) ∧ r.createdAt = Cell.instant a.now ∧
    r' = { r with fossilId := Cell.uuid (b.id k), createdAt := Cell.instant b.now }

/-- The same symbol, or one that each run wrote under the identifiers that it drew. -/
def SymbolRow.Alike (r r' : SymbolRow) : Prop :=
  r = r' ∨ ∃ j k, r.symbolId = Cell.uuid (a.id j) ∧ r.fossilId = Cell.uuid (a.id k) ∧
    r' = { r with symbolId := Cell.uuid (b.id j), fossilId := Cell.uuid (b.id k) }

/-- The same insight, or one that each run wrote under the identifier that it drew. -/
def InsightRow.Alike (r r' : InsightRow) : Prop :=
  r = r' ∨ ∃ k, r.insightId = Cell.uuid (a.id k) ∧ r.createdAt = Cell.instant a.now ∧
    r' = { r with insightId := Cell.uuid (b.id k), createdAt := Cell.instant b.now }

/-- Whether all tables but the log are the same up to what the two runs took from outside. -/
structure TablesAlike (s t : Store) : Prop where
  projects : List.Forall₂ (ProjectRow.Alike a b) s.projects t.projects
  fossils : List.Forall₂ (FossilRow.Alike a b) s.fossils t.fossils
  symbols : List.Forall₂ (SymbolRow.Alike a b) s.symbols t.symbols
  insights : List.Forall₂ (InsightRow.Alike a b) s.insights t.insights
  prompts : s.prompts = t.prompts

end

section

variable {a b : Fresh}

theorem forall₂_self {α : Type} {alike : α → α → Prop} (h : ∀ r, alike r r) (rows : List α) :
    List.Forall₂ alike rows rows :=
  List.forall₂_same.mpr fun r _ => h r

theorem symbolRows_alike (projectId : Uuid) (place : Nat) (symbols : List PayloadSymbol) :
    List.Forall₂ (SymbolRow.Alike a b) (symbolRows a projectId place symbols)
      (symbolRows b projectId place symbols) := by
  induction symbols generalizing place with
  | nil => exact .nil
  | cons p rest ih => exact .cons (.inr ⟨place + 1, 0, rfl, rfl, rfl⟩) (ih (place + 1))

namespace TablesAlike

/-- Tables are alike whatever the logs are. -/
theorem withLog (s : Store) (log log' : Option (List QueryRow)) :
    TablesAlike a b (s.withLog log) (s.withLog log') where
  projects := forall₂_self (fun _ => .inl rfl) _
  fossils := forall₂_self (fun _ => .inl rfl) _
  symbols := forall₂_self (fun _ => .inl rfl) _
  insights := forall₂_self (fun _ => .inl rfl) _
  prompts := rfl

/-- Two runs that store the same fossil leave tables that are alike. -/
theorem withFossil {s t : Store} (h : TablesAlike a b s t) (hprojects : s.projects = t.projects)
    (projectId : Uuid) (version : Int) (p : Payload) (promptUsed : String) :
    TablesAlike a b (s.withFossil a projectId version p promptUsed)
      (t.withFossil b projectId version p promptUsed) where
  projects := by
    show List.Forall₂ _ (s.projects.map _) (t.projects.map _)
    rw [← hprojects, List.forall₂_map_left_iff, List.forall₂_map_right_iff, List.forall₂_same]
    intro r _
    by_cases hr : r.projectId = Cell.uuid projectId
    · rw [if_pos hr, if_pos hr]
      right
      exact ⟨rfl, rfl⟩
    · rw [if_neg hr, if_neg hr]
      left
      rfl
  fossils := List.rel_append h.fossils (.cons (.inr ⟨0, rfl, rfl, rfl⟩) .nil)
  symbols := List.rel_append h.symbols (symbolRows_alike projectId 0 p.symbols)
  insights := h.insights
  prompts := h.prompts

/-- Two runs that keep the same text leave tables that are alike. -/
theorem withInsight {s t : Store} (h : TablesAlike a b s t) (p : Project) (raw : String) :
    TablesAlike a b { s with insights := s.insights ++ [insightRow (rawInsight a p raw)] }
      { t with insights := t.insights ++ [insightRow (rawInsight b p raw)] } :=
  { h with
    insights := List.rel_append h.insights (.cons (.inr ⟨0, rfl, rfl, rfl⟩) .nil) }

/-- What was taken after some identifiers was taken. -/
theorem of_after {s t : Store} {count : Nat} (h : TablesAlike (a.after count) (b.after count) s t) :
    TablesAlike a b s t where
  projects := h.projects
  fossils := by
    refine h.fossils.imp ?_
    rintro r r' (hsame | ⟨k, hid, hmade, hrow⟩)
    · exact .inl hsame
    · exact .inr ⟨k + count, hid, hmade, hrow⟩
  symbols := by
    refine h.symbols.imp ?_
    rintro r r' (hsame | ⟨j, k, hid, hfossil, hrow⟩)
    · exact .inl hsame
    · exact .inr ⟨j + count, k + count, hid, hfossil, hrow⟩
  insights := by
    refine h.insights.imp ?_
    rintro r r' (hsame | ⟨k, hid, hmade, hrow⟩)
    · exact .inl hsame
    · exact .inr ⟨k + count, hid, hmade, hrow⟩
  prompts := h.prompts

end TablesAlike

end

end FossilRecord.Store
