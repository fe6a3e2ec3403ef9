import FossilRecord.Proofs.Json.Same
import FossilRecord.Proofs.Store.Recorded
import FossilRecord.Proofs.Store.Tally

/-!
# Counting logged questions

The log is grouped by tool and project, and by tool and parameters.  Parameters are grouped as they
are written, which is the same for two of them exactly if they are the same value, in whatever order
the fields of its objects were given; no parameters are something else than the value null.  Either
table counts every question once (`usage_counts`).
-/

namespace FossilRecord

/-- Whether a text that may be missing stands before another: nothing first, then in byte order. -/
def OptBefore : Option String → Option String → Prop
  | none, some _ => True
  | some s, some t => Text.octets s < Text.octets t
  | _, none => False

/-- Whether pairs are counted: each that occurs once, with the number of times that it occurs, the
most frequent one first, and those of equal number by their first texts and then by their second
ones. -/
structure IsUsage (pairs : List (String × Option String))
    (table : List ((String × Option String) × Nat)) : Prop where
  once : (table.map Prod.fst).Nodup
  mem_iff : ∀ pair count,
    (pair, count) ∈ table ↔ pair ∈ pairs ∧ count = pairs.countP fun other => other = pair
  ordered : table.Pairwise fun a b =>
    b.2 < a.2 ∨ a.2 = b.2 ∧
      (Text.octets a.1.1 < Text.octets b.1.1 ∨ a.1.1 = b.1.1 ∧ OptBefore a.1.2 b.1.2)

/-- The numbers of all pairs add up to the number of what was counted. -/
theorem IsUsage.sum_eq {pairs : List (String × Option String)}
    {table : List ((String × Option String) × Nat)} (h : IsUsage pairs table) :
    (table.map Prod.snd).sum = pairs.length :=
  sum_counts h.once h.mem_iff

/-- A row of the table of tools and projects. -/
def QueryUsage.ofCount (u : (String × Option String) × Nat) : QueryUsage :=
  ⟨u.1.1, u.1.2, u.2⟩

/-- A row of the table of tools and parameters. -/
def ParamUsage.ofCount (u : (String × Option String) × Nat) : ParamUsage :=
  ⟨u.1.1, u.1.2, u.2⟩

namespace NewQueryLogEntry

/-- The tool and the project of a question. -/
def toolAndProject (c : NewQueryLogEntry) : String × Option String :=
  (c.toolName, c.projectName)

/-- The tool of a question and its parameters, written with their fields in order. -/
def toolAndParams (c : NewQueryLogEntry) : String × Option String :=
  (c.toolName, c.queryParams.map fun j => j.sorted.compact)

/-- Whether two questions have the same parameters or both have none. -/
def SameParams (c d : NewQueryLogEntry) : Prop :=
  match c.queryParams, d.queryParams with
  | none, none => True
  | some j, some k => j.same k = true
  | _, _ => False

end NewQueryLogEntry

/-- Whether a logged question is one that was given.  Its parameters are kept with the fields of
their objects in order. -/
structure GivenAs (c : NewQueryLogEntry) (e : QueryLogEntry) : Prop where
  toolName : e.toolName = c.toolName
  projectName : e.projectName = c.projectName
  queryParams : e.queryParams = c.queryParams.map Json.sorted
  isGiven : ∀ j ∈ c.queryParams, j.IsGiven

namespace Store

/-! ## Pairs of texts as stored values -/

/-- A pair of texts as it is stored. -/
def pairCells (p : String × Option String) : Cell × Cell :=
  (.text p.1, .optText p.2)

theorem optText_injective : Function.Injective Cell.optText := by
  intro s t h
  cases s <;> cases t <;> simp_all [Cell.optText]

theorem pairCells_injective : Function.Injective pairCells := by
  intro p q h
  obtain ⟨hfirst, hsecond⟩ := Prod.mk.inj h
  exact Prod.ext (Cell.text.inj hfirst) (optText_injective hsecond)

/-- The tally of pairs of texts in the order of the stored values. -/
def tallyPairs (pairs : List (String × Option String)) : List ((String × Option String) × Nat) :=
  orderedTally (fun p => [.text p.1, .optText p.2]) pairs

theorem optBefore_of_le {s t : Option String}
    (hle : (Cell.optText s).le (Cell.optText t) = true) (hne : s ≠ t) : OptBefore s t := by
  cases s with
  | none =>
      cases t with
      | none => exact absurd rfl hne
      | some t => trivial
  | some s =>
      cases t with
      | none => simp [Cell.optText, Cell.le] at hle
      | some t => exact octets_lt_of_le hle fun heq => hne (congrArg some heq.symm)

theorem isUsage_tallyPairs (pairs : List (String × Option String)) :
    IsUsage pairs (tallyPairs pairs) := by
  refine ⟨?once, fun pair count => ?mem, ?ordered⟩
  case once =>
    exact nodup_orderedTally _ pairs
  case mem =>
    rw [tallyPairs, mem_orderedTally]
    rfl
  case ordered =>
    refine (orderedTally_pairwise _ pairs).imp fun {a b} hab => hab.imp_right ?_
    rintro ⟨hcount, hle, hne⟩
    refine ⟨hcount, ?_⟩
    rw [Cell.listLe_cons] at hle
    by_cases hfirst : a.1.1 = b.1.1
    · rw [hfirst] at hle
      have hsecond := hle.2 hle.1
      rw [Cell.listLe_cons] at hsecond
      exact .inr ⟨hfirst, optBefore_of_le hsecond.1 fun heq => hne (Prod.ext hfirst heq)⟩
    · exact .inl (octets_lt_of_le hle.1 (Ne.symm hfirst))

/-- The groups of the log are the pairs of its entries, counted. -/
theorem usageBy_queryRow {key : QueryRow → Cell × Cell}
    (pair : QueryLogEntry → String × Option String)
    (hkey : ∀ e, key (queryRow e) = pairCells (pair e)) (entries : List QueryLogEntry) :
    usageBy key (entries.map queryRow) =
      (tallyPairs (entries.map pair)).map fun u => (pairCells u.1, u.2) := by
  have hkeys : (entries.map queryRow).map key = (entries.map pair).map pairCells := by
    rw [List.map_map, List.map_map]
    exact List.map_congr_left fun e _ => hkey e
  rw [usageBy, hkeys, orderedTally_map pairCells_injective fun _ => rfl, tallyPairs]
  rfl

/-! ## The two tables -/

section

variable {s : Store} {entries : List QueryLogEntry}

theorem queryUsage_eq (hrows : s.queryLog = some (entries.map queryRow)) (limit : Nat) :
    s.queryUsage limit = .ok (limited limit
      ((tallyPairs (entries.map fun e => (e.toolName, e.projectName))).map
        QueryUsage.ofCount)) := by
  rw [queryUsage, logRows, hrows]
  simp only [bind, Except.bind]
  rw [usageBy_queryRow (fun e => (e.toolName, e.projectName)) fun _ => rfl, limited_map,
    limited_map]
  refine mapM_map_eq_ok fun u _ => ?_
  simp [pairCells, QueryUsage.ofCount]

theorem paramUsage_eq (hrows : s.queryLog = some (entries.map queryRow)) (limit : Nat) :
    s.paramUsage limit = .ok (limited limit
      ((tallyPairs (entries.map fun e => (e.toolName, e.queryParams.map Json.compact))).map
        ParamUsage.ofCount)) := by
  rw [paramUsage, logRows, hrows]
  simp only [bind, Except.bind]
  rw [usageBy_queryRow (fun e => (e.toolName, e.queryParams.map Json.compact)) fun _ => rfl,
    limited_map, limited_map]
  refine mapM_map_eq_ok fun u _ => ?_
  simp [pairCells, ParamUsage.ofCount]

end

/-! ## Questions as they were given -/

section

variable {given : List NewQueryLogEntry} {entries : List QueryLogEntry}

theorem pairs_of_givenAs (h : List.Forall₂ GivenAs given entries) :
    (entries.map fun e => (e.toolName, e.projectName)) =
      given.map NewQueryLogEntry.toolAndProject :=
  map_eq_map_of_forall₂ h.flip fun e c hce => by
    rw [hce.toolName, hce.projectName, NewQueryLogEntry.toolAndProject]

theorem params_of_givenAs (h : List.Forall₂ GivenAs given entries) :
    (entries.map fun e => (e.toolName, e.queryParams.map Json.compact)) =
      given.map NewQueryLogEntry.toolAndParams :=
  map_eq_map_of_forall₂ h.flip fun e c hce => by
    rw [hce.toolName, hce.queryParams, Option.map_map, NewQueryLogEntry.toolAndParams]
    rfl

/-- Parameters are written alike exactly if they are the same, or there are none of both. -/
theorem params_eq_iff {c d : NewQueryLogEntry} (hc : ∀ j ∈ c.queryParams, j.IsGiven)
    (hd : ∀ j ∈ d.queryParams, j.IsGiven) :
    c.toolAndParams.2 = d.toolAndParams.2 ↔ c.SameParams d := by
  rw [NewQueryLogEntry.toolAndParams, NewQueryLogEntry.toolAndParams, NewQueryLogEntry.SameParams]
  cases hcparams : c.queryParams with
  | none => cases d.queryParams <;> simp
  | some j =>
      cases hdparams : d.queryParams with
      | none => simp
      | some k =>
          have hiff := (hc j hcparams).compact_sorted_eq_iff (hd k hdparams)
          simpa using hiff

end

/-! ## Every call counts -/

/-- A question is logged unless its identifier is that of an earlier one. -/
theorem recorded_entry_eq (u v : Bool) {steps : List Step}
    (hids : ((steps.filterMap Step.entry?).map QueryLogEntry.entryId).Nodup) :
    recorded Step.entry? (blank u v) steps = steps.filterMap Step.entry? := by
  induction steps using List.reverseRecOn with
  | nil => rfl
  | append_singleton before step ih =>
      rw [List.filterMap_append, List.map_append] at hids
      obtain ⟨hbefore, -, hdisjoint⟩ := List.nodup_append.mp hids
      have hrows := run_queryLog u v before
      rw [ih hbefore] at hrows
      rw [recorded_append, ih hbefore, List.filterMap_append, recorded_singleton]
      congr 1
      cases hentry : step.entry? with
      | none => simp [hentry]
      | some e =>
          -- no row has the identifier, so the question is not refused
          have haccepted : (((blank u v).run before).failureOf step).isNone = true := by
            unfold Step.entry? at hentry
            split at hentry
            case h_1 input hwrite =>
              cases hentry
              have hnew : (((before.filterMap Step.entry?).map queryRow).any fun r =>
                  decide (r.entryId = Cell.uuid (step.fresh.id 0))) = false := by
                rw [List.any_eq_false]
                intro r hr hid
                obtain ⟨e, he, rfl⟩ := List.mem_map.mp hr
                have hsame : e.entryId = step.fresh.id 0 :=
                  Uuid.toString_injective (Cell.text.inj (of_decide_eq_true hid))
                refine hdisjoint _ (List.mem_map_of_mem he) (step.fresh.id 0) ?_ hsame
                simp [Step.entry?, hwrite]
              simp only [failureOf, hwrite, logQuery, hrows, hnew]
              rfl
            all_goals cases hentry
          simp [haccepted, hentry]

/-- Both tables count every question that was logged once.  The first is about tools and projects,
the second about tools and parameters, where parameters are alike exactly if they are the same or
there are none of both.  Up to any limit their first rows are shown, and the numbers of either add
up to the number of the questions.  No question is refused, as long as identifiers are not drawn
twice. -/
theorem usage_counts (u v : Bool) (steps : List Step) {given : List NewQueryLogEntry}
    (hgiven : List.Forall₂ GivenAs given (recorded Step.entry? (blank u v) steps)) :
    ∃ projects params,
      IsUsage (given.map NewQueryLogEntry.toolAndProject) projects ∧
      ShowsFirst ((blank u v).run steps).queryUsage (projects.map QueryUsage.ofCount) ∧
      IsUsage (given.map NewQueryLogEntry.toolAndParams) params ∧
      ShowsFirst ((blank u v).run steps).paramUsage (params.map ParamUsage.ofCount) ∧
      (∀ c ∈ given, ∀ d ∈ given, c.toolAndParams.2 = d.toolAndParams.2 ↔ c.SameParams d) ∧
      (projects.map Prod.snd).sum = given.length ∧ (params.map Prod.snd).sum = given.length ∧
      (((steps.filterMap Step.entry?).map QueryLogEntry.entryId).Nodup →
        recorded Step.entry? (blank u v) steps = steps.filterMap Step.entry?) := by
  have hrows := run_queryLog u v steps
  have hprojects := isUsage_tallyPairs (given.map NewQueryLogEntry.toolAndProject)
  have hparams := isUsage_tallyPairs (given.map NewQueryLogEntry.toolAndParams)
  refine ⟨_, _, hprojects, ?projects, hparams, ?params, ?same, ?projectSum, ?paramSum, ?all⟩
  case projects =>
    refine showsFirst_of_limited fun limit => ?_
    rw [queryUsage_eq hrows, pairs_of_givenAs hgiven]
  case params =>
    refine showsFirst_of_limited fun limit => ?_
    rw [paramUsage_eq hrows, params_of_givenAs hgiven]
  case same =>
    intro c hc d hd
    obtain ⟨_, -, hce⟩ := exists_mem_of_forall₂ hgiven hc
    obtain ⟨_, -, hde⟩ := exists_mem_of_forall₂ hgiven hd
    exact params_eq_iff hce.isGiven hde.isGiven
  case projectSum => rw [hprojects.sum_eq, List.length_map]
  case paramSum => rw [hparams.sum_eq, List.length_map]
  case all => exact recorded_entry_eq u v

/-- Two questions have the same parameters with their fields in different order, one has null and one
has none. -/
theorem usage_counts_any_order :
    let asked (params : Option Json) : NewQueryLogEntry := ⟨"lookup_symbol", none, params⟩
    let limits : Json := .object [("limit", .int 3), ("name", .text "f")]
    let swapped : Json := .object [("name", .text "f"), ("limit", .int 3)]
    let step (first : Nat) (params : Option Json) : Step :=
      ⟨⟨fun k => ⟨BitVec.ofNat 128 (first + k)⟩, ⟨2024, 2, 29, 12, 0, 0, 0⟩⟩, .log (asked params)⟩
    let steps := [step 1 (some limits), step 2 (some limits), step 3 (some .null), step 4 none]
    let given := [asked (some limits), asked (some swapped), asked (some .null), asked none]
    List.Forall₂ GivenAs given (recorded Step.entry? (blank false false) steps) ∧
      (∃ shown, ((blank false false).run steps).paramUsage (2 ^ 64 - 1) = .ok shown ∧
        (shown.map ParamUsage.count).sum = 4) ∧
      (asked (some limits)).toolAndParams.2 = (asked (some swapped)).toolAndParams.2 ∧
      (asked (some .null)).toolAndParams.2 ≠ (asked none).toolAndParams.2 := by
  intro asked limits swapped step steps given
  have hthree : (Json.int 3).IsGiven := .number (n := .whole 3) ⟨by decide, by decide⟩ rfl
  have hlimits : limits.IsGiven := by
    refine .object (by simp [Json.NamesApart]) ?_
    simp only [List.forall_mem_cons, List.not_mem_nil, false_imp_iff, implies_true, and_true]
    exact ⟨hthree, .text "f"⟩
  have hswapped : swapped.IsGiven := by
    refine .object (by simp [Json.NamesApart]) ?_
    simp only [List.forall_mem_cons, List.not_mem_nil, false_imp_iff, implies_true, and_true]
    exact ⟨.text "f", hthree⟩
  have hgiven : List.Forall₂ GivenAs given (recorded Step.entry? (blank false false) steps) := by
    rw [recorded_entry_eq false false (by decide +kernel)]
    refine .cons ⟨rfl, rfl, rfl, ?_⟩ (.cons ⟨rfl, rfl, rfl, ?_⟩ (.cons ⟨rfl, rfl, rfl, ?_⟩
      (.cons ⟨rfl, rfl, rfl, ?_⟩ .nil)))
    · rintro _ ⟨⟩
      exact hlimits
    · rintro _ ⟨⟩
      exact hswapped
    · rintro _ ⟨⟩
      exact .null
    · rintro _ ⟨⟩
  obtain ⟨projects, params, -, -, -, hshown, hsame, -, hsum, -⟩ :=
    usage_counts false false steps hgiven
  refine ⟨hgiven, ⟨_, hshown.all _ (by decide), ?_⟩, ?_, ?_⟩
  · rw [List.map_map]
    exact hsum
  · exact (hsame _ (by simp [given]) _ (by simp [given])).mpr rfl
  · rw [Ne, hsame _ (by simp [given]) _ (by simp [given])]
    exact id

end Store

end FossilRecord
