import FossilRecord.Proofs.Store.Naming
import FossilRecord.Proofs.Text.ByteOrder

/-!
# Which project a name means

A name is looked for in up to three ways: as it is, in any case, and as a part of another name.  Each
way has an order of names, whose first one is meant, and a way counts only if those before it give
nothing (`Gives`).  This says nothing about the order of the rows, and there is exactly one answer
where no two projects have the same name.

`findProject_means` states that a lookup gives this answer.
-/

namespace FossilRecord.Store

/-! ## What a name means -/

/-- Whether the projects of a store have names of their own: every name is a text without the
character with number zero, and no two projects have the same one. -/
structure NamesProjects (s : Store) : Prop where
  isText : ∀ r ∈ s.projects, ∃ own, r.name = .text own ∧ '\x00' ∉ own.toList
  distinct : s.DistinctProjectNames

/-- Whether a lookup takes a project into account: a fuzzy one only if it is active. -/
def Offers (s : Store) (mode : ProjectLookup) (r : ProjectRow) : Prop :=
  r ∈ s.projects ∧ (mode = .fuzzy → r.status = .text ProjectStatus.active.label)

/-- A way of looking for a name: which names it accepts, and which of two names it prefers. -/
structure Way where
  accepts : String → Prop
  before : String → String → Prop

namespace Way

/-- The name as it is. -/
def exact (wanted : String) : Way where
  accepts own := own = wanted
  before own other := Text.octets own < Text.octets other

/-- The name with the letters A to Z in any case, the first one by octets. -/
def anyCase (wanted : String) : Way where
  accepts own := Text.foldAscii own = Text.foldAscii wanted
  before own other := Text.octets own < Text.octets other

/-- Names of which the name is a part in any case, the shortest one, and of those of one length the
first one by octets. -/
def part (wanted : String) : Way where
  accepts own := ∃ before after,
    (Text.foldAscii own).toList = before ++ (Text.foldAscii wanted).toList ++ after
  before own other :=
    own.length < other.length ∨ own.length = other.length ∧ Text.octets own < Text.octets other

/-- The ways in which a lookup looks for a name, in order. -/
def all (wanted : String) : ProjectLookup → List Way
  | .strict => [exact wanted, anyCase wanted]
  | .fuzzy => [exact wanted, anyCase wanted, part wanted]

end Way

/-- Whether a project is the first of those whose names a way accepts. -/
def IsFirst (s : Store) (mode : ProjectLookup) (way : Way) (r : ProjectRow) : Prop :=
  s.Offers mode r ∧ ∃ own, r.name = .text own ∧ way.accepts own ∧
    ∀ q other, s.Offers mode q → q.name = .text other → way.accepts other → other ≠ own →
      way.before own other

/-- Whether a way accepts no name. -/
def OffersNone (s : Store) (mode : ProjectLookup) (way : Way) : Prop :=
  ∀ q own, s.Offers mode q → q.name = .text own → ¬way.accepts own

/-- What is found in some ways, the first one that accepts a name deciding. -/
inductive Gives (s : Store) (mode : ProjectLookup) : List Way → Option ProjectRow → Prop
  | first {way : Way} {rest : List Way} {r : ProjectRow} (h : s.IsFirst mode way r) :
      Gives s mode (way :: rest) (some r)
  | next {way : Way} {rest : List Way} {found : Option ProjectRow} (hnone : s.OffersNone mode way)
      (h : Gives s mode rest found) : Gives s mode (way :: rest) found
  | nothing : Gives s mode [] none

/-! ## There is one answer -/

section

variable {s t : Store} {mode : ProjectLookup} {way : Way} {ways : List Way}
  {found other : Option ProjectRow}

theorem mem_visible_iff {r : ProjectRow} :
    r ∈ s.projects.filter (isVisible mode) ↔ s.Offers mode r := by
  rw [List.mem_filter, Offers]
  cases mode <;> simp [isVisible, ProjectStatus.label]

theorem Way.before_asymm {wanted : String} (hway : way ∈ Way.all wanted mode) {a b : String}
    (hab : way.before a b) : ¬way.before b a := by
  have hoctets : ∀ {a b : String}, Text.octets a < Text.octets b → ¬Text.octets b < Text.octets a :=
    fun h => List.lt_asymm h
  have hcases : way = .exact wanted ∨ way = .anyCase wanted ∨ way = .part wanted := by
    cases mode <;> simp [Way.all] at hway <;> tauto
  rcases hcases with rfl | rfl | rfl
  · exact hoctets hab
  · exact hoctets hab
  · rcases hab with hlt | ⟨heq, hlt⟩
    · rintro (hgt | ⟨heq', -⟩) <;> omega
    · rintro (hgt | ⟨-, hgt⟩)
      · omega
      · exact hoctets hlt hgt

theorem NamesProjects.eq_of_name (hnames : s.NamesProjects) {q r : ProjectRow}
    (hq : s.Offers mode q) (hr : s.Offers mode r) (hname : q.name = r.name) : q = r :=
  List.inj_on_of_nodup_map hnames.distinct hq.1 hr.1 hname

/-- Two projects cannot both be the first. -/
theorem IsFirst.unique (hnames : s.NamesProjects)
    (hasymm : ∀ a b, way.before a b → ¬way.before b a) {q r : ProjectRow}
    (hq : s.IsFirst mode way q) (hr : s.IsFirst mode way r) : q = r := by
  obtain ⟨hoffersQ, a, ha, haccepts, hfirst⟩ := hq
  obtain ⟨hoffersR, b, hb, haccepts', hfirst'⟩ := hr
  by_cases hab : b = a
  · exact hnames.eq_of_name hoffersQ hoffersR (by rw [ha, hb, hab])
  · have hbefore := hfirst r b hoffersR hb haccepts' hab
    have hafter := hfirst' q a hoffersQ ha haccepts (Ne.symm hab)
    exact absurd hafter (hasymm a b hbefore)

theorem IsFirst.not_offersNone {r : ProjectRow} (h : s.IsFirst mode way r) :
    ¬s.OffersNone mode way := by
  obtain ⟨hoffers, own, hown, haccepts, -⟩ := h
  exact fun hnone => hnone r own hoffers hown haccepts

theorem Gives.unique (hnames : s.NamesProjects)
    (hasymm : ∀ way ∈ ways, ∀ a b, way.before a b → ¬way.before b a)
    (hfound : s.Gives mode ways found) (hother : s.Gives mode ways other) : other = found := by
  induction hfound with
  | first h =>
      cases hother with
      | first h' => exact congrArg some (h'.unique hnames (hasymm _ (by simp)) h)
      | next hnone _ => exact absurd hnone h.not_offersNone
  | next hnone _ ih =>
      cases hother with
      | first h' => exact absurd hnone h'.not_offersNone
      | next _ h' => exact ih (fun way hway => hasymm way (by simp [hway])) h'
  | nothing =>
      cases hother
      rfl

/-- What is found does not depend on the order of the projects. -/
theorem Gives.perm (h : s.Gives mode ways found) (hperm : t.projects.Perm s.projects) :
    t.Gives mode ways found := by
  have hoffers : ∀ r, t.Offers mode r ↔ s.Offers mode r := fun r => by
    rw [Offers, Offers, hperm.mem_iff]
  induction h with
  | first h =>
      obtain ⟨hr, own, hown, haccepts, hfirst⟩ := h
      refine .first ⟨(hoffers _).mpr hr, own, hown, haccepts, fun q other hq => ?_⟩
      exact hfirst q other ((hoffers q).mp hq)
  | next hnone _ ih => exact .next (fun q own hq => hnone q own ((hoffers q).mp hq)) ih
  | nothing => exact .nothing

/-! ## Looking in one way -/

/-- Whether a way gives what was found. -/
def Finds (s : Store) (mode : ProjectLookup) (way : Way) : Option ProjectRow → Prop
  | some r => s.IsFirst mode way r
  | none => s.OffersNone mode way

theorem Finds.orElse (h : s.Finds mode way found) (hrest : s.Gives mode ways other) :
    s.Gives mode (way :: ways) (found.orElse fun _ => other) := by
  cases found with
  | some r => exact .first h
  | none => exact .next h hrest

theorem finds_exact (wanted : String) :
    s.Finds mode (.exact wanted)
      ((s.projects.filter (isVisible mode)).find? fun r => r.name = .text wanted) := by
  cases hfind : (s.projects.filter (isVisible mode)).find? fun r => r.name = .text wanted with
  | some r =>
      have hname : r.name = .text wanted := by simpa using List.find?_some hfind
      refine ⟨mem_visible_iff.mp (List.mem_of_find?_eq_some hfind), wanted, hname, rfl, ?_⟩
      intro q other _ _ haccepts hne
      exact absurd haccepts hne
  | none =>
      intro q own hq hown haccepts
      have hnone := List.find?_eq_none.mp hfind q (mem_visible_iff.mpr hq)
      rw [hown, show own = wanted from haccepts] at hnone
      simp at hnone

/-- Sorting the names that pass a test by values puts the first of them in front. -/
theorem finds_head?_orderBy {test : String → Bool} (htest : ∀ own, test own = true ↔ way.accepts own)
    {key : ProjectRow → List Cell}
    (hkey : ∀ r q own other, s.Offers mode r → s.Offers mode q → r.name = .text own →
      q.name = .text other → other ≠ own → Cell.listLe (key r) (key q) = true →
        way.before own other) :
    s.Finds mode way (orderBy key
      ((s.projects.filter (isVisible mode)).filter fun r => textSatisfies test r.name)).head? := by
  let rows := (s.projects.filter (isVisible mode)).filter fun r => textSatisfies test r.name
  change s.Finds mode way (orderBy key rows).head?
  have hmem : ∀ q own, s.Offers mode q → q.name = .text own → way.accepts own →
      q ∈ orderBy key rows := by
    intro q own hq hown haccepts
    have htests : textSatisfies test q.name = true := by
      rw [hown]
      exact (htest own).mpr haccepts
    exact (orderBy_perm key rows).mem_iff.mpr (List.mem_filter.mpr ⟨mem_visible_iff.mpr hq, htests⟩)
  cases hsorted : orderBy key rows with
  | nil =>
      intro q own hq hown haccepts
      have hq' := hmem q own hq hown haccepts
      rw [hsorted] at hq'
      cases hq'
  | cons r rest =>
      have hr : r ∈ rows := (orderBy_perm key rows).subset (by simp [hsorted])
      obtain ⟨hvisible, htests⟩ := List.mem_filter.mp hr
      obtain ⟨own, hown, haccepts⟩ := text_of_textSatisfies htests
      have hoffers := mem_visible_iff.mp hvisible
      refine ⟨hoffers, own, hown, (htest own).mp haccepts, fun q other hq hother haccepts' hne => ?_⟩
      -- every other name that is accepted stands behind the first one
      have hpairs := orderBy_pairwise key rows
      rw [hsorted, List.pairwise_cons] at hpairs
      have hq' := hmem q other hq hother haccepts'
      rw [hsorted, List.mem_cons] at hq'
      rcases hq' with rfl | hq'
      · rw [hown, Cell.text.injEq] at hother
        exact absurd hother.symm hne
      · exact hkey r q own other hoffers hq hown hother hne (hpairs.1 q hq')

theorem octets_lt_of_le {own other : String} (hle : (Cell.text own).le (.text other) = true)
    (hne : other ≠ own) : Text.octets own < Text.octets other := by
  rw [Cell.le, decide_eq_true_eq] at hle
  exact Text.octets_lt_octets.mpr (lt_of_le_of_ne hle (Ne.symm hne))

theorem finds_anyCase (wanted : String) :
    s.Finds mode (.anyCase wanted) (orderBy (fun r => [r.name])
      ((s.projects.filter (isVisible mode)).filter fun r =>
        textSatisfies (fun n => Text.foldAscii n = Text.foldAscii wanted) r.name)).head? := by
  refine finds_head?_orderBy (fun own => ?_) ?_
  · exact decide_eq_true_iff
  · intro r q own other _ _ hown hother hne hle
    rw [hown, hother, Cell.listLe_cons] at hle
    exact octets_lt_of_le hle.1 hne

/-- The number of characters of a name is its length. -/
theorem nameLength_eq {own : String} (hown : '\x00' ∉ own.toList) : nameLength own = own.length := by
  have hall : own.toList.takeWhile (· ≠ '\x00') = own.toList := by
    rw [List.takeWhile_eq_self_iff]
    intro c hc
    exact decide_eq_true fun heq => hown (heq ▸ hc)
  rw [nameLength, hall, String.length_toList]

theorem NamesProjects.finds_part (hnames : s.NamesProjects) (wanted : String) :
    s.Finds mode (.part wanted) (orderBy lengthAndName
      ((s.projects.filter (isVisible mode)).filter fun r =>
        textSatisfies (fun n => Text.contains (Text.foldAscii n) (Text.foldAscii wanted))
          r.name)).head? := by
  refine finds_head?_orderBy (fun own => Text.occursIn_iff _ _) ?_
  intro r q own other hr hq hown hother hne hle
  have hlength : ∀ {r : ProjectRow} {own : String}, s.Offers mode r → r.name = .text own →
      nameLength own = own.length := by
    intro r own hr hown
    obtain ⟨own', hown', hnul⟩ := hnames.isText r hr.1
    rw [hown, Cell.text.injEq] at hown'
    exact nameLength_eq (hown' ▸ hnul)
  simp only [lengthAndName, hown, hother, hlength hr hown, hlength hq hother] at hle
  rw [Cell.listLe_cons, Cell.le_integer, Cell.le_integer, Cell.listLe_cons, decide_eq_true_eq,
    decide_eq_true_eq] at hle
  -- the names themselves are compared where their lengths are equal
  rcases Nat.lt_or_ge own.length other.length with hlt | hge
  · exact .inl hlt
  · exact .inr ⟨by omega, octets_lt_of_le (hle.2 (by omega)).1 hne⟩

/-- A lookup gives what the ways of looking give, one after the other. -/
theorem NamesProjects.gives_projectRow? (hnames : s.NamesProjects) (wanted : String)
    (mode : ProjectLookup) : s.Gives mode (Way.all wanted mode) (s.projectRow? wanted mode) := by
  unfold projectRow?
  cases mode with
  | strict =>
      have hnothing : s.Gives .strict [] none := .nothing
      exact (finds_exact wanted).orElse ((finds_anyCase wanted).orElse hnothing)
  | fuzzy =>
      have hpart : s.Gives .fuzzy [.part wanted] _ := (hnames.finds_part wanted).orElse .nothing
      rw [show ∀ x : Option ProjectRow, x.orElse (fun _ => none) = x by
        intro x; cases x <;> rfl] at hpart
      exact (finds_exact wanted).orElse ((finds_anyCase wanted).orElse hpart)

/-- There is exactly one answer, which is the row that a name leads to. -/
theorem NamesProjects.gives_iff (hnames : s.NamesProjects) (wanted : String) (mode : ProjectLookup)
    (other : Option ProjectRow) :
    s.Gives mode (Way.all wanted mode) other ↔ other = s.projectRow? wanted mode := by
  have hgives := hnames.gives_projectRow? wanted mode
  constructor
  · exact hgives.unique hnames fun way hway a b => Way.before_asymm hway
  · rintro rfl
    exact hgives

theorem NamesProjects.perm (hnames : s.NamesProjects) (hperm : t.projects.Perm s.projects) :
    t.NamesProjects where
  isText r hr := hnames.isText r (hperm.subset hr)
  distinct := (hperm.map ProjectRow.name).nodup_iff.mpr hnames.distinct

theorem NamesProjects.projectRow?_perm (hnames : s.NamesProjects)
    (hperm : t.projects.Perm s.projects) (wanted : String) (mode : ProjectLookup) :
    t.projectRow? wanted mode = s.projectRow? wanted mode := by
  have hgives := (hnames.gives_projectRow? wanted mode).perm hperm
  exact (((hnames.perm hperm).gives_iff wanted mode _).mp hgives).symm

theorem label_of_ofLabel? {word : String} {status : ProjectStatus}
    (h : ProjectStatus.ofLabel? word = some status) : word = status.label := by
  unfold ProjectStatus.ofLabel? at h
  split at h
  · rename_i hword
    cases h
    exact hword
  · split at h
    · rename_i hword
      cases h
      exact hword
    · cases h

theorem label_injective {a b : ProjectStatus} (h : a.label = b.label) : a = b := by
  have hread := ofLabel?_label a
  rwa [h, ofLabel?_label, Option.some.injEq, eq_comm] at hread

/-- A project that is read has the name and the status of its row. -/
theorem decode_ok {r : ProjectRow} {p : Project} (h : r.decode = .ok p) :
    r.name = .text p.name ∧ r.status = .text p.status.label := by
  have htext : ∀ {index : Nat} {column text : String} {c : Cell},
      c.asText index column = .ok text → c = .text text := by
    intro index column text c hc
    cases c <;> cases hc
    rfl
  obtain ⟨typed, htyped, hdecode⟩ := bind_eq_ok h
  -- the second and the fifth of the six values of a row
  obtain ⟨_, -, htyped⟩ := bind_eq_ok htyped
  obtain ⟨name, hname, htyped⟩ := bind_eq_ok htyped
  obtain ⟨_, -, htyped⟩ := bind_eq_ok htyped
  obtain ⟨_, -, htyped⟩ := bind_eq_ok htyped
  obtain ⟨status, hstatus, htyped⟩ := bind_eq_ok htyped
  obtain ⟨_, -, htyped⟩ := bind_eq_ok htyped
  cases htyped
  obtain ⟨_, -, hdecode⟩ := bind_eq_ok hdecode
  simp only at hdecode
  split at hdecode
  · rename_i found hfound
    obtain ⟨_, hsame, hdecode⟩ := bind_eq_ok hdecode
    cases hsame
    obtain ⟨_, -, hdecode⟩ := bind_eq_ok hdecode
    cases hdecode
    exact ⟨htext hname, (htext hstatus).trans (congrArg Cell.text (label_of_ofLabel? hfound))⟩
  · cases hdecode

theorem findProject_of_blank {query : String} (hblank : Text.trim query = "") :
    s.findProject query mode = .ok none :=
  if_pos hblank

/-- A name that is not blank leads to the project in a row, if it leads to a row. -/
theorem findProject_of_name {query : String} (hname : Text.trim query ≠ "") :
    s.findProject query mode =
      match s.projectRow? (Text.trim query) mode with
      | some row => row.decode.map some
      | none => .ok none :=
  if_neg hname

/-- A fuzzy lookup finds active projects only, since it looks at no other rows. -/
theorem active_of_findProject {query : String} {p : Project}
    (hfound : s.findProject query .fuzzy = .ok (some p)) : p.status = .active := by
  by_cases hname : Text.trim query = ""
  · rw [findProject_of_blank hname] at hfound
    cases hfound
  · rw [findProject_of_name hname] at hfound
    cases hrow : s.projectRow? (Text.trim query) .fuzzy with
    | none =>
        rw [hrow] at hfound
        cases hfound
    | some row =>
        have hactive : row.status = .text ProjectStatus.active.label :=
          (mem_visible_iff.mp (mem_visible_of_projectRow? hrow)).2 rfl
        simp only [hrow] at hfound
        cases hdecode : row.decode with
        | error failure =>
            rw [hdecode] at hfound
            cases hfound
        | ok q =>
            rw [hdecode] at hfound
            cases hfound
            rw [(decode_ok hdecode).2, Cell.text.injEq] at hactive
            exact label_injective hactive

theorem NamesProjects.findProject_perm (hnames : s.NamesProjects)
    (hperm : t.projects.Perm s.projects) (query : String) (mode : ProjectLookup) :
    t.findProject query mode = s.findProject query mode := by
  unfold findProject
  simp only [hnames.projectRow?_perm hperm]

end

/-! ## The main statement -/

/-- Where the projects have names of their own, a lookup gives what the ways of looking for the
trimmed name give, and nothing for a blank name.  There is exactly one such answer, so that the order
in which the projects were registered does not matter, and a fuzzy lookup gives active projects
only. -/
theorem findProject_means {s : Store} (hnames : s.NamesProjects) (query : String)
    (mode : ProjectLookup) :
    (Text.trim query = "" → s.findProject query mode = .ok none) ∧
    (Text.trim query ≠ "" → ∃ found,
      (∀ other, s.Gives mode (Way.all (Text.trim query) mode) other ↔ other = found) ∧
      (found = none → s.findProject query mode = .ok none) ∧
      ∀ r ∈ found, s.findProject query mode = r.decode.map some ∧
        ∀ p, r.decode = .ok p → r.name = .text p.name ∧ r.status = .text p.status.label) ∧
    (∀ p, s.findProject query .fuzzy = .ok (some p) → p.status = .active) ∧
    ∀ t : Store, t.projects.Perm s.projects →
      t.findProject query mode = s.findProject query mode := by
  refine ⟨findProject_of_blank, fun hname => ?_, fun _ => active_of_findProject,
    fun t hperm => hnames.findProject_perm hperm query mode⟩
  refine ⟨s.projectRow? (Text.trim query) mode, hnames.gives_iff _ mode, fun hnone => ?_,
    fun r hr => ⟨?_, fun p hp => decode_ok hp⟩⟩
  · rw [findProject_of_name hname, hnone]
  · rw [findProject_of_name hname, Option.mem_def.mp hr]

/-- A fuzzy lookup passes over a project with exactly the name, which is inactive, and over a longer
name, for one with the name in another case. -/
theorem findProject_means_inactive :
    let row (id name status : String) : ProjectRow :=
      ⟨.text ("00000000-0000-0000-0000-00000000000" ++ id), .text name, .text "/d", .text "",
        .text status, .null⟩
    let s : Store := { empty with
      projects := [row "1" "demo-tools" "active", row "2" "Demo" "inactive",
        row "3" "DEMO" "active"] }
    s.NamesProjects ∧ Text.trim " Demo " = "Demo" ∧
      s.findProject " Demo " .fuzzy =
        .ok (some ⟨⟨BitVec.ofNat 128 3⟩, "DEMO", "/d", "", .active, none⟩) ∧
      ∃ found, (∀ other, s.Gives .fuzzy (Way.all "Demo" .fuzzy) other ↔ other = found) ∧
        (found = none → s.findProject " Demo " .fuzzy = .ok none) ∧
        ∀ r ∈ found, s.findProject " Demo " .fuzzy = r.decode.map some ∧
          ∀ p, r.decode = .ok p → r.name = .text p.name ∧ r.status = .text p.status.label := by
  intro row s
  have hnames : s.NamesProjects := by
    refine ⟨fun r hr => ?_, by unfold DistinctProjectNames; decide⟩
    simp only [s, List.mem_cons, List.not_mem_nil, or_false] at hr
    rcases hr with rfl | rfl | rfl
    · exact ⟨"demo-tools", rfl, by decide⟩
    · exact ⟨"Demo", rfl, by decide⟩
    · exact ⟨"DEMO", rfl, by decide⟩
  have htrim : Text.trim " Demo " = "Demo" := by decide
  obtain ⟨-, hfound, -, -⟩ := findProject_means hnames " Demo " .fuzzy
  rw [htrim] at hfound
  exact ⟨hnames, htrim, by decide +kernel, hfound (by decide)⟩

end FossilRecord.Store
