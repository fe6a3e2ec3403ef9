import FossilRecord.Http.Serve
import FossilRecord.Proofs.Store.Addressing

/-!
# Projects that are looked up twice

Some tools find a project fuzzily and then ask the store about it under its own name.  A project with
a plain name is what its own name leads to, so such a tool answers from the rows of the project that
it found.

`registered_addresses` gathers what a registered name leads to.  A name is trimmed when it is looked
up but not when it is registered, so it does not address its project if it is not plain:
`registered_with_blank` is a project whose name leads to another one.
-/

namespace FossilRecord

namespace Store

/-- A project that can be read is found again under its own name, if that is plain. -/
theorem Sound.findProject_again {past : List Step} {s : Store} (h : Sound past s) {p : Project}
    (hp : projectRow p ∈ s.projects) (hplain : IsPlain p.name) :
    ∃ q, s.findProject p.name .strict = .ok (some q) ∧ q.projectId = p.projectId := by
  obtain ⟨q, hrow, hfound⟩ := h.findProject_self hp rfl hplain
  have hid : Cell.uuid p.projectId = Cell.uuid q.projectId := congrArg ProjectRow.projectId hrow
  exact ⟨q, hfound, (Uuid.toString_injective (Cell.text.inj hid)).symm⟩

/-- The section of a project with a plain name is written from its own rows. -/
theorem Sound.section_only {past : List Step} {s : Store} (h : Sound past s) {r : ProjectRow}
    (hr : r ∈ s.projects) {p : Project} (hread : r.decode = .ok p) (hplain : IsPlain p.name) :
    Corpus.sectionOf (s.only p.projectId) p = Corpus.sectionOf s p := by
  obtain ⟨q, rfl, hq⟩ := h.legible.projects r hr
  rw [decode_projectRow hq] at hread
  cases hread
  obtain ⟨again, hfound, hid⟩ := h.findProject_again hr hplain
  rw [← hid]
  exact h.sectionOf_only hfound rfl

end Store

namespace Http

open Store (Sound IsPlain Cell Step projectRow)

/-- Whether a tool asks the store about a project under the name of the one that it found. -/
def Route.asksAgain : Route → Bool
  | .fossil _ => true
  | .history _ => true
  | .changes _ => true
  | .context _ => true
  | .related _ => true
  | _ => false

section

variable {past : List Step} {s : Store} {name : String} {p : Project}

theorem resolveProject_eq (hfound : s.findProject name .fuzzy = .ok (some p)) :
    resolveProject s name = .ok p := by
  rw [resolveProject, hfound]
  rfl

theorem resolveProject_of_unknown (hfound : s.findProject name .fuzzy = .ok none) :
    resolveProject s name = .error (noProject name) := by
  rw [resolveProject, hfound]
  rfl

section

variable {t : Store}

/-- The latest fossil is shown with the symbols of a fossil of the same project. -/
theorem latestFossil_congr (hs : s.findProject name .fuzzy = .ok (some p))
    (ht : t.findProject name .fuzzy = .ok (some p)) (h : Store.ReadsAlike p.name s t)
    (withTree withSymbols : Bool) :
    latestFossil s name withTree withSymbols = latestFossil t name withTree withSymbols := by
  rw [latestFossil, latestFossil, resolveProject_eq hs, resolveProject_eq ht]
  simp only [bind, Except.bind]
  rw [← h.latest]
  cases hlatest : s.latestFossil p.name with
  | error failure => rfl
  | ok l =>
      cases l with
      | found latest =>
          simp only [fromStore, found]
          rw [h.shown latest hlatest]
      | projectNotFound missing => rfl
      | noFossil missing => rfl

/-- A tool that looks a project up twice answers alike in two stores where it finds the same project
and all reads of its name are alike. -/
theorem Question.read_congr {q : Question} (hs : s.findProject q.name .fuzzy = .ok (some p))
    (ht : t.findProject q.name .fuzzy = .ok (some p)) (h : Store.ReadsAlike p.name s t)
    (hroute : q.route.asksAgain = true) (around : Surroundings) :
    q.read s around = q.read t around := by
  have hresolve := resolveProject_eq hs
  have hresolve' := resolveProject_eq ht
  unfold Question.read
  cases hq : q.route with
  | fossil _ =>
      simp only
      rw [latestFossil_congr hs ht h]
  | history _ => simp only [fossilHistory, hresolve, hresolve', bind, Except.bind, h.history]
  | changes _ => simp only [recentChanges, hresolve, hresolve', bind, Except.bind, h.latest]
  | context _ =>
      simp only [symbolContext, hresolve, hresolve', bind, Except.bind, Store.searchSymbols,
        h.symbols]
  | related _ => simp only [relatedFiles, hresolve, hresolve', bind, Except.bind, h.related]
  | projects | fossils _ | lookup _ | insights | analysis =>
      simp [hq, Route.asksAgain] at hroute

end

/-- A tool that looks a project up twice answers from the rows of the project that it found, if the
name of that is plain. -/
theorem Question.read_only (h : Sound past s) {q : Question}
    (hfuzzy : s.findProject q.name .fuzzy = .ok (some p)) (hplain : IsPlain p.name)
    (hroute : q.route.asksAgain = true) (around : Surroundings) :
    q.read (s.only p.projectId) around = q.read s around := by
  obtain ⟨-, hrow, -⟩ := h.legible.row_of_findProject hfuzzy
  obtain ⟨again, hfound, hid⟩ :=
    h.findProject_again (Store.mem_of_projectRow? hrow) hplain
  have halike := h.readsAlike_only hfound
  rw [hid] at halike
  exact Question.read_congr (h.findProject_only hfuzzy) hfuzzy halike hroute around

end

/-! ## What a registered name leads to -/

/-- Whether all that is shown under a plain name is that of the project which has the name. -/
structure ShowsOwn (s : Store) : Prop where
  addressed : ∀ r ∈ s.projects, ∀ p, r.decode = .ok p → IsPlain p.name →
    s.Addresses p.name p.projectId
  sections : ∀ r ∈ s.projects, ∀ p, r.decode = .ok p → IsPlain p.name →
    Corpus.sectionOf (s.only p.projectId) p = Corpus.sectionOf s p
  tools : ∀ (q : Question) (p : Project) (around : Surroundings), q.route.asksAgain = true →
    s.findProject q.name .fuzzy = .ok (some p) → IsPlain p.name →
    q.read (s.only p.projectId) around = q.read s around

theorem showsOwn_of_sound {past : List Step} {s : Store} (h : Sound past s) : ShowsOwn s where
  addressed := by
    intro r hr p hread hplain
    obtain ⟨q, rfl, hq⟩ := h.legible.projects r hr
    rw [Store.decode_projectRow hq] at hread
    cases hread
    exact h.addresses hr rfl hplain rfl
  sections _ hr _ hread hplain := h.section_only hr hread hplain
  tools _ _ around hroute hfuzzy hplain := Question.read_only h hfuzzy hplain hroute around

/-- From its registration on, whatever else is written, a project is addressed by the name that it
was registered with if that name is plain, and what is shown under a plain name is that project's.
A name that is not plain never leads strictly to the project that was registered with it. -/
theorem registered_addresses (uniqueSummaries uniqueSymbolNames : Bool) (steps more : List Step)
    (fresh : Fresh) (input : NewProject) (project : Project)
    (hclock : ∀ step ∈ steps ++ ⟨fresh, .register input⟩ :: more, step.fresh.now.IsValid)
    (hok : (((Store.blank uniqueSummaries uniqueSymbolNames).run steps).registerProject fresh
      input).1 = .ok project) :
    let t := (Store.blank uniqueSummaries uniqueSymbolNames).run
      (steps ++ ⟨fresh, .register input⟩ :: more)
    (IsPlain input.name → t.Addresses input.name project.projectId) ∧
      (¬IsPlain input.name → ∀ p, t.findProject input.name .strict = .ok (some p) →
        p.projectId ≠ project.projectId) ∧
      ShowsOwn t := by
  intro t
  let registered : Step := ⟨fresh, .register input⟩
  have hblank := Sound.blank uniqueSummaries uniqueSymbolNames
  have hs := hblank.run fun step hstep => hclock step (List.mem_append_left _ hstep)
  have ht : Sound (steps ++ registered :: more) t := hblank.run hclock
  obtain ⟨hmem, hname⟩ := hs.registered hok
  -- the project keeps its identifier and its name in all that is written after it
  have hextends : (((Store.blank uniqueSummaries uniqueSymbolNames).run steps).perform
      registered).Extends t := by
    have hafter := (hs.coherent.perform registered).run_extends more
    rwa [← Store.run_cons, ← Store.run_append] at hafter
  obtain ⟨r, hr, hkey⟩ :=
    List.mem_map.mp (hextends.projects.subset (List.mem_map_of_mem hmem))
  rw [Store.ProjectRow.key, Store.ProjectRow.key, Prod.mk.injEq] at hkey
  have hrow : r.name = .text input.name := hkey.2.trans (congrArg Cell.text hname)
  refine ⟨fun hplain => ht.addresses hr hrow hplain hkey.1, ?_, showsOwn_of_sound ht⟩
  intro hplain p hfound hid
  obtain ⟨-, hprow, -⟩ := ht.legible.row_of_findProject hfound
  have hsame : projectRow p = r := by
    apply ht.eq_of_projectId (Store.mem_of_projectRow? hprow) hr
    rw [hkey.1]
    exact congrArg Cell.uuid hid
  have hpname : Cell.text p.name = .text input.name := by
    rw [← hrow, ← hsame]
    rfl
  exact ht.name_ne_of_findProject hplain hfound (Cell.text.inj hpname)

/-- A project is registered with a plain name, and something is ingested for it. -/
theorem registered_addresses_plain :
    let fresh (first : Nat) : Fresh :=
      ⟨fun k => ⟨BitVec.ofNat 128 (first + k)⟩, ⟨2024, 2, 29, 12, 0, 0, 0⟩⟩
    let t := (Store.blank false false).run
      ([] ++ ⟨fresh 1, .register ⟨"demo", "/d", "rust"⟩⟩ ::
        [⟨fresh 2, .ingest "demo" "\x7b\"summary\":\"s\"\x7d" none⟩])
    t.Addresses "demo" ((fresh 1).id 0) ∧ ShowsOwn t := by
  intro fresh t
  obtain ⟨hplain, -, hshows⟩ := registered_addresses false false []
    [⟨fresh 2, .ingest "demo" "\x7b\"summary\":\"s\"\x7d" none⟩] (fresh 1)
    ⟨"demo", "/d", "rust"⟩ ⟨(fresh 1).id 0, "demo", "/d", "rust", .active, none⟩ (by decide)
    (by decide +kernel)
  exact ⟨hplain (by decide), hshows⟩

/-- A project is registered with a name that starts with a blank.  The name leads to the project
that has it without the blank, and what is ingested under it goes there. -/
theorem registered_with_blank :
    let fresh (first : Nat) : Fresh :=
      ⟨fun k => ⟨BitVec.ofNat 128 (first + k)⟩, ⟨2024, 2, 29, 12, 0, 0, 0⟩⟩
    let plain : Project := ⟨(fresh 1).id 0, "demo", "/a", "", .active, none⟩
    let s := (Store.empty.registerProject (fresh 1) ⟨"demo", "/a", ""⟩).2
    let t := (s.registerProject (fresh 2) ⟨" demo", "/b", ""⟩).2
    (s.registerProject (fresh 2) ⟨" demo", "/b", ""⟩).1 =
        .ok ⟨(fresh 2).id 0, " demo", "/b", "", .active, none⟩ ∧
      t.findProject " demo" .strict = .ok (some plain) ∧
      (t.ingest (fresh 3) " demo" "\x7b\x7d" none).1 =
        .ok (.stored ⟨(fresh 3).id 0, plain.projectId, "demo", 1, 0⟩) :=
  ⟨by decide +kernel, by decide +kernel, by decide +kernel⟩

end Http

end FossilRecord
