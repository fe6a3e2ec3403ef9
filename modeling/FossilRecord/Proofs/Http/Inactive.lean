import FossilRecord.Proofs.Http.Addressing
import FossilRecord.Proofs.Http.Answering
import FossilRecord.Proofs.Store.Inactive

/-!
# Inactive projects are not shown

The places that show fossils and symbols look a project up twice: fuzzily, among the active ones
alone, and then strictly under the name that was found, among all of them.  What was ingested for an
inactive project is shown by none of them as long as the second look does not lead to it, which is so
for every active project with a plain name.

`inactive_hidden` says so of two stores that differ in one inactive project alone.  The condition is
needed: `inactive_shown` has an active project whose name has a blank in front of it, and its second
look leads to an inactive one without the blank.
-/

namespace FossilRecord.Http

open Store (Sound IsPlain DifferIn Step)

section

variable {past more : List Step} {s t : Store} {q : Question}

/-- A name that leads to no active project is refused. -/
theorem Question.read_of_unresolved (hfound : s.findProject q.name .fuzzy = .ok none)
    (hroute : q.route.asksAgain = true) (around : Surroundings) :
    q.read s around = .ofRefusal (noProject q.name) := by
  have hresolve := resolveProject_of_unknown hfound
  unfold Question.read
  cases hq : q.route with
  | fossil _ | history _ | changes _ | context _ | related _ =>
      simp only [latestFossil, fossilHistory, recentChanges, symbolContext, relatedFiles, hresolve,
        bind, Except.bind]
      rfl
  | projects | fossils _ | lookup _ | insights | analysis =>
      simp [hq, Route.asksAgain] at hroute

/-- What was ingested for an inactive project does not show in an answer, unless the name of the
project that is found leads to it. -/
theorem Question.read_of_differIn {id : Uuid} (h : DifferIn id s t) (hs : Sound past s)
    (ht : Sound more t) (hinactive : s.IsInactive id) (hroute : q.route.asksAgain = true)
    (hother : ∀ p, s.findProject q.name .fuzzy = .ok (some p) → ¬s.LeadsTo p.name id)
    (around : Surroundings) : q.read s around = q.read t around := by
  have hsame : t.findProject q.name .fuzzy = s.findProject q.name .fuzzy :=
    h.findProject_eq hs.legible fun p hp => hs.legible.projectId_ne_of_fuzzy hinactive hp
  obtain ⟨found, hfound⟩ := hs.legible.findProject_total q.name .fuzzy
  cases found with
  | none =>
      have hfound' := hsame.trans hfound
      rw [Question.read_of_unresolved hfound hroute, Question.read_of_unresolved hfound' hroute]
  | some p =>
      have hreads : Store.ReadsAlike p.name s t := h.readsAlike hs ht (hother p hfound)
      exact Question.read_congr hfound (hsame.trans hfound) hreads hroute around

/-- A plain name of an active project does not lead to an inactive one. -/
theorem not_leadsTo_of_isPlain {id : Uuid} (h : Sound past s) (hinactive : s.IsInactive id)
    {name : String} {p : Project} (hfuzzy : s.findProject name .fuzzy = .ok (some p))
    (hplain : IsPlain p.name) : ¬s.LeadsTo p.name id := by
  rintro ⟨again, hagain, hid⟩
  obtain ⟨-, hrow, -⟩ := h.legible.row_of_findProject hfuzzy
  obtain ⟨own, hown, hsame⟩ := h.findProject_again (Store.mem_of_projectRow? hrow) hplain
  rw [hown] at hagain
  cases hagain
  exact h.legible.projectId_ne_of_fuzzy hinactive hfuzzy (hsame.symm.trans hid)

/-- The project in the path of a request is the one that its question names. -/
theorem Question.project?_of_asksAgain {r : Request} (h : Question.ofRequest r = .ok q)
    (hroute : q.route.asksAgain = true) : r.project? = some q.name := by
  rw [← Question.logEntry_projectName h]
  unfold Question.logEntry
  cases hq : q.route with
  | fossil _ | history _ | changes _ | context _ | related _ => rfl
  | projects | fossils _ | lookup _ | insights | analysis =>
      simp [hq, Route.asksAgain] at hroute

theorem Route.asksAgain_reads {route : Route} (h : route.asksAgain = true) :
    route ≠ .analysis ∧ ∀ written, route ≠ .fossils written := by
  constructor
  · rintro rfl
    cases h
  · rintro written rfl
    cases h

end

/-- Two histories may leave stores that differ in what was ingested for one project alone, and that
project is inactive.  Then every request at a place that shows fossils or symbols of a project is
answered in the same way, if the project that it finds has a plain name, or a name that does not lead
to the inactive project. -/
theorem inactive_hidden (uniqueSummaries uniqueSymbolNames : Bool) (steps others : List Step)
    (hclock : ∀ step ∈ steps ++ others, step.fresh.now.IsValid) (id : Uuid)
    (hdiffer : DifferIn id ((Store.blank uniqueSummaries uniqueSymbolNames).run steps)
      ((Store.blank uniqueSummaries uniqueSymbolNames).run others))
    (hinactive : ((Store.blank uniqueSummaries uniqueSymbolNames).run steps).IsInactive id)
    (r : Request) (route : Route)
    (hpath : Route.ofPath? (Target.ofString r.target).path = some route)
    (hroute : route.asksAgain = true)
    (hplain : ∀ name p, r.project? = some name →
      ((Store.blank uniqueSummaries uniqueSymbolNames).run steps).findProject name .fuzzy =
        .ok (some p) →
      IsPlain p.name ∨
        ¬((Store.blank uniqueSummaries uniqueSymbolNames).run steps).LeadsTo p.name id)
    (fresh other : Fresh) (around : Surroundings) :
    (respond ((Store.blank uniqueSummaries uniqueSymbolNames).run steps) fresh around r).1 =
      (respond ((Store.blank uniqueSummaries uniqueSymbolNames).run others) other around r).1 := by
  have hblank := Sound.blank uniqueSummaries uniqueSymbolNames
  have hs := hblank.run fun step hstep => hclock step (List.mem_append_left others hstep)
  have ht := hblank.run fun step hstep => hclock step (List.mem_append_right steps hstep)
  apply respond_congr
  intro q hreached
  have hsame : q.route = route :=
    Option.some.inj ((Question.ofRequest_ok hreached).place.symm.trans hpath)
  rw [← hsame] at hroute
  obtain ⟨hanalysis, hreads⟩ := Route.asksAgain_reads hroute
  rw [Question.answer_of_read hanalysis hreads, Question.answer_of_read hanalysis hreads]
  apply Question.read_of_differIn hdiffer hs ht hinactive hroute
  intro p hfuzzy
  rcases hplain q.name p (Question.project?_of_asksAgain hreached hroute) hfuzzy with hp | hp
  · exact not_leadsTo_of_isPlain hs hinactive hfuzzy hp
  · exact hp

/-- A project is inactive and another one, with a longer name, is active.  What is ingested for the
inactive one is not shown under a part of both names. -/
theorem inactive_hidden_part :
    let fresh (first : Nat) : Fresh :=
      ⟨fun k => ⟨BitVec.ofNat 128 (first + k)⟩, ⟨2024, 2, 29, 12, 0, 0, 0⟩⟩
    let steps : List Step := [⟨fresh 1, .register ⟨"demo", "/a", ""⟩⟩,
      ⟨fresh 2, .register ⟨"demo 2", "/b", ""⟩⟩, ⟨fresh 3, .setStatus "demo" .inactive⟩]
    let others : List Step := steps ++ [⟨fresh 4, .ingest "demo" "\x7b\x7d" none⟩]
    let r : Request := ⟨"GET", "/projects/em/changes", []⟩
    (respond ((Store.blank false false).run steps) (fresh 5) ⟨.empty, []⟩ r).1 =
      (respond ((Store.blank false false).run others) (fresh 6) ⟨.empty, []⟩ r).1 := by
  intro fresh steps others r
  apply inactive_hidden false false steps others (by decide) ((fresh 1).id 0)
    ⟨by decide +kernel, by decide +kernel, by decide +kernel⟩ (by decide +kernel) r
    (.changes "em") (by decide +kernel) rfl
  intro name p hname hfuzzy
  have hem : r.project? = some "em" := by decide +kernel
  have hfound : ((Store.blank false false).run steps).findProject "em" .fuzzy =
      .ok (some ⟨(fresh 2).id 0, "demo 2", "/b", "", .active, none⟩) := by decide +kernel
  rw [hem] at hname
  cases hname
  rw [hfound] at hfuzzy
  cases hfuzzy
  left
  decide

/-- A name with a blank in front of it is registered beside the same name without the blank, and the
latter project is made inactive.  What is ingested for that one is shown under the name of the
former. -/
theorem inactive_shown :
    let fresh (first : Nat) : Fresh :=
      ⟨fun k => ⟨BitVec.ofNat 128 (first + k)⟩, ⟨2024, 2, 29, 12, 0, 0, 0⟩⟩
    let steps : List Step := [⟨fresh 1, .register ⟨" demo", "/a", ""⟩⟩,
      ⟨fresh 2, .register ⟨"demo", "/b", ""⟩⟩, ⟨fresh 3, .setStatus "demo" .inactive⟩]
    let s := Store.empty.run steps
    let t := s.run [⟨fresh 4, .ingest "demo" "\x7b\"recent_changes\":\"secret\"\x7d" none⟩]
    let r : Request := ⟨"GET", "/projects/demo/changes", []⟩
    DifferIn ((fresh 2).id 0) s t ∧ s.IsInactive ((fresh 2).id 0) ∧
      t.IsInactive ((fresh 2).id 0) ∧ (respond s (fresh 5) ⟨.empty, []⟩ r).1.status = 404 ∧
      (respond t (fresh 5) ⟨.empty, []⟩ r).1.status = 200 :=
  ⟨⟨by decide +kernel, by decide +kernel, by decide +kernel⟩, by decide +kernel,
    by decide +kernel, by decide +kernel, by decide +kernel⟩

end FossilRecord.Http
