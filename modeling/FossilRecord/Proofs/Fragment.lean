import FossilRecord.Proofs.Source.Scan
import FossilRecord.Proofs.Store.Listing
import FossilRecord.Proofs.Store.RelatedFiles
import FossilRecord.Proofs.Text.Case

/-!
# Looking for a fragment of a name

Three searches take a fragment and look for the names that contain it in any case: the search of the
latest fossil, the related files of a project, and the search of the source files of a folder.  All
of them lower the case of the fragment and of the name, each for itself.

`verbatim_fragment` states what becomes of a name in which the fragment stands character for
character.  All three find it wherever the capital sigmas of the fragment end a word in the name as
they do in the fragment alone, and for a fragment whose sigmas some surroundings change there is a
name that none of them finds.
-/

namespace FossilRecord

open Store

/-- A store that a history leaves, and a query that leads to a project with a fossil. -/
structure Searchable (s : Store) (query : String) (project : Project) : Prop where
  history : ∃ uniqueSummaries uniqueSymbolNames steps,
    (∀ step ∈ steps, step.fresh.now.IsValid) ∧
      s = (blank uniqueSummaries uniqueSymbolNames).run steps
  leads : s.findProject query .strict = .ok (some project)
  fossil : s.fossilRows (Cell.uuid project.projectId) ≠ []

/-- Whether everything of a name is found by a fragment, whatever is stored or scanned. -/
structure FindsAll (fragment name : String) : Prop where
  /-- The search of the latest fossil gives all its symbols of the name. -/
  stored : ∀ {s query project}, Searchable s query project → ∃ latest listed found,
    s.latestFossil query = .ok (.found latest) ∧
      s.symbolsForFossil latest.fossilId = .ok (some listed) ∧
      s.searchSymbols query fragment = .ok (.found found) ∧
      found.filter (·.name = name) = listed.filter (·.name = name)
  /-- The files of the newest rows of the name are direct ones. -/
  related : ∀ {s query project}, Searchable s query project → ∃ files,
    RelatedFiles.resolve s query fragment = .ok (.found files) ∧
      ∀ j file, s.Current (Cell.uuid project.projectId) name j → j.symbol.filePath = .text file →
        file ∈ files.direct
  /-- The search of a folder gives all symbols of the name that a scan of it gives. -/
  live : ∀ {d folder path symbols}, Source.scan d folder path none = .ok symbols → ∃ found,
    Source.findSymbol d folder path fragment false = .ok found ∧
      found.filter (·.name = name) = symbols.filter (·.name = name)

/-- Whether nothing of a name is found by a fragment, whatever is stored or scanned. -/
structure FindsNone (fragment name : String) : Prop where
  stored : ∀ {s query project}, Searchable s query project → ∃ found,
    s.searchSymbols query fragment = .ok (.found found) ∧ ∀ x ∈ found, x.name ≠ name
  /-- What is direct is the file of a row of some other name. -/
  related : ∀ {s query project}, Searchable s query project → ∃ files,
    RelatedFiles.resolve s query fragment = .ok (.found files) ∧
      ∀ file ∈ files.direct, ∃ other j, other ≠ name ∧
        s.Current (Cell.uuid project.projectId) other j ∧ j.symbol.filePath = .text file
  live : ∀ {d folder path symbols}, Source.scan d folder path none = .ok symbols → ∃ found,
    Source.findSymbol d folder path fragment false = .ok found ∧ ∀ x ∈ found, x.name ≠ name

section

variable {fragment name : String}

/-! ## One search at a time -/

namespace Searchable

variable {s : Store} {query : String} {project : Project}

theorem exists_sound (h : Searchable s query project) : ∃ past, Sound past s := by
  obtain ⟨uniqueSummaries, uniqueSymbolNames, steps, hclock, rfl⟩ := h.history
  exact ⟨_, (Sound.blank uniqueSummaries uniqueSymbolNames).run hclock⟩

/-- A search for a fragment keeps the symbols of the latest fossil whose names contain it in any
case. -/
theorem searchSymbols_eq (h : Searchable s query project) (fragment : String) :
    ∃ latest listed, s.latestFossil query = .ok (.found latest) ∧
      s.symbolsForFossil latest.fossilId = .ok (some listed) ∧
      s.searchSymbols query fragment =
        .ok (.found (listed.filter fun x => (NameMatch.contains fragment).accepts x.name)) := by
  obtain ⟨past, hsound⟩ := h.exists_sound
  obtain ⟨latest, hlistings⟩ := hsound.searchesListings h.leads h.fossil
  exact ⟨latest, _, hlistings.readLatest,
    hlistings.readSymbols latest (List.mem_of_getLast? hlistings.latestIsLast),
    hlistings.searchSymbols fragment⟩

theorem resolve_eq (h : Searchable s query project) (fragment : String) :
    ∃ files, RelatedFiles.resolve s query fragment = .ok (.found files) ∧
      s.IsOneStep (Cell.uuid project.projectId) fragment files := by
  obtain ⟨past, hsound⟩ := h.exists_sound
  exact hsound.coherent.resolve_eq h.leads h.fossil fragment

end Searchable

theorem Source.findSymbol_eq {d : Disk} {folder : Disk.Place} {path : String}
    {symbols : List LiveSymbol} (hscan : scan d folder path none = .ok symbols)
    (fragment : String) : findSymbol d folder path fragment false =
      .ok (symbols.filter fun x => Text.contains (Text.lower x.name) (Text.lower fragment)) := by
  rw [findSymbol, hscan]
  rfl

/-! ## All searches -/

theorem filter_filter_of_imp {α : Type} {p q : α → Bool} (h : ∀ x, p x = true → q x = true)
    (xs : List α) : (xs.filter q).filter p = xs.filter p := by
  rw [List.filter_filter]
  refine List.filter_congr fun x _ => ?_
  cases hp : p x with
  | true => rw [h x hp, Bool.and_self]
  | false => rw [Bool.false_and]

theorem findsAll_of_contains (h : Text.contains (Text.lower name) (Text.lower fragment) = true) :
    FindsAll fragment name where
  stored hs := by
    obtain ⟨latest, listed, hlatest, hlisted, hsearch⟩ := hs.searchSymbols_eq fragment
    refine ⟨latest, listed, _, hlatest, hlisted, hsearch, filter_filter_of_imp ?_ _⟩
    intro x hx
    simpa [NameMatch.accepts, of_decide_eq_true hx] using h
  related hs := by
    obtain ⟨files, hresolve, hfiles⟩ := hs.resolve_eq fragment
    exact ⟨files, hresolve, fun j file hj hfile =>
      (hfiles.direct file).mpr ⟨j, ⟨name, h, hj⟩, hfile⟩⟩
  live hscan := by
    refine ⟨_, Source.findSymbol_eq hscan fragment, filter_filter_of_imp ?_ _⟩
    intro x hx
    rwa [of_decide_eq_true hx]

theorem findsNone_of_not_contains
    (h : Text.contains (Text.lower name) (Text.lower fragment) = false) :
    FindsNone fragment name where
  stored hs := by
    obtain ⟨latest, listed, -, -, hsearch⟩ := hs.searchSymbols_eq fragment
    refine ⟨_, hsearch, fun x hx hname => ?_⟩
    have haccepts := of_decide_eq_true (List.mem_filter.mp hx).2
    rw [NameMatch.accepts, hname, h] at haccepts
    cases haccepts
  related hs := by
    obtain ⟨files, hresolve, hfiles⟩ := hs.resolve_eq fragment
    refine ⟨files, hresolve, fun file hfile => ?_⟩
    obtain ⟨j, ⟨other, hother, hj⟩, hpath⟩ := (hfiles.direct file).mp hfile
    refine ⟨other, j, ?_, hj, hpath⟩
    rintro rfl
    rw [h] at hother
    cases hother
  live hscan := by
    refine ⟨_, Source.findSymbol_eq hscan fragment, fun x hx hname => ?_⟩
    have hcontains := (List.mem_filter.mp hx).2
    rw [hname, h] at hcontains
    cases hcontains

/-- A fragment finds every name in which it stands character for character and each of its capital
sigmas ends a word if and only if it does in the fragment alone, and so, if it has no capital sigma,
every name in which it stands.  If some surroundings change its sigmas, there is a name in which it
stands and which it does not find. -/
theorem verbatim_fragment (fragment : String) :
    (∀ name, Text.StandsIn fragment name → FindsAll fragment name) ∧
      ('Σ' ∉ fragment.toList → ∀ name, Text.Occurs fragment name → FindsAll fragment name) ∧
      ((∃ before after, ¬Text.KeepsSigmas before fragment.toList after) →
        ∃ name, Text.Occurs fragment name ∧ FindsNone fragment name) := by
  have hstands : ∀ name, Text.StandsIn fragment name → FindsAll fragment name :=
    fun name hname => findsAll_of_contains (Text.contains_lower_of_standsIn hname)
  refine ⟨hstands, ?_, ?_⟩
  · rintro hsigma name ⟨before, after, hname⟩
    exact hstands name ⟨before, after, hname, Text.keepsSigmas_of_notMem hsigma before after⟩
  · rintro ⟨before, after, hchanged⟩
    have hnot : ¬∀ name, Text.Occurs fragment name →
        Text.contains (Text.lower name) (Text.lower fragment) = true :=
      fun hfound => hchanged ((Text.keepsSigmas_iff fragment).mpr hfound before after)
    simp only [not_forall, Bool.not_eq_true] at hnot
    obtain ⟨name, hoccurs, hmissed⟩ := hnot
    exact ⟨name, hoccurs, findsNone_of_not_contains hmissed⟩

/-- The sigma ends a word in the fragment, and in the name as well, where no letter follows it.
There are names in which it does not, and without it the fragment finds those too. -/
theorem verbatim_fragment_final_sigma :
    let fresh (first : Nat) : Fresh :=
      ⟨fun k => ⟨BitVec.ofNat 128 (first + k)⟩, ⟨2024, 2, 29, 12, 0, 0, 0⟩⟩
    let raw := "\x7b\"symbols\":[\x7b\"name\":\"ΑΣ_Α\",\"file\":\"a.py\"\x7d]\x7d"
    let s := (blank false false).run [⟨fresh 1, .register ⟨"demo", "/d", "rust"⟩⟩,
      ⟨fresh 2, .ingest "demo" raw none⟩]
    (∃ latest listed found,
      s.latestFossil "demo" = .ok (.found latest) ∧
      s.symbolsForFossil latest.fossilId = .ok (some listed) ∧
      s.searchSymbols "demo" "ΑΣ" = .ok (.found found) ∧
      found.filter (·.name = "ΑΣ_Α") = listed.filter (·.name = "ΑΣ_Α")) ∧
    FindsAll "Α" "ΑΣΑ" ∧ ∃ name, Text.Occurs "ΑΣ" name ∧ FindsNone "ΑΣ" name := by
  intro fresh raw s
  have hstands : Text.StandsIn "ΑΣ" "ΑΣ_Α" := by
    refine ⟨[], ['_', 'Α'], by decide, fun front back hsplit => ?_⟩
    rcases front with _ | ⟨a, _ | ⟨b, front⟩⟩
    · simp at hsplit
    · simp only [String.toList, List.cons_append, List.nil_append] at hsplit
      cases hsplit
      decide +kernel
    · simp at hsplit
  have hsearchable : Searchable s "demo"
      ⟨⟨BitVec.ofNat 128 1⟩, "demo", "/d", "rust", .active, some ⟨2024, 2, 29, 12, 0, 0, 0⟩⟩ := by
    refine ⟨⟨false, false, _, ?_, rfl⟩, ?_, ?_⟩
    · decide
    · unfold s raw fresh
      decide +kernel
    · unfold s raw fresh
      decide +kernel
  have hchanged : ¬Text.KeepsSigmas [] "ΑΣ".toList ['Α'] := by
    intro hkeeps
    have hsame := hkeeps ['Α'] [] rfl
    revert hsame
    decide +kernel
  exact ⟨((verbatim_fragment "ΑΣ").1 "ΑΣ_Α" hstands).stored hsearchable,
    (verbatim_fragment "Α").2.1 (by decide) "ΑΣΑ" ⟨[], ['Σ', 'Α'], by decide⟩,
    (verbatim_fragment "ΑΣ").2.2 ⟨[], ['Α'], hchanged⟩⟩

/-- The sigma ends a word in the fragment and not in the name, so that none of the searches finds
the name by the fragment. -/
theorem final_sigma_missed :
    let fresh (first : Nat) : Fresh :=
      ⟨fun k => ⟨BitVec.ofNat 128 (first + k)⟩, ⟨2024, 2, 29, 12, 0, 0, 0⟩⟩
    let raw := "\x7b\"symbols\":[\x7b\"name\":\"ΑΣΑ\",\"file\":\"a.py\"\x7d]\x7d"
    let s := (blank false false).run [⟨fresh 1, .register ⟨"demo", "/d", "rust"⟩⟩,
      ⟨fresh 2, .ingest "demo" raw none⟩]
    let d : Disk := ⟨[(["src"], .folder),
      (["src", "a.py"], .file (Text.octets "def ΑΣΑ():\n    pass\n"))]⟩
    Text.Occurs "ΑΣ" "ΑΣΑ" ∧
      ((s.symbolsForFossil ((fresh 2).id 0)).map (·.map (·.map Symbol.name)) = .ok (some ["ΑΣΑ"]) ∧
        (s.searchSymbols "demo" "ΑΣ").map (·.map (·.map Symbol.name)) = .ok (.found [])) ∧
      (RelatedFiles.resolve s "demo" "ΑΣΑ" = .ok (.found ⟨["a.py"], [], ["a.py"]⟩) ∧
        RelatedFiles.resolve s "demo" "ΑΣ" = .ok (.found ⟨[], [], []⟩)) ∧
      Source.scan d [] "src" none = .ok [⟨"a.py", 1, .function, "ΑΣΑ", some "()"⟩] ∧
        Source.findSymbol d [] "src" "ΑΣ" false = .ok [] := by
  intro fresh raw s d
  refine ⟨⟨[], ['Α'], by decide⟩, ?_⟩
  unfold s raw fresh d
  decide +kernel

end

end FossilRecord
