import FossilRecord.Payload
import FossilRecord.Proofs.Fossil
import FossilRecord.Proofs.Json.Fields
import FossilRecord.Proofs.Symbol

/-!
# What payloads hold

A payload that was read holds only what can be stored and read again: numbers of lines of 64 bits,
kinds that their labels name, and relationships that are an object or a text that holds one.
-/

namespace FossilRecord

/-- Relationships that can be stored: an object that can be written and read again, or a text that
holds an object. -/
inductive Relationships.IsKept : Json → Prop
  | object {fields : List (String × Json)} (h : Json.Fits Json.depthLimit (.object fields)) :
      IsKept (.object fields)
  | text {s : String} {fields : List (String × Json)} (h : Json.parse s = .ok (.object fields)) :
      IsKept (.text s)

/-- A symbol that can be stored and read again. -/
structure PayloadSymbol.IsSound (p : PayloadSymbol) : Prop where
  kind : p.kind.IsNamed
  relationships : ∀ j ∈ p.relationships, Relationships.IsKept j

namespace Payload

/-! ## Numbers of lines -/

theorem clampInt64_le (n : Int) : clampInt64 n ≤ Json.maxInt64 := by
  have hbounds : Json.minInt64 ≤ Json.maxInt64 := by decide
  unfold clampInt64
  split_ifs <;> omega

theorem optInt_le {j : Option Json} {n : Int} (h : optInt j = some n) : n ≤ Json.maxInt64 := by
  unfold optInt at h
  split at h
  · cases h
    exact clampInt64_le _
  · split at h
    · cases h
      exact clampInt64_le _
    · cases h
  · obtain ⟨m, -, hm⟩ := Option.bind_eq_some_iff.mp h
    split at hm
    · rename_i hrange
      cases hm
      exact hrange.2
    · cases hm
  · cases h

/-- A count of lines is one that 64 bits with a sign hold. -/
theorem lineCount_lt_of_fileEntry {j : Json} {e : FileTreeEntry} (h : fileEntry j = .ok e) :
    ∀ n ∈ e.lineCount, n < 2 ^ 63 := by
  unfold fileEntry at h
  split at h
  · cases h
    simp
  · cases h
    intro n hn
    obtain ⟨m, hm, hn⟩ := Option.bind_eq_some_iff.mp hn
    have hle := optInt_le hm
    have hmax : Json.maxInt64 = 2 ^ 63 - 1 := rfl
    split at hn
    · cases hn
      omega
    · cases hn
  · cases h

theorem isCounted_of_fileEntry {j : Json} {e : FileTreeEntry} (h : fileEntry j = .ok e) :
    e.IsCounted :=
  fun n hn => (lineCount_lt_of_fileEntry h n hn).trans (by decide)

/-! ## Symbols -/

theorem isKept_of_check {j : Json} (hfits : Json.Fits Json.depthLimit j)
    (h : checkRelationships j = .ok ()) : Relationships.IsKept j := by
  unfold checkRelationships at h
  simp only at h
  split at h
  · exact .object hfits
  · split at h
    · rename_i hparse
      exact .text hparse
    · cases h
  · cases h

theorem isKept_of_symbolRelationships {name : String} {fields : List (String × Json)} {j : Json}
    (hfits : Json.Fits Json.depthLimit (.object fields))
    (h : symbolRelationships name fields = .ok (some j)) : Relationships.IsKept j := by
  unfold symbolRelationships at h
  split at h
  · cases h
  · cases h
  · rename_i k _ hlookup
    split at h
    · rename_i hcheck
      cases h
      exact isKept_of_check (hfits.lookup hlookup) hcheck
    · cases h

theorem isSound_of_symbol {index : Nat} {j : Json} (hfits : Json.Fits Json.depthLimit j)
    {p : PayloadSymbol} (h : symbol index j = .ok (some p)) : p.IsSound := by
  unfold symbol at h
  split at h
  · split at h
    · cases h
    · obtain ⟨relationships, hrelationships, h⟩ := bind_eq_ok h
      cases h
      refine ⟨?_, ?_⟩
      · simp only
        split
        · exact SymbolType.isNamed_ofLabel _
        · exact SymbolType.isNamed_function
      · intro k hk
        rw [Option.mem_def] at hk
        subst hk
        exact isKept_of_symbolRelationships hfits hrelationships
  · cases h

theorem isSound_of_symbolEntries {index : Nat} {items : List Json}
    (hfits : ∀ j ∈ items, Json.Fits Json.depthLimit j) {symbols : List PayloadSymbol}
    (h : symbolEntries index items = .ok symbols) : ∀ p ∈ symbols, p.IsSound := by
  induction items generalizing index symbols with
  | nil =>
      cases h
      simp
  | cons j items ih =>
      rw [symbolEntries] at h
      obtain ⟨first, hfirst, h⟩ := bind_eq_ok h
      obtain ⟨more, hmore, h⟩ := bind_eq_ok h
      cases h
      intro p hp
      rcases List.mem_append.mp hp with hp | hp
      · rw [Option.mem_toList] at hp
        rw [Option.mem_def.mp hp] at hfirst
        exact isSound_of_symbol (hfits j (by simp)) hfirst
      · exact ih (fun k hk => hfits k (by simp [hk])) hmore p hp

/-! ## The whole payload -/

/-- What a payload is read from: lists that are found under three keys, and four texts. -/
structure ReadFrom (root : List (String × Json)) (q : Payload) : Prop where
  symbols : ∃ items, listField root "symbols" = .ok items ∧ symbolEntries 0 items = .ok q.symbols
  dependencies : ∃ items, listField root "dependencies" = .ok items ∧
    items.mapM dependency = .ok q.dependencies
  fileTree : ∃ items, listField root "file_tree" = .ok items ∧
    items.mapM fileEntry = .ok q.fileTree
  summary : q.summary = textField root "summary"
  architecture : q.architecture = textField root "architecture"
  recentChanges : q.recentChanges = textField root "recent_changes"
  knownIssues : q.knownIssues = textField root "known_issues"

theorem readFrom_of_ofFields {root : List (String × Json)} {q : Payload}
    (h : ofFields root = .ok q) : ReadFrom root q := by
  rw [ofFields] at h
  -- the steps in the order in which a payload is checked
  obtain ⟨symbolItems, hsymbolItems, h⟩ := bind_eq_ok h
  obtain ⟨symbols, hsymbols, h⟩ := bind_eq_ok h
  obtain ⟨dependencyItems, hdependencyItems, h⟩ := bind_eq_ok h
  obtain ⟨dependencies, hdependencies, h⟩ := bind_eq_ok h
  obtain ⟨fileItems, hfileItems, h⟩ := bind_eq_ok h
  obtain ⟨fileTree, hfileTree, h⟩ := bind_eq_ok h
  cases h
  exact ⟨⟨_, hsymbolItems, hsymbols⟩, ⟨_, hdependencyItems, hdependencies⟩,
    ⟨_, hfileItems, hfileTree⟩, rfl, rfl, rfl, rfl⟩

/-- A payload is read from the fields of an object. -/
theorem readFrom_of_parse {raw : String} {q : Payload} (h : parse raw = .ok q) :
    ∃ root, Json.parse (Fence.strip raw) = .ok (.object root) ∧ ReadFrom root q := by
  unfold parse at h
  split at h
  · cases h
  · rename_i root hroot
    exact ⟨root, hroot, readFrom_of_ofFields h⟩
  · cases h

theorem fits_of_listField {root : List (String × Json)}
    (hfits : Json.Fits Json.depthLimit (.object root)) {key : String} {items : List Json}
    (h : listField root key = .ok items) : ∀ j ∈ items, Json.Fits Json.depthLimit j := by
  unfold listField at h
  split at h
  · cases h
    simp
  · cases h
    simp
  · rename_i hlookup
    cases h
    exact fun j hj => (hfits.lookup hlookup).item hj
  · cases h

/-- Everything in a payload that was read can be stored and read again. -/
theorem sound_of_parse {raw : String} {q : Payload} (h : parse raw = .ok q) :
    (∀ e ∈ q.fileTree, e.IsCounted) ∧ ∀ p ∈ q.symbols, p.IsSound := by
  obtain ⟨root, hroot, hread⟩ := readFrom_of_parse h
  have hfits := Json.fits_of_parse hroot
  obtain ⟨items, hitems, hsymbols⟩ := hread.symbols
  obtain ⟨files, -, hfileTree⟩ := hread.fileTree
  refine ⟨fun e he => ?_, isSound_of_symbolEntries (fits_of_listField hfits hitems) hsymbols⟩
  obtain ⟨j, -, hj⟩ := exists_of_mem_mapM hfileTree he
  exact isCounted_of_fileEntry hj

end Payload

end FossilRecord
