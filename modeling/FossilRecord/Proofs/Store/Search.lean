import FossilRecord.Proofs.Related
import FossilRecord.Proofs.Store.Finding

/-!
# Searching all fossils

In tables that hang together every symbol row can be read beside the row of its fossil.  A search
over all fossils of a project therefore succeeds, and finds the symbols of the project whose names
match, those of newer fossils first.
-/

namespace FossilRecord

/-- Whether a name is one that is looked for. -/
def NameMatch.accepts : NameMatch → String → Prop
  | .contains part, name => Text.contains (Text.lower name) (Text.lower part) = true
  | .exact wanted, name => name = wanted

namespace Store

/-! ## Reading one row -/

/-- Whether relationships that are read are the object that the text of a row holds. -/
def RelationshipsOf (c : Cell) (read : Option Json) : Prop :=
  (c = .null ∧ read = none) ∨
    ∃ text fields, c = .text text ∧ Json.parse text = .ok (.object fields) ∧
      read = some (.object fields)

/-- What is read of a row of a symbol beside the row of its fossil. -/
structure Reads (j : JoinedSymbol) (t : TypedSymbol) (x : Symbol) : Prop where
  typed : j.typed = .ok t
  decode : t.decode = .ok x
  name : t.name = x.name
  rowName : j.symbol.name = .text x.name
  rowFile : j.symbol.filePath = .text x.filePath
  rowVersion : j.fossil.version = .integer x.version
  rowRelationships : RelationshipsOf j.symbol.relationships x.relationships

theorem relationshipsOf_kept {received : Option Json}
    (h : ∀ j ∈ received, Relationships.IsKept j) :
    RelationshipsOf (.optText (received.map relationshipsText))
      (received.map keptRelationships) := by
  cases received with
  | none => exact .inl ⟨rfl, rfl⟩
  | some j =>
      have hj := h j rfl
      obtain ⟨fields, hfields⟩ := keptRelationships_object hj
      have hparse := parse_relationshipsText hj
      rw [hfields] at hparse
      exact .inr ⟨_, fields, rfl, hparse, congrArg some hfields⟩

theorem reads_symbolRow (fresh : Fresh) (projectId : Uuid) (place : Nat) {p : PayloadSymbol}
    (hp : p.IsSound) {f : FossilRow} {version : Int} (hversion : f.version = .integer version) :
    Reads ⟨symbolRow fresh projectId place p, f⟩ (typedSymbol fresh projectId version place p)
      (storedSymbol fresh projectId version place p) where
  typed := typed_symbolRow fresh projectId place p hversion
  decode := decode_typedSymbol fresh projectId version place hp
  name := rfl
  rowName := rfl
  rowFile := rfl
  rowVersion := hversion
  rowRelationships := relationshipsOf_kept hp.relationships

/-- Whether a row of a symbol stands in a project, beside the row of its fossil. -/
structure Stands (s : Store) (projectId : Cell) (j : JoinedSymbol) : Prop where
  symbol : j.symbol ∈ s.symbols
  project : j.symbol.projectId = projectId
  fossil : j.fossil ∈ s.fossils
  joins : j.fossil.fossilId = j.symbol.fossilId

/-- Every symbol row can be read beside the row of its fossil. -/
theorem Coherent.reads {past : List Step} {s : Store} (h : Coherent past s) {projectId : Cell}
    {j : JoinedSymbol} (hj : s.Stands projectId j) : ∃ t x, Reads j t x := by
  obtain ⟨r, f⟩ := j
  obtain ⟨hr, -, hf, hid⟩ := hj
  obtain ⟨_, _, _, _, _, payload, fresh, owner, _, hparse, hrows⟩ := h.payloads f hf
  -- the row is one of the rows of its fossil, and those are of a payload that was parsed
  have hmem : r ∈ s.symbolsOf f.fossilId :=
    List.mem_filter.mpr ⟨hr, decide_eq_true hid.symm⟩
  rw [hrows] at hmem
  obtain ⟨k, -, -, p, hp, rfl⟩ := mem_symbolRows fresh owner hmem
  have hversion : f.version ∈ versionsTo (s.fossilRows f.projectId).length := by
    have hfossil : f ∈ s.fossilRows f.projectId :=
      List.mem_filter.mpr ⟨hf, decide_eq_true rfl⟩
    exact h.versions f.projectId ▸ List.mem_map_of_mem hfossil
  obtain ⟨n, -, hn⟩ := List.mem_map.mp hversion
  exact ⟨_, _, reads_symbolRow fresh owner k ((Payload.sound_of_parse hparse).2 p hp) hn.symm⟩

/-! ## Reading many rows -/

/-- What a search gives for a row that it looks at. -/
def foundIn (test : TypedSymbol → Bool) (j : JoinedSymbol) : Option Symbol :=
  match j.typed with
  | .ok t => if test t then t.decode.toOption else none
  | .error _ => none

theorem foundIn_eq_some {test : TypedSymbol → Bool} {j : JoinedSymbol} {t : TypedSymbol}
    {x y : Symbol} (h : Reads j t x) : foundIn test j = some y ↔ test t = true ∧ x = y := by
  rw [foundIn, h.typed]
  simp only
  split
  · rename_i htest
    simp [h.decode, Except.toOption, htest]
  · rename_i htest
    simp [htest]

/-- If all rows can be read, a search reads those that pass its test. -/
theorem mapM_filter_decode {rows : List JoinedSymbol} (h : ∀ j ∈ rows, ∃ t x, Reads j t x)
    (test : TypedSymbol → Bool) :
    ∃ typed, rows.mapM JoinedSymbol.typed = .ok typed ∧
      (typed.filter test).mapM TypedSymbol.decode = .ok (rows.filterMap (foundIn test)) := by
  induction rows with
  | nil => exact ⟨[], rfl, rfl⟩
  | cons j rest ih =>
      obtain ⟨t, x, hj⟩ := h j (by simp)
      obtain ⟨typed, htyped, hdecoded⟩ := ih fun k hk => h k (by simp [hk])
      refine ⟨t :: typed, ?_, ?_⟩
      · rw [List.mapM_cons, hj.typed, htyped]
        rfl
      · by_cases htest : test t = true
        · rw [List.filter_cons_of_pos htest, List.mapM_cons, hj.decode, hdecoded,
            List.filterMap_cons_some ((foundIn_eq_some hj).mpr ⟨htest, rfl⟩)]
          rfl
        · have hnone : foundIn test j = none := by
            rw [foundIn, hj.typed]
            simp only
            rw [if_neg htest]
          rw [List.filter_cons_of_neg htest, hdecoded, List.filterMap_cons_none hnone]

/-! ## The rows of a search -/

theorem mem_joined {s : Store} {wanted : SymbolRow → Bool} {j : JoinedSymbol} :
    j ∈ s.joined wanted ↔ j.symbol ∈ s.symbols ∧ wanted j.symbol = true ∧ j.fossil ∈ s.fossils ∧
      j.fossil.fossilId = j.symbol.fossilId := by
  simp only [joined, List.mem_flatMap, List.mem_map, List.mem_filter, decide_eq_true_eq]
  constructor
  · rintro ⟨r, ⟨hr, hwanted⟩, f, ⟨hf, hid⟩, rfl⟩
    exact ⟨hr, hwanted, hf, hid⟩
  · rintro ⟨hr, hwanted, hf, hid⟩
    exact ⟨j.symbol, ⟨hr, hwanted⟩, j.fossil, ⟨hf, hid⟩, rfl⟩

theorem mem_searchRows {s : Store} {projectId : Cell} {wanted : SymbolRow → Bool}
    {j : JoinedSymbol} : j ∈ s.searchRows projectId wanted .allFossils ↔
      s.Stands projectId j ∧ wanted j.symbol = true := by
  simp only [searchRows, List.mem_mergeSort]
  rw [(orderBy_perm _ _).mem_iff, mem_joined, Bool.and_eq_true, decide_eq_true_eq]
  constructor
  · rintro ⟨hr, ⟨hproject, hwanted⟩, hf, hid⟩
    exact ⟨⟨hr, hproject, hf, hid⟩, hwanted⟩
  · rintro ⟨⟨hr, hproject, hf, hid⟩, hwanted⟩
    exact ⟨hr, ⟨hproject, hwanted⟩, hf, hid⟩

/-- The rows of a search over all fossils are those of newer fossils first. -/
theorem searchRows_pairwise (s : Store) (projectId : Cell) (wanted : SymbolRow → Bool) :
    (s.searchRows projectId wanted .allFossils).Pairwise
      fun a b => b.fossil.version.le a.fossil.version = true :=
  mergeSort_le_pairwise (fun j : JoinedSymbol => j.fossil.version) _

/-- Whether a symbol is read of the rows of a project. -/
def Holds (s : Store) (projectId : Cell) (x : Symbol) : Prop :=
  ∃ j t, s.Stands projectId j ∧ Reads j t x

section

variable {past : List Step} {s : Store}

/-- A search that looks at rows of its own and tests what it reads finds the symbols that pass both,
those of newer fossils first. -/
theorem Coherent.searched (h : Coherent past s) (projectId : Cell) (looksAt : SymbolRow → Bool)
    (test : TypedSymbol → Bool) (accepts : String → Prop)
    (haccepts : ∀ j t x, Reads j t x →
      (looksAt j.symbol = true ∧ test t = true ↔ accepts x.name)) :
    ∃ typed found,
      (s.searchRows projectId looksAt .allFossils).mapM JoinedSymbol.typed = .ok typed ∧
      (typed.filter test).mapM TypedSymbol.decode = .ok found ∧ Symbol.NewestFirst found ∧
      ∀ x, x ∈ found ↔ s.Holds projectId x ∧ accepts x.name := by
  have hreads : ∀ j ∈ s.searchRows projectId looksAt .allFossils, ∃ t x, Reads j t x := by
    intro j hj
    exact h.reads (mem_searchRows.mp hj).1
  obtain ⟨typed, htyped, hfound⟩ := mapM_filter_decode hreads test
  refine ⟨typed, _, htyped, hfound, ?newest, fun x => ?mem⟩
  case newest =>
    rw [Symbol.NewestFirst, List.pairwise_filterMap]
    -- every symbol has the version of the row that it was read of, so the order carries over
    refine (searchRows_pairwise s projectId looksAt).imp_of_mem ?_
    intro a b ha hb hle x hx y hy
    obtain ⟨t, x', hta⟩ := hreads a ha
    obtain ⟨u, y', hub⟩ := hreads b hb
    obtain ⟨-, rfl⟩ := (foundIn_eq_some hta).mp hx
    obtain ⟨-, rfl⟩ := (foundIn_eq_some hub).mp hy
    rw [hta.rowVersion, hub.rowVersion, Cell.le_integer, decide_eq_true_eq] at hle
    exact hle
  case mem =>
    rw [List.mem_filterMap]
    constructor
    · rintro ⟨j, hj, hx⟩
      obtain ⟨t, x', ht⟩ := hreads j hj
      obtain ⟨htest, rfl⟩ := (foundIn_eq_some ht).mp hx
      obtain ⟨hstands, hlooks⟩ := mem_searchRows.mp hj
      exact ⟨⟨j, t, hstands, ht⟩, (haccepts j t x' ht).mp ⟨hlooks, htest⟩⟩
    · rintro ⟨⟨j, t, hstands, ht⟩, hname⟩
      obtain ⟨hlooks, htest⟩ := (haccepts j t x ht).mpr hname
      exact ⟨j, mem_searchRows.mpr ⟨hstands, hlooks⟩, (foundIn_eq_some ht).mpr ⟨htest, rfl⟩⟩

/-- A search over all fossils of a project that has one succeeds, and finds the symbols of the
project whose names match, those of newer fossils first. -/
theorem Coherent.findSymbols_allFossils (h : Coherent past s) {name : String} {project : Project}
    (hproject : s.findProject name .strict = .ok (some project))
    (hfossil : s.fossilRows (Cell.uuid project.projectId) ≠ []) (wanted : NameMatch) :
    ∃ found, s.findSymbols name wanted .allFossils = .ok (.found found) ∧
      Symbol.NewestFirst found ∧
      ∀ x, x ∈ found ↔ s.Holds (Cell.uuid project.projectId) x ∧ wanted.accepts x.name := by
  have hany : (s.fossilsOf (Cell.uuid project.projectId)).isEmpty = false := by
    rw [fossilsOf_eq_reverse (h.versions _)]
    simpa using hfossil
  rw [findSymbols, withProject, hproject]
  simp only [bind, Except.bind, hany]
  cases wanted with
  | exact symbol =>
      obtain ⟨typed, found, htyped, hfound, hnewest, hmem⟩ :=
        h.searched (Cell.uuid project.projectId) (fun r => r.name = .text symbol) (fun _ => true)
          (NameMatch.exact symbol).accepts fun j t x ht => by
            simp [ht.rowName, NameMatch.accepts]
      rw [List.filter_true] at hfound
      refine ⟨found, ?_, hnewest, hmem⟩
      simp [htyped, hfound]
  | contains part =>
      obtain ⟨typed, found, htyped, hfound, hnewest, hmem⟩ :=
        h.searched (Cell.uuid project.projectId) (fun _ => true)
          (fun t => Text.contains (Text.lower t.name) (Text.lower part))
          (NameMatch.contains part).accepts fun j t x ht => by
            simp [ht.name, NameMatch.accepts]
      refine ⟨found, ?_, hnewest, hmem⟩
      simp [htyped, hfound]

end

end Store

end FossilRecord
