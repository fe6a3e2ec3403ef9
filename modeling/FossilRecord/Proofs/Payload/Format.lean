import FossilRecord.Proofs.Payload

/-!
# The format of payloads

A text is a payload exactly if the object in it has the format of one (`HasFormat`), which is said
here field by field and without going through the checks.  An entry for a symbol without a usable
name may hold anything, while an entry that is no object makes the whole text no payload.
-/

namespace FossilRecord.Payload

/-! ## The format -/

/-- Whether a field is absent, null, or of a kind. -/
def FieldIs (kind : Json → Prop) (fields : List (String × Json)) (key : String) : Prop :=
  ∀ j, Json.lookup key fields = some j → j = .null ∨ kind j

/-- A list of values of a kind. -/
def IsListOf (kind : Json → Prop) : Json → Prop
  | .list items => ∀ j ∈ items, kind j
  | _ => False

/-- A text. -/
def IsText : Json → Prop
  | .text _ => True
  | _ => False

/-- An entry for a dependency or a file: a text or an object. -/
def IsEntry : Json → Prop
  | .text _ | .object _ => True
  | _ => False

/-- Whether the fields for the three relations are lists of names, as far as they are there. -/
def NameLists (fields : List (String × Json)) : Prop :=
  ∀ key ∈ ["calls", "called_by", "depends_on"], FieldIs (IsListOf IsText) fields key

/-- Relationships: an object, or a text that holds one. -/
def IsRelationships : Json → Prop
  | .object fields => NameLists fields
  | .text s => ∃ fields, Json.parse s = .ok (.object fields) ∧ NameLists fields
  | _ => False

/-- Whether an entry for a symbol has a name in which not all characters are blank. -/
def isNamed : Json → Bool
  | .object fields =>
      match Json.lookup "name" fields with
      | some (.text name) => name.toList.any fun c => !Text.isBlank c
      | _ => false
  | _ => false

/-- An entry for a symbol: an object, whose relationships matter only if it has a name. -/
def IsSymbolEntry : Json → Prop
  | .object fields =>
      isNamed (.object fields) = true → FieldIs IsRelationships fields "relationships"
  | _ => False

/-- Whether the fields of an object are those of a payload. -/
structure AreFields (root : List (String × Json)) : Prop where
  symbols : FieldIs (IsListOf IsSymbolEntry) root "symbols"
  dependencies : FieldIs (IsListOf IsEntry) root "dependencies"
  fileTree : FieldIs (IsListOf IsEntry) root "file_tree"

/-- Whether a text has the format of a payload. -/
def HasFormat (raw : String) : Prop :=
  ∃ root, Json.parse (Fence.strip raw) = .ok (.object root) ∧ AreFields root

/-! ## What is accepted -/

section Accepted

variable {fields root : List (String × Json)}

/-- A list of items of a kind is found under a key exactly if the field is of that kind. -/
theorem fieldIs_listOf_iff {kind : Json → Prop} {key : String} :
    FieldIs (IsListOf kind) root key ↔
      ∃ items, listField root key = .ok items ∧ ∀ j ∈ items, kind j := by
  unfold FieldIs listField
  cases Json.lookup key root with
  | none => simp
  | some j => cases j <;> simp [IsListOf]

theorem isText_iff {j : Json} : IsText j ↔ (Json.text? j).isSome = true := by
  cases j <;> simp [IsText, Json.text?]

theorem nameLists_iff : NameLists fields ↔ badKey? fields = none := by
  rw [badKey?, List.find?_eq_none]
  refine forall₂_congr fun key _ => ?_
  unfold FieldIs
  cases Json.lookup key fields with
  | none => simp
  | some j => cases j <;> simp [IsListOf, isText_iff, Option.isSome_iff_ne_none]

theorem isRelationships_iff {j : Json} : IsRelationships j ↔ checkRelationships j = .ok () := by
  cases j with
  | object fields =>
      simp only [IsRelationships, checkRelationships, nameLists_iff]
      cases badKey? fields <;> simp
  | text s =>
      cases hparse : Json.parse s with
      | error message => simp [IsRelationships, checkRelationships, hparse]
      | ok k =>
          cases k with
          | object fields =>
              simp only [IsRelationships, checkRelationships, hparse, nameLists_iff,
                Except.ok.injEq, Json.object.injEq, exists_eq_left']
              cases badKey? fields <;> simp
          | null | bool | number | text | list =>
              simp [IsRelationships, checkRelationships, hparse]
  | null | bool | number | list => simp [IsRelationships, checkRelationships]

theorem isBlankText_eq (s : String) :
    Text.isBlankText s = !s.toList.any fun c => !Text.isBlank c := by
  rw [Text.isBlankText, List.all_eq_not_any_not]

/-- A name is found exactly in the entries that have one. -/
theorem isNamed_iff : isNamed (.object fields) = true ↔ ∃ name, symbolName? fields = some name := by
  cases hname : Json.lookup "name" fields with
  | none => simp [isNamed, symbolName?, hname]
  | some j =>
      cases j with
      | text s =>
          simp only [isNamed, symbolName?, hname, isBlankText_eq]
          cases s.toList.any fun c => !Text.isBlank c <;> simp
      | null | bool | number | list | object => simp [isNamed, symbolName?, hname]

theorem fieldIs_relationships_iff (name : String) :
    FieldIs IsRelationships fields "relationships" ↔
      ∃ found, symbolRelationships name fields = .ok found := by
  unfold FieldIs symbolRelationships
  cases Json.lookup "relationships" fields with
  | none => simp
  | some j =>
      cases j with
      | null => simp
      | bool | number | text | list | object =>
          simp only [Option.some.injEq, forall_eq', isRelationships_iff, reduceCtorEq, false_or]
          split <;> simp_all

theorem isSymbolEntry_iff (index : Nat) {j : Json} :
    IsSymbolEntry j ↔ ∃ found, symbol index j = .ok found := by
  cases j with
  | object fields =>
      simp only [IsSymbolEntry, symbol, isNamed_iff]
      cases symbolName? fields with
      | none => simp
      | some name =>
          simp only [Option.some.injEq, exists_eq', forall_const, fieldIs_relationships_iff name]
          constructor
          · rintro ⟨found, hfound⟩
            rw [hfound]
            exact ⟨_, rfl⟩
          · rintro ⟨_, h⟩
            obtain ⟨found, hfound, -⟩ := bind_eq_ok h
            exact ⟨found, hfound⟩
  | null | bool | number | text | list => simp [IsSymbolEntry, symbol]

theorem forall_isSymbolEntry_iff (index : Nat) {items : List Json} :
    (∀ j ∈ items, IsSymbolEntry j) ↔ ∃ symbols, symbolEntries index items = .ok symbols := by
  induction items generalizing index with
  | nil => simp [symbolEntries]
  | cons j items ih =>
      rw [List.forall_mem_cons, isSymbolEntry_iff index, ih (index + 1), symbolEntries]
      constructor
      · rintro ⟨⟨first, hfirst⟩, more, hmore⟩
        rw [hfirst]
        simp only [bind, Except.bind, hmore]
        exact ⟨_, rfl⟩
      · rintro ⟨_, h⟩
        obtain ⟨first, hfirst, h⟩ := bind_eq_ok h
        obtain ⟨more, hmore, -⟩ := bind_eq_ok h
        exact ⟨⟨first, hfirst⟩, more, hmore⟩

theorem isEntry_iff_dependency {j : Json} : IsEntry j ↔ ∃ d, dependency j = .ok d := by
  cases j <;> simp [IsEntry, dependency]

theorem isEntry_iff_fileEntry {j : Json} : IsEntry j ↔ ∃ e, fileEntry j = .ok e := by
  cases j <;> simp [IsEntry, fileEntry]

/-- The fields of a payload are those that can be read as one. -/
theorem areFields_iff : AreFields root ↔ ∃ q, ofFields root = .ok q := by
  constructor
  · rintro ⟨hsymbols, hdependencies, hfileTree⟩
    obtain ⟨symbolItems, hsymbolItems, hsymbols⟩ := fieldIs_listOf_iff.mp hsymbols
    obtain ⟨symbols, hsymbols⟩ := (forall_isSymbolEntry_iff 0).mp hsymbols
    obtain ⟨dependencyItems, hdependencyItems, hdependencies⟩ :=
      fieldIs_listOf_iff.mp hdependencies
    obtain ⟨dependencies, hdependencies⟩ := mapM_total fun j hj =>
      isEntry_iff_dependency.mp (hdependencies j hj)
    obtain ⟨fileItems, hfileItems, hfileTree⟩ := fieldIs_listOf_iff.mp hfileTree
    obtain ⟨fileTree, hfileTree⟩ := mapM_total fun j hj =>
      isEntry_iff_fileEntry.mp (hfileTree j hj)
    rw [ofFields, hsymbolItems, hdependencyItems, hfileItems]
    simp only [bind, Except.bind, hsymbols, hdependencies, hfileTree]
    exact ⟨_, rfl⟩
  · rintro ⟨q, h⟩
    obtain ⟨⟨symbolItems, hsymbolItems, hsymbols⟩, ⟨dependencyItems, hdependencyItems,
      hdependencies⟩, ⟨fileItems, hfileItems, hfileTree⟩, -, -, -, -⟩ := readFrom_of_ofFields h
    refine ⟨?_, ?_, ?_⟩ <;> rw [fieldIs_listOf_iff]
    · exact ⟨symbolItems, hsymbolItems, (forall_isSymbolEntry_iff 0).mpr ⟨_, hsymbols⟩⟩
    · exact ⟨dependencyItems, hdependencyItems, fun j hj =>
        isEntry_iff_dependency.mpr (exists_of_mapM hdependencies hj)⟩
    · exact ⟨fileItems, hfileItems, fun j hj =>
        isEntry_iff_fileEntry.mpr (exists_of_mapM hfileTree hj)⟩

/-- Exactly the texts that have the format are payloads. -/
theorem hasFormat_iff {raw : String} : HasFormat raw ↔ ∃ q, parse raw = .ok q := by
  unfold HasFormat parse
  cases hparse : Json.parse (Fence.strip raw) with
  | error message => simp
  | ok j =>
      cases j with
      | object root => simp [areFields_iff]
      | null | bool | number | text | list => simp

end Accepted

end FossilRecord.Payload
