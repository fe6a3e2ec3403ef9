import FossilRecord.Proofs.Json.Pretty
import FossilRecord.Proofs.Payload.Format
import Mathlib.Data.List.Permutation

/-!
# What a payload holds

A payload is compared with the object that it was read from (`Holds`): every entry gives one
dependency, file or symbol, in the order of the text, and every text can be traced back to the value
that was received.  `parse_format` adds which texts are read at all.
-/

namespace FossilRecord.Payload

/-! ## What a payload holds -/

/-- Whether a text stands for the value of a field: it is empty if there is none, a text itself, and
else the value is read from it. -/
def Kept (found : Option Json) (text : String) : Prop :=
  match found with
  | none => text = ""
  | some .null => text = ""
  | some (.text s) => text = s
  | some j => j.isWhole = true → Json.parse text = .ok j

/-- Whether a text that may be missing stands for the value of a field; it is missing rather than
empty. -/
def KeptIfAny (found : Option Json) (text : Option String) : Prop :=
  Kept found (text.getD "") ∧ text ≠ some ""

/-- The entries of a list under a key. -/
def entriesOf (root : List (String × Json)) (key : String) : List Json :=
  match Json.lookup key root with
  | some (.list items) => items
  | _ => []

/-- Whether a dependency is that of an entry. -/
def HoldsDependency : Json → Dependency → Prop
  | .text name, d => d = ⟨name, none, none⟩
  | .object fields, d =>
      Kept (Json.lookup "name" fields) d.name ∧
        KeptIfAny (Json.lookup "version" fields) d.version ∧
        KeptIfAny (Json.lookup "purpose" fields) d.purpose
  | _, _ => False

/-- Whether a file is that of an entry. -/
def HoldsFile : Json → FileTreeEntry → Prop
  | .text path, e => e = ⟨path, none, none⟩
  | .object fields, e =>
      Kept (Json.lookup "path" fields) e.path ∧
        KeptIfAny (Json.lookup "description" fields) e.description ∧
        ∀ n : Nat, (n : Int) ≤ Json.maxInt64 →
          either fields "line_count" "lines" = some (.nat n) → e.lineCount = some n
  | _, _ => False

/-- Whether a symbol is that of an entry. -/
structure HoldsSymbol (fields : List (String × Json)) (p : PayloadSymbol) : Prop where
  name : Json.lookup "name" fields = some (.text p.name)
  filePath : Kept (either fields "file_path" "file") p.filePath
  lineNumber : ∀ n, Json.minInt64 ≤ n → n ≤ Json.maxInt64 →
    either fields "line_number" "line" = some (.int n) → p.lineNumber = some n
  kind : ∀ label, Json.lookup "type" fields = some (.text label) → p.kind = .ofLabel label
  signature : KeptIfAny (Json.lookup "signature" fields) p.signature
  description : KeptIfAny (Json.lookup "description" fields) p.description
  /-- They are kept as they were received. -/
  relationships : p.relationships =
    (Json.lookup "relationships" fields).filter fun j => !j.isNull

/-- Whether a payload holds what the fields of an object say: one dependency, one file and one symbol
for each entry, the symbols of entries without a name apart, and four texts. -/
structure Holds (root : List (String × Json)) (q : Payload) : Prop where
  summary : Kept (Json.lookup "summary" root) q.summary
  architecture : Kept (Json.lookup "architecture" root) q.architecture
  recentChanges : Kept (Json.lookup "recent_changes" root) q.recentChanges
  knownIssues : Kept (Json.lookup "known_issues" root) q.knownIssues
  dependencies : List.Forall₂ HoldsDependency (entriesOf root "dependencies") q.dependencies
  fileTree : List.Forall₂ HoldsFile (entriesOf root "file_tree") q.fileTree
  symbols : List.Forall₂ (fun j p => ∃ fields, j = .object fields ∧ HoldsSymbol fields p)
    ((entriesOf root "symbols").filter isNamed) q.symbols

section Held

variable {fields root : List (String × Json)}

theorem kept_textField (hfits : Json.Fits Json.depthLimit (.object root)) (key : String) :
    Kept (Json.lookup key root) (textField root key) := by
  unfold Kept textField
  cases hfound : Json.lookup key root with
  | none => rfl
  | some j =>
      have hparse := Json.parse_pretty (hfits.lookup hfound)
      cases j with
      | null | text => rfl
      | bool | number | list | object =>
          intro hwhole
          rwa [Json.readBack_of_isWhole _ hwhole] at hparse

theorem compact_ne_empty (j : Json) : j.compact ≠ "" := by
  obtain ⟨c, rest, hwritten, -⟩ := Json.startsValue_compactChars j
  intro hempty
  have hchars := congrArg String.toList hempty
  rw [Json.compact, String.toList_ofList, hwritten] at hchars
  cases hchars

theorem kept_optText {found : Option Json} (hfits : ∀ j ∈ found, Json.Fits Json.depthLimit j) :
    KeptIfAny found (optText found) := by
  unfold KeptIfAny Kept optText
  cases found with
  | none => simp
  | some j =>
      have hparse := Json.parse_compact (hfits j rfl)
      cases j with
      | null => simp
      | text s =>
          by_cases hs : s = ""
          · simp [hs]
          · simp [hs]
      | bool | number | list | object =>
          refine ⟨fun hwhole => ?_, ?_⟩
          · rwa [Json.readBack_of_isWhole _ hwhole] at hparse
          · simpa using compact_ne_empty _

theorem fits_either (hfits : Json.Fits Json.depthLimit (.object fields)) (key alias_ : String) :
    ∀ j ∈ either fields key alias_, Json.Fits Json.depthLimit j := by
  intro j hj
  unfold either at hj
  split at hj
  · rename_i hfound
    cases hj
    exact hfits.lookup hfound
  · exact hfits.lookup hj

theorem clampInt64_of_range {n : Int} (hlow : Json.minInt64 ≤ n) (hhigh : n ≤ Json.maxInt64) :
    clampInt64 n = n := by
  rw [clampInt64, if_neg (by omega), if_neg (by omega)]

theorem holdsDependency {j : Json} (hfits : Json.Fits Json.depthLimit j) {d : Dependency}
    (h : dependency j = .ok d) : HoldsDependency j d := by
  cases j with
  | text name =>
      cases h
      rfl
  | object fields =>
      cases h
      exact ⟨(kept_optText fun j hj => hfits.lookup hj).1, kept_optText fun j hj => hfits.lookup hj,
        kept_optText fun j hj => hfits.lookup hj⟩
  | null | bool | number | list => cases h

theorem holdsFile {j : Json} (hfits : Json.Fits Json.depthLimit j) {e : FileTreeEntry}
    (h : fileEntry j = .ok e) : HoldsFile j e := by
  cases j with
  | text path =>
      cases h
      rfl
  | object fields =>
      cases h
      refine ⟨(kept_optText fun j hj => hfits.lookup hj).1, kept_optText fun j hj => hfits.lookup hj,
        fun n hn hcount => ?_⟩
      have hlow : Json.minInt64 ≤ (n : Int) := by
        have hmin : Json.minInt64 ≤ 0 := by decide
        omega
      simp [hcount, optInt, Json.nat, clampInt64_of_range hlow hn]
  | null | bool | number | list => cases h

theorem lookup_of_symbolName? {name : String} (h : symbolName? fields = some name) :
    Json.lookup "name" fields = some (.text name) := by
  unfold symbolName? at h
  split at h
  · rename_i s hfound
    split at h
    · cases h
    · cases h
      exact hfound
  · cases h

theorem symbolRelationships_ok {name : String} {found : Option Json}
    (h : symbolRelationships name fields = .ok found) :
    found = (Json.lookup "relationships" fields).filter fun j => !j.isNull := by
  unfold symbolRelationships at h
  split at h
  · rename_i hfound
    cases h
    rw [hfound]
    rfl
  · rename_i hfound
    cases h
    rw [hfound]
    rfl
  · rename_i j hnull hfound
    split at h
    · cases h
      rw [hfound]
      cases j with
      | null => exact absurd rfl hnull
      | bool | number | text | list | object => rfl
    · cases h

/-- An entry gives a symbol exactly if it has a name. -/
theorem symbol_cases {index : Nat} {j : Json} {found : Option PayloadSymbol}
    (h : symbol index j = .ok found) :
    (isNamed j = false ∧ found = none) ∨ isNamed j = true ∧ ∃ p, found = some p := by
  cases j with
  | object fields =>
      rw [symbol] at h
      cases hname : symbolName? fields with
      | none =>
          rw [hname] at h
          cases h
          refine .inl ⟨?_, rfl⟩
          rw [← Bool.not_eq_true, isNamed_iff, hname]
          simp
      | some name =>
          rw [hname] at h
          obtain ⟨relationships, -, h⟩ := bind_eq_ok h
          cases h
          exact .inr ⟨isNamed_iff.mpr ⟨name, hname⟩, _, rfl⟩
  | null | bool | number | text | list => cases h

/-- What holds of every symbol beside its entry holds of the symbols that are read, one for each
entry with a name. -/
theorem forall₂_symbolEntries {good : Json → PayloadSymbol → Prop} {index : Nat}
    {items : List Json}
    (hgood : ∀ index, ∀ j ∈ items, ∀ p, symbol index j = .ok (some p) → good j p)
    {symbols : List PayloadSymbol} (h : symbolEntries index items = .ok symbols) :
    List.Forall₂ good (items.filter isNamed) symbols := by
  induction items generalizing index symbols with
  | nil =>
      cases h
      exact .nil
  | cons j items ih =>
      rw [symbolEntries] at h
      obtain ⟨first, hfirst, h⟩ := bind_eq_ok h
      obtain ⟨more, hmore, h⟩ := bind_eq_ok h
      cases h
      have hrest := ih (fun index k hk => hgood index k (by simp [hk])) hmore
      rcases symbol_cases hfirst with ⟨hname, rfl⟩ | ⟨hname, p, rfl⟩
      · rwa [List.filter_cons_of_neg (by simp [hname])]
      · rw [List.filter_cons_of_pos hname]
        exact .cons (hgood index j (by simp) p hfirst) hrest

/-- The symbol of an entry is that of its fields. -/
theorem holdsSymbol {index : Nat} {j : Json} (hfits : Json.Fits Json.depthLimit j)
    {p : PayloadSymbol} (h : symbol index j = .ok (some p)) :
    ∃ fields, j = .object fields ∧ HoldsSymbol fields p := by
  cases j with
  | object fields =>
      rw [symbol] at h
      cases hname : symbolName? fields with
      | none =>
          rw [hname] at h
          cases h
      | some name =>
          rw [hname] at h
          obtain ⟨relationships, hrelationships, h⟩ := bind_eq_ok h
          cases h
          refine ⟨fields, rfl, ?_⟩
          exact
            { name := lookup_of_symbolName? hname
              filePath := (kept_optText (fits_either hfits _ _)).1
              lineNumber := fun n hlow hhigh hfound => by
                simp [hfound, optInt, Json.int, clampInt64_of_range hlow hhigh]
              kind := fun label hfound => by simp [hfound, Json.text?]
              signature := kept_optText fun j hj => hfits.lookup hj
              description := kept_optText fun j hj => hfits.lookup hj
              relationships := symbolRelationships_ok hrelationships }
  | null | bool | number | text | list => cases h

theorem entriesOf_eq {key : String} {items : List Json} (h : listField root key = .ok items) :
    entriesOf root key = items := by
  unfold listField at h
  unfold entriesOf
  split at h
  · rename_i hfound
    cases h
    rw [hfound]
  · rename_i hfound
    cases h
    rw [hfound]
  · rename_i hfound
    cases h
    rw [hfound]
  · cases h

/-- A payload that was read from the fields of an object holds what they say. -/
theorem ReadFrom.holds {q : Payload} (h : ReadFrom root q)
    (hfits : Json.Fits Json.depthLimit (.object root)) : Holds root q := by
  obtain ⟨symbolItems, hsymbolItems, hsymbols⟩ := h.symbols
  obtain ⟨dependencyItems, hdependencyItems, hdependencies⟩ := h.dependencies
  obtain ⟨fileItems, hfileItems, hfileTree⟩ := h.fileTree
  exact
    { summary := h.summary ▸ kept_textField hfits _
      architecture := h.architecture ▸ kept_textField hfits _
      recentChanges := h.recentChanges ▸ kept_textField hfits _
      knownIssues := h.knownIssues ▸ kept_textField hfits _
      dependencies := by
        rw [entriesOf_eq hdependencyItems]
        exact forall₂_of_mapM_mem hdependencies fun j hj d =>
          holdsDependency (fits_of_listField hfits hdependencyItems j hj)
      fileTree := by
        rw [entriesOf_eq hfileItems]
        exact forall₂_of_mapM_mem hfileTree fun j hj e =>
          holdsFile (fits_of_listField hfits hfileItems j hj)
      symbols := by
        rw [entriesOf_eq hsymbolItems]
        exact forall₂_symbolEntries (fun _ j hj _ =>
          holdsSymbol (fits_of_listField hfits hsymbolItems j hj)) hsymbols }

end Held

/-! ## The main statement -/

/-- Exactly the texts that have the format of a payload are read as one, all others are refused with
a reason, and a payload that was read holds what the object in the text says. -/
theorem parse_format (raw : String) :
    (HasFormat raw ↔ ∃ q, parse raw = .ok q) ∧
      (¬HasFormat raw ↔ ∃ flaw, parse raw = .error flaw) ∧
      ∀ q, parse raw = .ok q →
        ∃ root, Json.parse (Fence.strip raw) = .ok (.object root) ∧ Holds root q := by
  refine ⟨hasFormat_iff, ?_, fun q hq => ?_⟩
  · rw [hasFormat_iff]
    cases parse raw <;> simp
  · obtain ⟨root, hroot, hread⟩ := readFrom_of_parse hq
    exact ⟨root, hroot, hread.holds (Json.fits_of_parse hroot)⟩

/-- A blank name hides the relationships of its entry, which are none, and a list in the place of a
text is kept as JSON. -/
theorem parse_format_blank_name :
    let raw := "\x7b\"summary\":[[]],\"symbols\":[\x7b\"name\":\" \",\"relationships\":7\x7d]\x7d"
    let q : Payload :=
      { summary := "[\n  []\n]", architecture := "", recentChanges := "", knownIssues := ""
        dependencies := [], fileTree := [], symbols := [] }
    HasFormat raw ∧ parse raw = .ok q ∧
      ∃ root, Json.parse (Fence.strip raw) = .ok (.object root) ∧ Holds root q := by
  intro raw q
  have hparse : parse raw = .ok q := by
    unfold parse raw q
    cbv
  obtain ⟨haccepted, -, hholds⟩ := parse_format raw
  exact ⟨haccepted.mpr ⟨q, hparse⟩, hparse, hholds q hparse⟩

end FossilRecord.Payload
