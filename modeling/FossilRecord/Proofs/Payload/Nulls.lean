import FossilRecord.Proofs.Payload.Holding

/-!
# Fields that are null

A field of a payload, or of an entry in one of its lists, may be null instead of being left out.
This is the same to every reader of one field.  Where a value may stand under either of two keys, the
first key that is there is chosen before its value is looked at, so that a null under the first key
hides the value under the second (`Hides`).  `parse_without_null` says that nothing else depends on
nulls.
-/

namespace FossilRecord

/-! ## Results that differ -/

/-- Two runs that fail alike, and succeed with different results exactly if something holds. -/
def DifferIf {ε α : Type} (p : Prop) (x y : Except ε α) : Prop :=
  (∃ e, x = .error e ∧ y = .error e) ∨ ∃ a b, x = .ok a ∧ y = .ok b ∧ (b = a ↔ ¬p)

namespace DifferIf

variable {ε α β : Type} {p : Prop} {x y : Except ε α}

theorem ok {a b : α} (h : b = a ↔ ¬p) : DifferIf p (.ok a : Except ε α) (.ok b) :=
  .inr ⟨a, b, rfl, rfl, h⟩

theorem of_eq (hp : ¬p) (h : y = x) : DifferIf p x y := by
  rw [h]
  cases x with
  | error e => exact .inl ⟨e, rfl, rfl⟩
  | ok a => exact .ok ⟨fun _ => hp, fun _ => rfl⟩

/-- A difference in the first step shows in the result if the steps behind it keep it. -/
theorem bind (h : DifferIf p x y) {f : α → Except ε β}
    (hf : ∀ a b, (b = a ↔ ¬p) → DifferIf p (f a) (f b)) : DifferIf p (x >>= f) (y >>= f) := by
  obtain ⟨e, rfl, rfl⟩ | ⟨a, b, rfl, rfl, hab⟩ := h
  · exact .inl ⟨e, rfl, rfl⟩
  · exact hf a b hab

/-- A step that both runs take alike. -/
theorem bind_right {f g : α → Except ε β} (h : ∀ a, DifferIf p (f a) (g a)) :
    DifferIf p (x >>= f) (x >>= g) := by
  cases x with
  | error e => exact .inl ⟨e, rfl, rfl⟩
  | ok a => exact h a

theorem eq_iff (h : DifferIf p x y) : y = x ↔ ¬((∃ a, x = .ok a) ∧ p) := by
  obtain ⟨e, rfl, rfl⟩ | ⟨a, b, rfl, rfl, hab⟩ := h
  · simp
  · simpa using hab

/-- One item of a list takes part in the results as it does alone. -/
theorem mapM_modify {f : α → Except ε β} {g : α → α} {xs : List α} {index : Nat} {a : α}
    (ha : xs[index]? = some a) (h : DifferIf p (f a) (f (g a))) :
    DifferIf p (xs.mapM f) ((xs.modify index g).mapM f) := by
  induction xs generalizing index with
  | nil => cases ha
  | cons b xs ih =>
      cases index with
      | zero =>
          cases ha
          rw [List.modify_zero_cons, List.mapM_cons, List.mapM_cons]
          refine h.bind fun c d hcd => .bind_right fun cs => .ok ?_
          simpa using hcd
      | succ index =>
          rw [List.modify_succ_cons, List.mapM_cons, List.mapM_cons]
          refine .bind_right fun c => (ih ha).bind fun cs ds hcs => .ok ?_
          simpa using hcs

end DifferIf

namespace Json

/-! ## Fields left out -/

/-- The fields without one of them. -/
def dropField (name : String) (fields : List (String × Json)) : List (String × Json) :=
  fields.filter fun f => f.1 ≠ name

/-- A value without one of its fields, if it is an object. -/
def withoutField (name : String) : Json → Json
  | .object fields => .object (dropField name fields)
  | j => j

/-- A value with one of its items changed, if it is a list. -/
def mapItem (index : Nat) (g : Json → Json) : Json → Json
  | .list items => .list (items.modify index g)
  | j => j

/-- The fields with the value of one of them changed. -/
def mapField (name : String) (g : Json → Json) (fields : List (String × Json)) :
    List (String × Json) :=
  fields.map fun f => if f.1 = name then (f.1, g f.2) else f

section

variable {name : String} {fields : List (String × Json)}

theorem lookup_dropField_self : lookup name (dropField name fields) = none := by
  induction fields with
  | nil => rfl
  | cons f fields ih =>
      by_cases hname : f.1 = name
      · simpa [dropField, hname] using ih
      · simpa [dropField, hname, lookup] using ih

theorem lookup_dropField_of_ne {key : String} (hkey : key ≠ name) :
    lookup key (dropField name fields) = lookup key fields := by
  induction fields with
  | nil => rfl
  | cons f fields ih =>
      by_cases hname : f.1 = name
      · simpa [dropField, hname, lookup, hkey.symm] using ih
      · rw [lookup, ← ih]
        simp [dropField, hname, lookup]

/-- When a null is left out, a lookup finds what it found before, or nothing in the place of the
null. -/
theorem lookup_dropField_cases (hnull : lookup name fields = some .null) (key : String) :
    lookup key (dropField name fields) = lookup key fields ∨
      lookup key fields = some .null ∧ lookup key (dropField name fields) = none := by
  by_cases hkey : key = name
  · subst hkey
    exact .inr ⟨hnull, lookup_dropField_self⟩
  · exact .inl (lookup_dropField_of_ne hkey)

theorem lookup_mapField (g : Json → Json) (key : String) :
    lookup key (mapField name g fields) =
      if key = name then (lookup key fields).map g else lookup key fields := by
  induction fields with
  | nil => simp [mapField, lookup]
  | cons f fields ih =>
      obtain ⟨n, j⟩ := f
      rw [mapField, List.map_cons]
      by_cases hkey : n = key
      · subst hkey
        by_cases hname : n = name <;> simp [lookup, hname]
      · have hrest : lookup key ((n, j) :: fields) = lookup key fields := by
          rw [lookup, if_neg hkey]
        rw [hrest, ← ih]
        split <;> rw [lookup, if_neg hkey] <;> rfl

end

end Json

namespace Payload

/-! ## Places in a payload -/

/-- The lists of a payload. -/
inductive Part where
  | symbols
  | dependencies
  | fileTree
deriving DecidableEq, Repr

/-- The key of a list. -/
def Part.key : Part → String
  | .symbols => "symbols"
  | .dependencies => "dependencies"
  | .fileTree => "file_tree"

/-- The objects of a payload: the payload itself and the entries of its lists. -/
inductive Place where
  | root
  | entry (part : Part) (index : Nat)
deriving DecidableEq, Repr

/-- The fields of the object in a place, if there is one. -/
def fieldsAt? (root : List (String × Json)) : Place → Option (List (String × Json))
  | .root => some root
  | .entry part index => (entriesOf root part.key)[index]?.bind Json.fields?

/-- The payload without a field of the object in a place. -/
def dropAt (root : List (String × Json)) (name : String) : Place → List (String × Json)
  | .root => Json.dropField name root
  | .entry part index =>
      Json.mapField part.key (Json.mapItem index (Json.withoutField name)) root

/-- Whether a null in a field of an object hides a value under another key. -/
def Hides (fields : List (String × Json)) (name : String) : Place → Prop
  | .entry .symbols _ =>
      isNamed (.object fields) = true ∧
        (name = "file_path" ∧ optText (Json.lookup "file" fields) ≠ none ∨
          name = "line_number" ∧ optInt (Json.lookup "line" fields) ≠ none)
  | .entry .fileTree _ =>
      name = "line_count" ∧ ∃ n : Nat, optInt (Json.lookup "lines" fields) = some (n : Int)
  | .entry .dependencies _ | .root => False

/-! ## Readers of one field -/

section Readers

variable {name : String} {fields root : List (String × Json)}
  (hnull : Json.lookup name fields = some .null)

include hnull

theorem textField_dropField (key : String) :
    textField (Json.dropField name fields) key = textField fields key := by
  rcases Json.lookup_dropField_cases hnull key with heq | ⟨hfound, hnone⟩
  · simp only [textField, heq]
  · simp only [textField, hfound, hnone]

theorem listField_dropField (key : String) :
    listField (Json.dropField name fields) key = listField fields key := by
  rcases Json.lookup_dropField_cases hnull key with heq | ⟨hfound, hnone⟩
  · simp only [listField, heq]
  · simp only [listField, hfound, hnone]

theorem optText_dropField (key : String) :
    optText (Json.lookup key (Json.dropField name fields)) = optText (Json.lookup key fields) := by
  rcases Json.lookup_dropField_cases hnull key with heq | ⟨hfound, hnone⟩
  · rw [heq]
  · rw [hfound, hnone]
    rfl

theorem symbolName?_dropField : symbolName? (Json.dropField name fields) = symbolName? fields := by
  rcases Json.lookup_dropField_cases hnull "name" with heq | ⟨hfound, hnone⟩
  · simp only [symbolName?, heq]
  · simp only [symbolName?, hfound, hnone]

theorem symbolRelationships_dropField (symbolName : String) :
    symbolRelationships symbolName (Json.dropField name fields) =
      symbolRelationships symbolName fields := by
  rcases Json.lookup_dropField_cases hnull "relationships" with heq | ⟨hfound, hnone⟩
  · simp only [symbolRelationships, heq]
  · simp only [symbolRelationships, hfound, hnone]

theorem text?_dropField (key : String) :
    (Json.lookup key (Json.dropField name fields)).bind Json.text? =
      (Json.lookup key fields).bind Json.text? := by
  rcases Json.lookup_dropField_cases hnull key with heq | ⟨hfound, hnone⟩
  · rw [heq]
  · rw [hfound, hnone]
    rfl

/-- Of two keys, only a null under the first one matters: without it the second is read. -/
theorem either_dropField {α : Type} {f : Option Json → Option α} (hf : f (some .null) = none)
    (hf' : f none = none) {key alias_ : String} (hne : alias_ ≠ key) :
    f (either (Json.dropField name fields) key alias_) =
      if name = key then f (Json.lookup alias_ fields) else f (either fields key alias_) := by
  by_cases hname : name = key
  · subst hname
    rw [if_pos rfl]
    simp only [either, Json.lookup_dropField_self, Json.lookup_dropField_of_ne hne]
  · rw [if_neg hname]
    have hkey : Json.lookup key (Json.dropField name fields) = Json.lookup key fields :=
      Json.lookup_dropField_of_ne (Ne.symm hname)
    rcases Json.lookup_dropField_cases hnull alias_ with heq | ⟨hfound, hnone⟩
    · simp only [either, hkey, heq]
    · simp only [either, hkey, hfound, hnone]
      cases Json.lookup key fields with
      | none => exact hf'.trans hf.symm
      | some j => rfl

end Readers

/-! ## Entries -/

/-- A text that is read is missing rather than empty. -/
theorem optText_ne_empty (found : Option Json) : optText found ≠ some "" := by
  intro h
  unfold optText at h
  split at h
  · cases h
  · cases h
  · split at h
    · cases h
    · rename_i hs
      exact hs (Option.some.inj h)
  · exact compact_ne_empty _ (Option.some.inj h)

theorem getD_optText_eq_empty {found : Option Json} :
    (optText found).getD "" = "" ↔ optText found = none := by
  cases hfound : optText found with
  | none => simp
  | some s =>
      have hs : s ≠ "" := fun heq => optText_ne_empty found (heq ▸ hfound)
      simpa using hs

/-- A number of lines is read unless it is negative. -/
theorem bind_toNat_eq_none {count : Option Int} :
    (count.bind fun n => if 0 ≤ n then some n.toNat else none) = none ↔
      ¬∃ n : Nat, count = some (n : Int) := by
  rw [Option.bind_eq_none_iff, not_exists]
  constructor
  · intro h n hn
    have hnone := h n hn
    rw [if_pos (by omega)] at hnone
    cases hnone
  · intro h n hn
    rw [if_neg]
    intro hpos
    exact h n.toNat (by rw [hn, Int.toNat_of_nonneg hpos])

section Entries

variable {name : String} {fields : List (String × Json)}
  (hnull : Json.lookup name fields = some .null)

include hnull

theorem dependency_dropField :
    dependency (.object (Json.dropField name fields)) = dependency (.object fields) := by
  simp only [dependency, optText_dropField hnull]

theorem fileEntry_dropField (index : Nat) :
    DifferIf (Hides fields name (.entry .fileTree index)) (fileEntry (.object fields))
      (fileEntry (.object (Json.dropField name fields))) := by
  have hcount := either_dropField hnull (f := optInt) rfl rfl
    (show "lines" ≠ "line_count" by decide)
  apply DifferIf.ok
  simp only [optText_dropField hnull, hcount, FileTreeEntry.mk.injEq, true_and, Hides]
  by_cases hname : name = "line_count"
  · have hfirst : either fields "line_count" "lines" = some .null := by
      rw [either, ← hname, hnull]
    rw [if_pos hname, hfirst]
    simpa [hname, optInt] using bind_toNat_eq_none
  · simp [hname]

theorem symbol_dropField (index place : Nat) :
    DifferIf (Hides fields name (.entry .symbols place)) (symbol index (.object fields))
      (symbol index (.object (Json.dropField name fields))) := by
  have hpath := either_dropField hnull (f := optText) rfl rfl (show "file" ≠ "file_path" by decide)
  have hline := either_dropField hnull (f := optInt) rfl rfl (show "line" ≠ "line_number" by decide)
  cases hsymbol : symbolName? fields with
  | none =>
      refine .of_eq (fun hhides => ?_) ?_
      · obtain ⟨s, hs⟩ := isNamed_iff.mp hhides.1
        rw [hsymbol] at hs
        cases hs
      · simp only [symbol, symbolName?_dropField hnull, hsymbol]
  | some s =>
      have hnamed := isNamed_iff.mpr ⟨s, hsymbol⟩
      simp only [symbol, symbolName?_dropField hnull, hsymbol, symbolRelationships_dropField hnull]
      refine .bind_right fun relationships => .ok ?_
      simp only [hpath, hline, optText_dropField hnull, text?_dropField hnull, Option.some.injEq,
        PayloadSymbol.mk.injEq, and_true, Hides, hnamed, true_and]
      -- of the two keys with another beside them, the null is under one at most
      by_cases hfile : name = "file_path"
      · have hfirst : either fields "file_path" "file" = some .null := by
          rw [either, ← hfile, hnull]
        simpa [hfile, hfirst, optText] using getD_optText_eq_empty
      · by_cases hnumber : name = "line_number"
        · have hfirst : either fields "line_number" "line" = some .null := by
            rw [either, ← hnumber, hnull]
          simp [hnumber, hfirst, optInt]
        · simp [hfile, hnumber]

end Entries

/-! ## The lists of a payload -/

section Lists

variable {name : String} {fields root : List (String × Json)}

theorem symbolEntries_modify (hnull : Json.lookup name fields = some .null) {items : List Json}
    {index : Nat} (place : Nat) (hfields : items[index]? = some (.object fields)) (start : Nat) :
    DifferIf (Hides fields name (.entry .symbols place)) (symbolEntries start items)
      (symbolEntries start (items.modify index (Json.withoutField name))) := by
  induction items generalizing index start with
  | nil => cases hfields
  | cons j items ih =>
      cases index with
      | zero =>
          cases hfields
          rw [List.modify_zero_cons, symbolEntries, symbolEntries]
          refine (symbol_dropField hnull start place).bind fun a b hab => ?_
          refine .bind_right fun more => .ok ?_
          rw [List.append_left_inj, ← hab]
          cases a <;> cases b <;> simp
      | succ index =>
          rw [List.modify_succ_cons, symbolEntries, symbolEntries]
          refine .bind_right fun first => (ih hfields _).bind fun a b hab => .ok ?_
          rw [List.append_right_inj, hab]

theorem lookup_of_fieldsAt? {part : Part} {index : Nat}
    (h : fieldsAt? root (.entry part index) = some fields) :
    ∃ items, Json.lookup part.key root = some (.list items) ∧
      items[index]? = some (.object fields) := by
  obtain ⟨j, hj, hfields⟩ := Option.bind_eq_some_iff.mp h
  unfold entriesOf at hj
  split at hj
  · rename_i items hitems
    refine ⟨items, hitems, ?_⟩
    cases j with
    | object => rw [hj, ← Option.some.inj hfields]
    | null | bool | number | text | list => cases hfields
  · cases hj

theorem lookup_dropAt {part : Part} {key : String} (hkey : key ≠ part.key) (index : Nat) :
    Json.lookup key (dropAt root name (.entry part index)) = Json.lookup key root := by
  rw [dropAt, Json.lookup_mapField, if_neg hkey]

theorem textField_dropAt {part : Part} {key : String} (hkey : key ≠ part.key) (index : Nat) :
    textField (dropAt root name (.entry part index)) key = textField root key := by
  simp only [textField, lookup_dropAt hkey]

theorem listField_dropAt {part : Part} {key : String} (hkey : key ≠ part.key) (index : Nat) :
    listField (dropAt root name (.entry part index)) key = listField root key := by
  simp only [listField, lookup_dropAt hkey]

theorem listField_dropAt_self {part : Part} {items : List Json}
    (h : Json.lookup part.key root = some (.list items)) (index : Nat) :
    listField (dropAt root name (.entry part index)) part.key =
      .ok (items.modify index (Json.withoutField name)) := by
  simp only [listField, dropAt, Json.lookup_mapField, h]
  rfl

theorem ofFields_dropAt (hnull : Json.lookup name fields = some .null) {place : Place}
    (hfields : fieldsAt? root place = some fields) :
    DifferIf (Hides fields name place) (ofFields root) (ofFields (dropAt root name place)) := by
  cases place with
  | root =>
      cases hfields
      refine .of_eq id ?_
      simp only [dropAt, ofFields, textField_dropField hnull, listField_dropField hnull]
  | entry part index =>
      obtain ⟨items, hitems, hfound⟩ := lookup_of_fieldsAt? hfields
      have hlist : listField root part.key = .ok items := by
        simp only [listField, hitems]
      have hself : listField (dropAt root name (.entry part index)) part.key =
          .ok (items.modify index (Json.withoutField name)) :=
        listField_dropAt_self hitems index
      have htext : ∀ key, key ≠ part.key →
          textField (dropAt root name (.entry part index)) key = textField root key :=
        fun key hkey => textField_dropAt hkey index
      have hother : ∀ key, key ≠ part.key →
          listField (dropAt root name (.entry part index)) key = listField root key :=
        fun key hkey => listField_dropAt hkey index
      rw [ofFields, ofFields]
      -- the list with the entry is read where it stands, and everything else is read alike
      cases part with
      | symbols =>
          simp only [Part.key] at hlist hself htext hother
          simp (disch := decide) only [hlist, hself, htext, hother]
          refine (symbolEntries_modify hnull index hfound 0).bind fun a b hab => ?_
          refine .bind_right fun _ => .bind_right fun _ => ?_
          refine .bind_right fun _ => .bind_right fun _ => ?_
          exact .ok (by simpa using hab)
      | dependencies =>
          simp only [Part.key] at hlist hself htext hother
          simp (disch := decide) only [hlist, hself, htext, hother]
          have hentry := DifferIf.of_eq (p := Hides fields name (.entry .dependencies index)) id
            (dependency_dropField hnull)
          refine .bind_right fun _ => .bind_right fun _ => ?_
          refine (DifferIf.mapM_modify hfound hentry).bind fun a b hab => ?_
          refine .bind_right fun _ => .bind_right fun _ => ?_
          exact .ok (by simpa using hab)
      | fileTree =>
          simp only [Part.key] at hlist hself htext hother
          simp (disch := decide) only [hlist, hself, htext, hother]
          have hentry := fileEntry_dropField hnull index
          refine .bind_right fun _ => .bind_right fun _ => ?_
          refine .bind_right fun _ => .bind_right fun _ => ?_
          refine (DifferIf.mapM_modify hfound hentry).bind fun a b hab => ?_
          exact .ok (by simpa using hab)

end Lists

/-! ## The main statement -/

/-- A null field of a payload, or of an entry in one of its lists, can be left out exactly if the
payload is refused, for the same reason then, or the null hides no value under another key. -/
theorem parse_without_null {raw raw' : String} {root fields : List (String × Json)} {place : Place}
    {name : String} (hraw : Json.parse (Fence.strip raw) = .ok (.object root))
    (hfields : fieldsAt? root place = some fields)
    (hnull : Json.lookup name fields = some .null)
    (hraw' : Json.parse (Fence.strip raw') = .ok (.object (dropAt root name place))) :
    parse raw' = parse raw ↔ ¬((∃ q, parse raw = .ok q) ∧ Hides fields name place) := by
  rw [parse, parse, hraw, hraw']
  exact (ofFields_dropAt hnull hfields).eq_iff

/-- A null under the second of two keys, beside a path under the first. -/
theorem parse_without_null_other_key :
    parse "\x7b\"symbols\":[\x7b\"name\":\"f\",\"file_path\":\"a.py\"\x7d]\x7d" =
      parse "\x7b\"symbols\":[\x7b\"name\":\"f\",\"file_path\":\"a.py\",\"file\":null\x7d]\x7d" := by
  have hraw : Json.parse (Fence.strip
      "\x7b\"symbols\":[\x7b\"name\":\"f\",\"file_path\":\"a.py\",\"file\":null\x7d]\x7d") =
      .ok (.object [("symbols", .list [.object
        [("file", .null), ("file_path", .text "a.py"), ("name", .text "f")]])]) := by
    cbv
  have hraw' : Json.parse (Fence.strip
      "\x7b\"symbols\":[\x7b\"name\":\"f\",\"file_path\":\"a.py\"\x7d]\x7d") =
      .ok (.object (dropAt [("symbols", .list [.object
        [("file", .null), ("file_path", .text "a.py"), ("name", .text "f")]])] "file"
        (.entry .symbols 0))) := by
    cbv
  refine (parse_without_null hraw (by rfl) (by rfl) hraw').mpr ?_
  rintro ⟨-, -, ⟨hname, -⟩ | ⟨hname, -⟩⟩
  · exact absurd hname (by decide)
  · exact absurd hname (by decide)

/-- A path that is null is not the same as none if the file is named under the other key. -/
theorem null_hides_file :
    let raw := "\x7b\"symbols\":[\x7b\"name\":\"f\",\"file_path\":null,\"file\":\"a.py\"\x7d]\x7d"
    let raw' := "\x7b\"symbols\":[\x7b\"name\":\"f\",\"file\":\"a.py\"\x7d]\x7d"
    ∃ root fields, Json.parse (Fence.strip raw) = .ok (.object root) ∧
      fieldsAt? root (.entry .symbols 0) = some fields ∧
      Json.lookup "file_path" fields = some .null ∧
      Json.parse (Fence.strip raw') =
        .ok (.object (dropAt root "file_path" (.entry .symbols 0))) ∧
      (parse raw).map (fun q => q.symbols.map (·.filePath)) = .ok [""] ∧
      (parse raw').map (fun q => q.symbols.map (·.filePath)) = .ok ["a.py"] ∧
      parse raw' ≠ parse raw := by
  intro raw raw'
  have hpath : (parse raw).map (fun q => q.symbols.map (·.filePath)) = .ok [""] := by
    unfold raw
    cbv
  have hpath' : (parse raw').map (fun q => q.symbols.map (·.filePath)) = .ok ["a.py"] := by
    unfold raw'
    cbv
  refine ⟨[("symbols", .list [.object
    [("file", .text "a.py"), ("file_path", .null), ("name", .text "f")]])], _, ?_, rfl, rfl, ?_,
    hpath, hpath', fun hsame => ?_⟩
  · unfold raw
    cbv
  · unfold raw'
    cbv
  · rw [hsame, hpath] at hpath'
    simp at hpath'

end Payload

end FossilRecord
