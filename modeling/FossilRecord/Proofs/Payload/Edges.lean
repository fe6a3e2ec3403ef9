import FossilRecord.Proofs.Payload.Holding
import FossilRecord.Proofs.Related

/-!
# The names that relationships list

Relationships are received as an object or as a text that holds one.  What is looked up in them is
said here in terms of that object (`Related`): each list gives the names in it one after the other,
and leaves out only empty ones.  Writing an object and reading it again may change a number with a
fraction in it, but no name.
-/

namespace FossilRecord

namespace Json

theorem lookup_readBackFields (key : String) (fields : List (String × Json)) :
    lookup key (readBackFields fields) = (lookup key fields).map readBack := by
  induction fields with
  | nil => rfl
  | cons f rest ih =>
      obtain ⟨name, j⟩ := f
      rw [readBackFields, lookup, lookup]
      split
      · rfl
      · exact ih

@[simp] theorem text?_readBack (j : Json) : text? j.readBack = text? j := by
  cases j <;> rfl

end Json

namespace Relationships

/-! ## Names as they were received -/

/-- Whether names are those under a key: there are none if the field is absent or null, and else it
is a list of texts, of which all that are not empty are names. -/
def Lists (fields : List (String × Json)) (key : String) (names : List String) : Prop :=
  match Json.lookup key fields with
  | Option.none | some .null => names = []
  | some j => ∃ listed, j = .texts listed ∧ names = listed.filter (· ≠ "")

/-- Whether a value is an object with some fields, or a text that holds such an object. -/
def HasFields (received : Json) (fields : List (String × Json)) : Prop :=
  received = .object fields ∨ ∃ s, received = .text s ∧ Json.parse s = .ok (.object fields)

/-- Whether the names of three lists occur in ascending order and each once. -/
def IsUnion (r : Relationships) (names : List String) : Prop :=
  names.Pairwise (· < ·) ∧ ∀ x, x ∈ names ↔ x ∈ r.calls ∨ x ∈ r.calledBy ∨ x ∈ r.dependsOn

/-- Whether related names are those of the relationships that were received, if any. -/
structure Related (received : Option Json) (r : Relationships) : Prop where
  absent : received = Option.none → r = none
  /-- They are what a reader of the value itself makes of it. -/
  ofValue : ∀ j ∈ received, r = .ofValue j
  lists : ∀ j ∈ received, ∃ fields, HasFields j fields ∧ Lists fields "calls" r.calls ∧
    Lists fields "called_by" r.calledBy ∧ Lists fields "depends_on" r.dependsOn
  referenced : IsUnion r r.referencedNames

section

variable {fields : List (String × Json)}

theorem isUnion_referencedNames (r : Relationships) : IsUnion r r.referencedNames :=
  ⟨sortedNames_pairwise r.allNames, fun _ => mem_referencedNames⟩

/-- A list in which every item is a text is one of texts. -/
theorem exists_texts {items : List Json} (h : ∀ j ∈ items, Payload.IsText j) :
    ∃ listed, Json.list items = .texts listed := by
  induction items with
  | nil => exact ⟨[], rfl⟩
  | cons j rest ih =>
      obtain ⟨hj, hrest⟩ := List.forall_mem_cons.mp h
      obtain ⟨listed, hlisted⟩ := ih hrest
      cases j with
      | text s => exact ⟨s :: listed, congrArg Json.list (congrArg _ (Json.list.inj hlisted))⟩
      | null | bool | number | list | object => cases hj

/-- A field for names gives those that its list holds. -/
theorem lists_namesUnder {key : String}
    (h : Payload.FieldIs (Payload.IsListOf Payload.IsText) fields key) :
    Lists fields key (namesUnder fields key) := by
  unfold Lists namesUnder
  cases hfound : Json.lookup key fields with
  | none => rfl
  | some j =>
      rcases h j hfound with rfl | hlist
      · rfl
      · cases j with
        | list items =>
            obtain ⟨listed, hlisted⟩ := exists_texts hlist
            refine ⟨listed, hlisted, ?_⟩
            have hitems : items.filterMap Json.text? = listed := by
              rw [Json.list.inj hlisted, List.filterMap_map]
              exact List.filterMap_some
            simp only [Option.bind_some, Json.items?, hitems]
        | null | bool | number | text | object => cases hlist

/-- Relationships that are accepted give the names in their lists. -/
theorem related_ofValue {j : Json} (h : Payload.IsRelationships j) :
    Related (some j) (.ofValue j) := by
  have hfields : ∃ fields, HasFields j fields ∧ Payload.NameLists fields ∧
      fieldsOf? j = some fields := by
    cases j with
    | object fields => exact ⟨fields, .inl rfl, h, rfl⟩
    | text s =>
        obtain ⟨fields, hparse, hlists⟩ := h
        exact ⟨fields, .inr ⟨s, rfl, hparse⟩, hlists, by rw [fieldsOf?, hparse]⟩
    | null | bool | number | list => cases h
  obtain ⟨fields, hreceived, hlists, hfields⟩ := hfields
  have hvalue : ofValue j = ofFields fields := by rw [ofValue, hfields]
  rw [hvalue]
  refine ⟨nofun, ?_, ?_, isUnion_referencedNames _⟩
  · rintro _ ⟨⟩
    exact hvalue.symm
  · rintro _ ⟨⟩
    exact ⟨fields, hreceived, lists_namesUnder (hlists _ (by simp)),
      lists_namesUnder (hlists _ (by simp)), lists_namesUnder (hlists _ (by simp))⟩

theorem related_none : Related Option.none none :=
  ⟨fun _ => rfl, nofun, nofun, isUnion_referencedNames _⟩

/-! ## Names in an object that was written -/

theorem namesUnder_readBackFields (key : String) :
    namesUnder (Json.readBackFields fields) key = namesUnder fields key := by
  unfold namesUnder
  rw [Json.lookup_readBackFields]
  cases Json.lookup key fields with
  | none => rfl
  | some j =>
      cases j with
      | list items =>
          simp only [Option.map_some, Option.bind_some, Json.readBack, Json.items?,
            Json.readBackItems_eq_map, List.filterMap_map, Function.comp_def, Json.text?_readBack]
      | null | bool | number | text | object => rfl

/-- An object that is written and read again lists the same names. -/
theorem ofFields_readBackFields : ofFields (Json.readBackFields fields) = ofFields fields := by
  simp only [ofFields, namesUnder_readBackFields]

end

end Relationships

namespace Payload

/-- The entries for symbols that have a name, in the order of the payload. -/
def namedEntries (root : List (String × Json)) : List Json :=
  (entriesOf root "symbols").filter isNamed

/-- The relationships of an entry, as they were received. -/
def receivedOf (fields : List (String × Json)) : Option Json :=
  (Json.lookup "relationships" fields).filter fun j => !j.isNull

theorem isSymbolEntry_of_namedEntries {root : List (String × Json)} (h : AreFields root) {j : Json}
    (hj : j ∈ namedEntries root) : IsSymbolEntry j ∧ isNamed j = true := by
  obtain ⟨hentry, hnamed⟩ := List.mem_filter.mp hj
  refine ⟨?_, hnamed⟩
  unfold entriesOf at hentry
  split at hentry
  · rename_i items hfound
    rcases h.symbols _ hfound with hnull | hlist
    · cases hnull
    · exact hlist j hentry
  · cases hentry

theorem isRelationships_of_received {fields : List (String × Json)} {j : Json}
    (h : FieldIs IsRelationships fields "relationships") (hj : j ∈ receivedOf fields) :
    IsRelationships j := by
  obtain ⟨hfound, hnull⟩ := Option.mem_filter_iff.mp hj
  rcases h j hfound with rfl | hj
  · cases hnull
  · exact hj

end Payload

end FossilRecord
