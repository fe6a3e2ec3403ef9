import FossilRecord.Proofs.Json.Fields
import Mathlib.Data.List.Perm.Subperm
import Mathlib.Data.List.Sort

/-!
# Values that are the same

The order in which the fields of an object were given says nothing.  `same` compares values by what
their objects hold under each name.  Values whose numbers are whole are written alike, once their
fields are in order, exactly if they are the same (`compact_sorted_eq_iff`).
-/

namespace FossilRecord.Json

mutual

/-- Whether two values are the same, in whatever order the fields of their objects were given. -/
def same : Json → Json → Bool
  | .null, .null => true
  | .bool a, .bool b => a == b
  | .number n, .number m => decide (n = m)
  | .text s, .text t => s == t
  | .list items, .list others => sameItems items others
  | .object fields, .object others =>
      fields.length == others.length && sameFields fields others
  | _, _ => false

/-- Whether two lists have the same values one by one. -/
def sameItems : List Json → List Json → Bool
  | [], [] => true
  | j :: rest, k :: others => same j k && sameItems rest others
  | _, _ => false

/-- Whether every field is found among others, under its name and with the same value. -/
def sameFields : List (String × Json) → List (String × Json) → Bool
  | [], _ => true
  | (n, j) :: rest, others =>
      (match lookup n others with
      | some k => same j k
      | none => false) && sameFields rest others

end

/-- The values that can be given: numbers are whole, and no object has a name twice. -/
inductive IsGiven : Json → Prop
  | null : IsGiven .null
  | bool (b : Bool) : IsGiven (.bool b)
  | number {n : Number} (hfits : n.Fits) (hwhole : isWhole (.number n) = true) :
      IsGiven (.number n)
  | text (s : String) : IsGiven (.text s)
  | list {items : List Json} (hitems : ∀ j ∈ items, IsGiven j) : IsGiven (.list items)
  | object {fields : List (String × Json)} (hapart : NamesApart fields)
      (hfields : ∀ f ∈ fields, IsGiven f.2) : IsGiven (.object fields)

/-! ## Values with their fields in order -/

theorem areWhole_of_forall {items : List Json} (h : ∀ j ∈ items, j.isWhole = true) :
    areWhole items = true := by
  induction items with
  | nil => rfl
  | cons j rest ih =>
      rw [areWhole, Bool.and_eq_true]
      exact ⟨h j (by simp), ih fun k hk => h k (by simp [hk])⟩

theorem fieldsAreWhole_of_forall {fields : List (String × Json)}
    (h : ∀ f ∈ fields, f.2.isWhole = true) : fieldsAreWhole fields = true := by
  induction fields with
  | nil => rfl
  | cons f rest ih =>
      rw [fieldsAreWhole, Bool.and_eq_true]
      exact ⟨h f (by simp), ih fun g hg => h g (by simp [hg])⟩

/-- There is a depth that fits several values, each of which fits some depth. -/
theorem exists_fits {items : List Json} (h : ∀ j ∈ items, ∃ depth, Fits depth j) :
    ∃ depth, ∀ j ∈ items, Fits (depth + 1) j := by
  induction items with
  | nil => exact ⟨0, by simp⟩
  | cons j rest ih =>
      obtain ⟨first, hfirst⟩ := h j (by simp)
      obtain ⟨depth, hrest⟩ := ih fun k hk => h k (by simp [hk])
      refine ⟨max first depth, fun k hk => ?_⟩
      rcases List.mem_cons.mp hk with rfl | hk
      · exact hfirst.mono (by omega)
      · exact (hrest k hk).mono (by omega)

theorem namesApart_sortedFields {fields : List (String × Json)} (h : NamesApart fields) :
    NamesApart (sortedFields fields) := by
  rw [sortedFields_eq_map, NamesApart, List.map_map]
  exact h

/-- With its fields in order, a value that can be given is one that readers give. -/
theorem IsGiven.canonical {j : Json} (h : IsGiven j) :
    (∃ depth, Fits depth j.sorted) ∧ j.sorted.isWhole = true := by
  induction h with
  | null => exact ⟨⟨0, .null 0⟩, rfl⟩
  | bool b => exact ⟨⟨0, .bool 0 b⟩, rfl⟩
  | number hfits hwhole => exact ⟨⟨0, fits_number hfits 0⟩, hwhole⟩
  | text s => exact ⟨⟨0, .text 0 s⟩, rfl⟩
  | @list items _ ih =>
      rw [sorted, sortedItems_eq_map]
      have hfits : ∀ k ∈ items.map sorted, ∃ depth, Fits depth k := by
        intro k hk
        obtain ⟨j, hj, rfl⟩ := List.mem_map.mp hk
        exact (ih j hj).1
      obtain ⟨depth, hdepth⟩ := exists_fits hfits
      refine ⟨⟨depth + 2, .list hdepth⟩, areWhole_of_forall fun k hk => ?_⟩
      obtain ⟨j, hj, rfl⟩ := List.mem_map.mp hk
      exact (ih j hj).2
  | @object fields hapart _ ih =>
      rw [sorted, ofFields]
      obtain ⟨hascending, hmem⟩ := sortFields_spec (sortedFields fields)
      have hfield : ∀ g ∈ sortFields (sortedFields fields), ∃ f ∈ fields, g.2 = f.2.sorted := by
        intro g hg
        have hg := hmem g hg
        rw [sortedFields_eq_map] at hg
        obtain ⟨f, hf, rfl⟩ := List.mem_map.mp hg
        exact ⟨f, hf, rfl⟩
      have hfits : ∀ k ∈ (sortFields (sortedFields fields)).map Prod.snd,
          ∃ depth, Fits depth k := by
        intro k hk
        obtain ⟨g, hg, rfl⟩ := List.mem_map.mp hk
        obtain ⟨f, hf, hvalue⟩ := hfield g hg
        rw [hvalue]
        exact (ih f hf).1
      obtain ⟨depth, hdepth⟩ := exists_fits hfits
      refine ⟨⟨depth + 2, .object hascending fun g hg => ?_⟩,
        fieldsAreWhole_of_forall fun g hg => ?_⟩
      · exact hdepth g.2 (List.mem_map_of_mem hg)
      · obtain ⟨f, hf, hvalue⟩ := hfield g hg
        rw [hvalue]
        exact (ih f hf).2

/-- Values that readers give are written alike only if they are equal. -/
theorem compact_injective {depth other : Nat} {j k : Json} (hj : Fits depth j)
    (hjwhole : j.isWhole = true) (hk : Fits other k) (hkwhole : k.isWhole = true)
    (h : j.compact = k.compact) : j = k := by
  have hchars : compactChars j = compactChars k := String.ofList_injective h
  have hfirst := readValue_compactChars (hj.mono (Nat.le_max_left depth other)) [] endsNumber_nil
  have hsecond := readValue_compactChars (hk.mono (Nat.le_max_right depth other)) [] endsNumber_nil
  rw [hchars, hsecond, readBack_of_isWhole j hjwhole, readBack_of_isWhole k hkwhole] at hfirst
  cases hfirst
  rfl

/-! ## The same fields -/

theorem sameFields_iff {fields others : List (String × Json)} :
    sameFields fields others = true ↔
      ∀ f ∈ fields, ∃ k, lookup f.1 others = some k ∧ same f.2 k = true := by
  induction fields with
  | nil => simp [sameFields]
  | cons f rest ih =>
      rw [sameFields, Bool.and_eq_true, ih, List.forall_mem_cons]
      refine and_congr_left fun _ => ?_
      cases lookup f.1 others <;> simp

/-- Fields in order are equal exactly if the fields were the same in some order. -/
theorem sortFields_eq_iff {fields others : List (String × Json)} (hfields : NamesApart fields)
    (hothers : NamesApart others) :
    sortFields fields = sortFields others ↔ fields.Perm others := by
  constructor
  · intro h
    exact (sortFields_perm hfields).symm.trans (h ▸ sortFields_perm hothers)
  · intro h
    have hperm := (sortFields_perm hfields).trans (h.trans (sortFields_perm hothers).symm)
    have hfirst := List.pairwise_map.mp (sortFields_spec fields).1
    have hsecond := List.pairwise_map.mp (sortFields_spec others).1
    exact hperm.eq_of_pairwise (fun a b _ _ hab hba => absurd hab (lt_asymm hba)) hfirst hsecond

/-- As many fields, each of which is among others, are those others in some order. -/
theorem perm_iff_of_namesApart {fields others : List (String × Json)} (hfields : NamesApart fields) :
    fields.Perm others ↔ fields.length = others.length ∧ ∀ f ∈ fields, f ∈ others := by
  constructor
  · exact fun h => ⟨h.length_eq, fun f hf => h.subset hf⟩
  · rintro ⟨hlength, hsub⟩
    exact (List.Nodup.subperm hfields.of_map hsub).perm_of_length_le hlength.ge

/-- Two lists have the same items one by one exactly if they are equal once fields are in order. -/
theorem sameItems_iff {items others : List Json}
    (ih : ∀ j ∈ items, ∀ k ∈ others, same j k = true ↔ j.sorted = k.sorted) :
    sameItems items others = true ↔ items.map sorted = others.map sorted := by
  induction items generalizing others with
  | nil => cases others <;> simp [sameItems]
  | cons j rest ihrest =>
      cases others with
      | nil => simp [sameItems]
      | cons k others =>
          rw [sameItems, Bool.and_eq_true, List.map_cons, List.map_cons, List.cons.injEq,
            ih j (by simp) k (by simp),
            ihrest fun i hi l hl => ih i (by simp [hi]) l (by simp [hl])]

/-- Values are the same exactly if they are equal once fields are in order. -/
theorem IsGiven.same_iff {a b : Json} (ha : IsGiven a) (hb : IsGiven b) :
    a.same b = true ↔ a.sorted = b.sorted := by
  induction ha generalizing b with
  | null | bool | number | text => cases hb <;> simp [same, sorted, ofFields]
  | list _ ih =>
      cases hb with
      | list hothers =>
          rw [same, sameItems_iff fun j hj k hk => ih j hj (hothers k hk), sorted, sorted,
            sortedItems_eq_map, sortedItems_eq_map, Json.list.injEq]
      | _ => simp [same, sorted, ofFields]
  | @object fields hapart _ ih =>
      cases hb with
      | @object others hothersApart hothers =>
          have hfound : ∀ f ∈ fields,
              (∃ k, lookup f.1 others = some k ∧ same f.2 k = true) ↔
                (f.1, f.2.sorted) ∈ sortedFields others := by
            intro f hf
            rw [sortedFields_eq_map, List.mem_map]
            constructor
            · rintro ⟨k, hk, hsame⟩
              have hmem := mem_of_lookup hk
              exact ⟨(f.1, k), hmem, by rw [(ih f hf (hothers _ hmem)).mp hsame]⟩
            · rintro ⟨g, hg, heq⟩
              obtain ⟨hname, hvalue⟩ := Prod.mk.inj heq
              refine ⟨g.2, hname ▸ lookup_of_mem hothersApart hg, ?_⟩
              exact (ih f hf (hothers g hg)).mpr hvalue.symm
          have hlength : ∀ gs : List (String × Json), (sortedFields gs).length = gs.length := by
            intro gs
            rw [sortedFields_eq_map, List.length_map]
          rw [same, Bool.and_eq_true, beq_iff_eq, sameFields_iff, sorted, sorted, ofFields, ofFields,
            Json.object.injEq, sortFields_eq_iff (namesApart_sortedFields hapart)
              (namesApart_sortedFields hothersApart),
            perm_iff_of_namesApart (namesApart_sortedFields hapart), hlength, hlength]
          refine and_congr_right fun _ => ?_
          rw [sortedFields_eq_map fields, List.forall_mem_map]
          exact forall₂_congr hfound
      | _ => simp [same, sorted, ofFields]

/-- Values are written alike, with their fields in order, exactly if they are the same. -/
theorem IsGiven.compact_sorted_eq_iff {a b : Json} (ha : IsGiven a) (hb : IsGiven b) :
    a.sorted.compact = b.sorted.compact ↔ a.same b = true := by
  obtain ⟨⟨_, hafits⟩, hawhole⟩ := ha.canonical
  obtain ⟨⟨_, hbfits⟩, hbwhole⟩ := hb.canonical
  rw [ha.same_iff hb]
  exact ⟨compact_injective hafits hawhole hbfits hbwhole, congrArg compact⟩

example : same (.object [("a", .int 1), ("b", .null)]) (.object [("b", .null), ("a", .int 1)]) =
    true := by
  decide

end FossilRecord.Json
