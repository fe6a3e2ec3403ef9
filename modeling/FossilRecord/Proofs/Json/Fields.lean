import FossilRecord.Proofs.Json.Canonical

/-!
# Fields in any order

A record is written with its fields in an order of its own.  What is read from the text has the
fields in ascending order of their names, at every depth (`sorted`): as no name occurs twice,
nothing is lost, and a lookup by name finds the same value.
-/

namespace FossilRecord.Json

/-! ## Lookups -/

theorem mem_of_lookup {key : String} {fields : List (String × Json)} {j : Json}
    (h : lookup key fields = some j) : (key, j) ∈ fields := by
  induction fields with
  | nil => cases h
  | cons f fields ih =>
      obtain ⟨n, v⟩ := f
      rw [lookup] at h
      split at h
      · rename_i hname
        cases h
        rw [hname]
        exact List.mem_cons_self
      · exact List.mem_cons_of_mem _ (ih h)

theorem Fits.lookup {depth : Nat} {fields : List (String × Json)} (h : Fits depth (.object fields))
    {key : String} {j : Json} (hj : Json.lookup key fields = some j) : Fits depth j := by
  cases h with
  | object _ hfields => exact (hfields _ (mem_of_lookup hj)).mono (by omega)

theorem Fits.item {depth : Nat} {items : List Json} (h : Fits depth (.list items)) {j : Json}
    (hj : j ∈ items) : Fits depth j := by
  cases h with
  | list hitems => exact (hitems j hj).mono (by omega)

/-- No name occurs twice. -/
def NamesApart (fields : List (String × Json)) : Prop :=
  (fields.map Prod.fst).Nodup

theorem lookup_of_mem {fields : List (String × Json)} (h : NamesApart fields) {f : String × Json}
    (hf : f ∈ fields) : lookup f.1 fields = some f.2 := by
  induction fields with
  | nil => cases hf
  | cons g fields ih =>
      rw [NamesApart, List.map_cons, List.nodup_cons] at h
      rcases List.mem_cons.mp hf with rfl | hf
      · simp [lookup]
      · have hne : g.1 ≠ f.1 := fun heq => h.1 (heq ▸ List.mem_map_of_mem hf)
        rw [lookup, if_neg hne]
        exact ih h.2 hf

/-- Lookups do not depend on the order of the fields. -/
theorem lookup_perm {fields others : List (String × Json)} (h : fields.Perm others)
    (hapart : NamesApart others) (name : String) : lookup name fields = lookup name others := by
  have hfields : NamesApart fields := (h.map Prod.fst).nodup_iff.mpr hapart
  cases hfound : lookup name others with
  | some j => exact lookup_of_mem hfields (h.mem_iff.mpr (mem_of_lookup hfound))
  | none =>
      rw [Option.eq_none_iff_forall_ne_some]
      intro j hj
      have hfound' := lookup_of_mem hapart (h.mem_iff.mp (mem_of_lookup hj))
      rw [hfound] at hfound'
      cases hfound'

/-! ## Sorting -/

theorem setField_perm {name : String} (value : Json) {fields : List (String × Json)}
    (h : ∀ f ∈ fields, f.1 ≠ name) : (setField name value fields).Perm ((name, value) :: fields) := by
  induction fields with
  | nil => exact List.Perm.refl _
  | cons f fields ih =>
      rw [setField, if_neg (h f (by simp)).symm]
      split_ifs
      · exact List.Perm.refl _
      · exact ((ih fun g hg => h g (by simp [hg])).cons f).trans (List.Perm.swap _ _ _)

/-- Sorting keeps all fields if no name occurs twice. -/
theorem sortFields_perm {fields : List (String × Json)} (h : NamesApart fields) :
    (sortFields fields).Perm fields := by
  have hfold : ∀ acc rest : List (String × Json), NamesApart (acc ++ rest) →
      (rest.foldl (fun acc f => setField f.1 f.2 acc) acc).Perm (acc ++ rest) := by
    intro acc rest
    induction rest generalizing acc with
    | nil => simp
    | cons f rest ih =>
        intro hapart
        have hnew : ∀ g ∈ acc, g.1 ≠ f.1 := by
          intro g hg
          rw [NamesApart, List.map_append, List.nodup_append] at hapart
          exact hapart.2.2 g.1 (List.mem_map_of_mem hg) f.1 (by simp)
        have hset := setField_perm f.2 hnew
        -- the field that is set counts as one of those that come
        have hmoved : (setField f.1 f.2 acc ++ rest).Perm (acc ++ f :: rest) :=
          (hset.append_right rest).trans List.perm_middle.symm
        rw [List.foldl_cons]
        exact (ih _ ((hmoved.map Prod.fst).nodup_iff.mpr hapart)).trans hmoved
  exact hfold [] fields h

mutual

/-- A value with the fields of all its objects in ascending order of their names. -/
def sorted : Json → Json
  | .list items => .list (sortedItems items)
  | .object fields => ofFields (sortedFields fields)
  | j => j

/-- Items with the fields of all objects in order. -/
def sortedItems : List Json → List Json
  | [] => []
  | j :: rest => sorted j :: sortedItems rest

/-- Fields with those of all objects in their values in order. -/
def sortedFields : List (String × Json) → List (String × Json)
  | [] => []
  | (n, j) :: rest => (n, sorted j) :: sortedFields rest

end

theorem sortedItems_eq_map (items : List Json) : sortedItems items = items.map sorted := by
  induction items with
  | nil => rfl
  | cons j rest ih => rw [sortedItems, ih, List.map_cons]

theorem sortedFields_eq_map (fields : List (String × Json)) :
    sortedFields fields = fields.map fun f => (f.1, sorted f.2) := by
  induction fields with
  | nil => rfl
  | cons f rest ih => rw [sortedFields, ih, List.map_cons]

@[simp] theorem sorted_text (s : String) : sorted (.text s) = .text s := by
  simp [sorted]

@[simp] theorem sorted_int (n : Int) : sorted (.int n) = .int n := by
  simp [sorted, int]

@[simp] theorem sorted_nat (n : Nat) : sorted (.nat n) = .nat n := by
  simp [sorted, nat]

@[simp] theorem sorted_optText (s : Option String) : sorted (.optText s) = .optText s := by
  cases s <;> simp [sorted, optText]

@[simp] theorem sorted_optInt (n : Option Int) : sorted (.optInt n) = .optInt n := by
  cases n <;> simp [sorted, optInt, int]

@[simp] theorem sorted_optNat (n : Option Nat) : sorted (.optNat n) = .optNat n := by
  cases n <;> simp [sorted, optNat, nat]

@[simp] theorem sorted_texts (items : List String) : sorted (.texts items) = .texts items := by
  have hitems : (items.map Json.text).map sorted = items.map Json.text := by
    rw [List.map_map]
    exact List.map_congr_left fun s _ => sorted_text s
  rw [texts, sorted, sortedItems_eq_map, hitems]

/-- What a reader gives is in order already. -/
theorem sorted_of_fits {depth : Nat} {j : Json} (h : Fits depth j) : j.sorted = j := by
  induction h with
  | null | bool | whole | real | text => simp [sorted]
  | @list _ items _ ih =>
      rw [sorted, sortedItems_eq_map, List.map_congr_left ih, List.map_id']
  | @object _ fields hsorted _ ih =>
      have hfields : (fields.map fun f => (f.1, sorted f.2)) = fields := by
        rw [List.map_congr_left fun f hf => by rw [ih f hf], List.map_id']
      rw [sorted, sortedFields_eq_map, hfields, ofFields, sortFields_of_ascending hsorted]

/-! ## Written in one order and read in another -/

/-- Values that are read back from their text up to the order of fields. -/
inductive Writable : Nat → Json → Prop
  | fits {depth : Nat} {j : Json} (h : Fits depth j) (hwhole : j.isWhole = true) :
      Writable depth j
  | list {depth : Nat} {items : List Json} (hitems : ∀ j ∈ items, Writable (depth + 1) j) :
      Writable (depth + 2) (.list items)
  | object {depth : Nat} {fields : List (String × Json)} (hapart : NamesApart fields)
      (hfields : ∀ f ∈ fields, Writable (depth + 1) f.2) : Writable (depth + 2) (.object fields)

theorem readValue_sorted {depth : Nat} {j : Json} (h : Writable depth j) (rest : List Char)
    (hrest : EndsNumber rest) :
    readValue depth (compactChars j ++ rest) = .ok (j.sorted, rest) := by
  induction h generalizing rest with
  | @fits _ j h hwhole =>
      rw [readValue_compactChars h rest hrest, readBack_of_isWhole j hwhole, sorted_of_fits h]
  | list _ ih => rw [readValue_list ih, sorted, sortedItems_eq_map]
  | object _ _ ih => rw [readValue_object ih, sorted, sortedFields_eq_map]

/-- A value is read back from its text up to the order of fields. -/
theorem parse_compact_sorted {j : Json} (h : Writable depthLimit j) :
    parse j.compact = .ok j.sorted := by
  have hread := readValue_sorted h [] endsNumber_nil
  rw [List.append_nil] at hread
  rw [parse, parseChars, readWhole, compact, String.toList_ofList, hread]
  rfl

section Scalars

variable (depth : Nat)

theorem writable_text (s : String) : Writable depth (.text s) :=
  .fits (.text depth s) rfl

theorem writable_int {n : Int} (hn : FitsInt n) : Writable depth (.int n) :=
  .fits (.whole depth hn) rfl

theorem writable_optText (s : Option String) : Writable depth (.optText s) := by
  cases s with
  | none => exact .fits (.null depth) rfl
  | some s => exact writable_text depth s

theorem writable_optInt {n : Option Int} (hn : ∀ k ∈ n, FitsInt k) :
    Writable depth (.optInt n) := by
  cases n with
  | none => exact .fits (.null depth) rfl
  | some n => exact writable_int depth (hn n rfl)

theorem writable_nat {n : Nat} (hn : n < 2 ^ 64) : Writable depth (.nat n) :=
  .fits (.whole depth ⟨by omega, by omega⟩) rfl

theorem writable_optNat {n : Option Nat} (hn : ∀ k ∈ n, k < 2 ^ 64) :
    Writable depth (.optNat n) := by
  cases n with
  | none => exact .fits (.null depth) rfl
  | some n => exact writable_nat depth (hn n rfl)

theorem writable_texts (items : List String) : Writable (depth + 2) (.texts items) := by
  refine .list fun j hj => ?_
  obtain ⟨s, -, rfl⟩ := List.mem_map.mp hj
  exact writable_text (depth + 1) s

end Scalars

end FossilRecord.Json
