import FossilRecord.Json.Decode
import FossilRecord.Proofs.Json.Fields

/-!
# Records read from values

A record takes what it holds from the parts of the value that it is read from.  It is read back from
the object that it is written as, in whatever order the fields of that stand.
-/

namespace FossilRecord.Json

/-! ## What a record is made of -/

/-- A value that stands in an object or a list. -/
inductive PartOf (j : Json) : Json → Prop
  | field {name : String} {fields : List (String × Json)} (h : (name, j) ∈ fields) :
      PartOf j (.object fields)
  | item {items : List Json} (h : j ∈ items) : PartOf j (.list items)

theorem PartOf.fits {j v : Json} (h : PartOf j v) {depth : Nat} (hv : Fits depth v) :
    Fits (depth - 1) j := by
  cases h with
  | field h => cases hv with | object _ hfields => exact hfields _ h
  | item h => cases hv with | list hitems => exact hitems _ h

theorem isWhole_of_areWhole {items : List Json} (h : areWhole items = true) {j : Json}
    (hj : j ∈ items) : j.isWhole = true := by
  induction items with
  | nil => cases hj
  | cons k items ih =>
      rw [areWhole, Bool.and_eq_true] at h
      rcases List.mem_cons.mp hj with rfl | hj
      · exact h.1
      · exact ih h.2 hj

theorem isWhole_of_fieldsAreWhole {fields : List (String × Json)}
    (h : fieldsAreWhole fields = true) {f : String × Json} (hf : f ∈ fields) :
    f.2.isWhole = true := by
  induction fields with
  | nil => cases hf
  | cons g fields ih =>
      rw [fieldsAreWhole, Bool.and_eq_true] at h
      rcases List.mem_cons.mp hf with rfl | hf
      · exact h.1
      · exact ih h.2 hf

theorem PartOf.isWhole {j v : Json} (h : PartOf j v) (hv : v.isWhole = true) :
    j.isWhole = true := by
  cases h with
  | field h => exact isWhole_of_fieldsAreWhole (by simpa [Json.isWhole] using hv) h
  | item h => exact isWhole_of_areWhole (by simpa [Json.isWhole] using hv) h

section Found

variable {l : Layout} {v : Json} {found : Found} {name : String}

theorem Layout.partOf_of_lookup (hread : l.read v = .ok found) {j : Json}
    (h : lookup name found.fields = some j) : PartOf j v := by
  cases v with
  | object fields =>
      rw [Layout.read] at hread
      obtain ⟨_, -, hread⟩ := bind_eq_ok hread
      cases hread
      exact .field (mem_of_lookup h)
  | list items =>
      cases hread
      exact .item (List.of_mem_zip (mem_of_lookup h)).2
  | null | bool | number | text => cases hread

variable {α : Type} {x : α}

/-- A field that has to be there is read from a part of the value. -/
theorem Layout.part_of_required {d : Decoder α} (hread : l.read v = .ok found)
    (h : l.required found name d = .ok x) : ∃ j, PartOf j v ∧ d j = .ok x := by
  rw [Layout.required] at h
  split at h
  · rename_i j hj
    exact ⟨j, partOf_of_lookup hread hj, h⟩
  · split at h <;> cases h

/-- A field that may be left out is read from a part of the value if it is there. -/
theorem Layout.part_of_optional {d : Decoder (Option α)} (hread : l.read v = .ok found)
    (h : l.optional found name d = .ok (some x)) : ∃ j, PartOf j v ∧ d j = .ok (some x) := by
  rw [Layout.optional] at h
  split at h
  · rename_i j hj
    exact ⟨j, partOf_of_lookup hread hj, h⟩
  · split at h <;> cases h

end Found

/-! ## What a record is read from -/

theorem check_eq_ok {α : Type} {d : Decoder α} {j : Json} :
    check d j = .ok () ↔ ∃ x, d j = .ok x := by
  rw [check]
  cases d j <;> simp [Except.map]

/-- Fields in the order of a record, each of which passes its check. -/
def Layout.Takes (l : Layout) (given : List (String × Json)) : Prop :=
  List.Forall₂ (fun c f => c.1 = f.1 ∧ c.2 f.2 = .ok ()) l.fields given

theorem find?_of_takes {checks : List (String × (Json → Except String Unit))}
    {given : List (String × Json)}
    (h : List.Forall₂ (fun c f => c.1 = f.1 ∧ c.2 f.2 = .ok ()) checks given)
    (hapart : NamesApart given) {f : String × Json} (hf : f ∈ given) :
    ∃ c, checks.find? (·.1 = f.1) = some c ∧ c.2 f.2 = .ok () := by
  induction h with
  | nil => cases hf
  | @cons c g checks given hg _ ih =>
      rw [NamesApart, List.map_cons, List.nodup_cons] at hapart
      rcases List.mem_cons.mp hf with rfl | hf
      · exact ⟨c, by simp [hg.1], hg.2⟩
      · have hne : c.1 ≠ f.1 := fun heq =>
          hapart.1 (hg.1 ▸ heq ▸ List.mem_map_of_mem hf)
        obtain ⟨k, hk, hcheck⟩ := ih hapart.2 hf
        exact ⟨k, by rw [List.find?_cons_of_neg (by simpa using hne), hk], hcheck⟩

/-- The fields of a record are taken in any order. -/
theorem Layout.read_perm {l : Layout} {fields given : List (String × Json)}
    (h : fields.Perm given) (hapart : NamesApart given) (htakes : l.Takes given) :
    l.read (.object fields) = .ok ⟨false, fields⟩ := by
  have hcheck : ∀ f ∈ fields, l.checkField f = .ok () := by
    intro f hf
    obtain ⟨c, hfind, hc⟩ := find?_of_takes htakes hapart (h.mem_iff.mp hf)
    rw [Layout.checkField, hfind]
    exact hc
  have hall : ∀ fs : List (String × Json), (∀ f ∈ fs, l.checkField f = .ok ()) →
      (forIn fs PUnit.unit fun f _ => do
        l.checkField f
        pure (ForInStep.yield PUnit.unit) : Except String PUnit) = .ok PUnit.unit := by
    intro fs hfs
    induction fs with
    | nil => rfl
    | cons f fs ih =>
        rw [List.forIn_cons, hfs f (by simp)]
        exact ih fun g hg => hfs g (by simp [hg])
  simp only [Layout.read, hall fields hcheck]
  rfl

/-! ## Scalars -/

@[simp] theorem decodeText_text (s : String) : decodeText (.text s) = .ok s := rfl

@[simp] theorem decodePath_text (s : String) : decodePath (.text s) = .ok s := rfl

theorem decodeOption_of_ok {α : Type} {d : Decoder α} {j : Json} {x : α} (hnull : j ≠ .null)
    (h : d j = .ok x) : decodeOption d j = .ok (some x) := by
  rw [decodeOption, h]
  · rfl
  · exact hnull

@[simp] theorem decodeOption_optText (s : Option String) :
    decodeOption decodeText (.optText s) = .ok s := by
  cases s <;> rfl

theorem decodeInt_int {n : Int} (hn : minInt64 ≤ n ∧ n ≤ maxInt64) :
    decodeInt (.int n) = .ok n := by
  rw [int, decodeInt, if_pos hn]

theorem decodeOption_optInt {n : Option Int} (hn : ∀ k ∈ n, minInt64 ≤ k ∧ k ≤ maxInt64) :
    decodeOption decodeInt (.optInt n) = .ok n := by
  cases n with
  | none => rfl
  | some k => exact decodeOption_of_ok (by simp [optInt, int]) (decodeInt_int (hn k rfl))

@[simp] theorem natAs_nat (expected : String) (n : Nat) : natAs expected (.nat n) = .ok n := by
  rw [nat, natAs, if_pos (Int.natCast_nonneg n), Int.toNat_natCast]

@[simp] theorem decodeOption_optNat (expected : String) (n : Option Nat) :
    decodeOption (natAs expected) (.optNat n) = .ok n := by
  cases n with
  | none => rfl
  | some k => exact decodeOption_of_ok (by simp [optNat, nat]) (natAs_nat expected k)

end FossilRecord.Json
