import FossilRecord.Proofs.Instant.Relaxed
import FossilRecord.Proofs.Json.Layout
import FossilRecord.Proofs.Uuid

/-!
# Stable forms

A value that is decoded in whatever spelling is encoded in one form, and that form is a fixed point:
it is decoded to the same value.  A record may stand in the order in which it is written, or with
its fields sorted as they are read from the text of it.
-/

namespace FossilRecord.Json

/-- Decoding and then encoding gives a form that is decoded to the same value again. -/
structure IsStable {α : Type} (decode : Decoder α) (encode : α → Json) : Prop where
  again {v : Json} {x : α} : decode v = .ok x → decode (encode x) = .ok x
  sorted {depth : Nat} {v : Json} {x : α} :
    Fits depth v → decode v = .ok x → decode (encode x).sorted = .ok x
  /-- The sorted form is the one that the text of the other is read as. -/
  text {v : Json} {x : α} : Fits depthLimit v → v.isWhole = true → decode v = .ok x →
    parse (encode x).compact = .ok (encode x).sorted

/-- The fields of an object. -/
def entries (j : Json) : List (String × Json) :=
  j.fields?.getD []

section

variable {α : Type} {decode : Decoder α} {encode : α → Json}

/-- What is encoded as one text is stable if it is decoded from that. -/
theorem isStable_of_text (label : α → String) (hencode : ∀ x, encode x = .text (label x))
    (hagain : ∀ {v x}, decode v = .ok x → decode (.text (label x)) = .ok x) :
    IsStable decode encode where
  again h := by
    rw [hencode]
    exact hagain h
  sorted _ h := by
    rw [hencode, sorted_text]
    exact hagain h
  text _ _ _ := by
    rw [hencode]
    exact parse_compact_sorted (writable_text depthLimit _)

/-- A record is stable if it is decoded from its fields in any order, and sorting leaves the values
of its fields as they are. -/
theorem isStable_of_record (hobject : ∀ x, encode x = .object (encode x).entries)
    (hapart : ∀ x, NamesApart (encode x).entries)
    (hperm : ∀ {v x fields}, decode v = .ok x → fields.Perm (encode x).entries →
      decode (.object fields) = .ok x)
    (hsorted : ∀ {depth v x}, Fits depth v → decode v = .ok x →
      ∀ f ∈ (encode x).entries, f.2.sorted = f.2)
    (hwritable : ∀ {v x}, Fits depthLimit v → v.isWhole = true → decode v = .ok x →
      ∀ f ∈ (encode x).entries, Writable (depthLimit - 1) f.2) :
    IsStable decode encode where
  again h := by
    rw [hobject]
    exact hperm h (List.Perm.refl _)
  sorted {depth v x} hfits h := by
    have hsame : sortedFields (encode x).entries = (encode x).entries := by
      rw [sortedFields_eq_map]
      have hall : ∀ f ∈ (encode x).entries, (f.1, f.2.sorted) = f := fun f hf => by
        rw [hsorted hfits h f hf]
      rw [List.map_congr_left hall, List.map_id']
    rw [hobject, Json.sorted, hsame]
    exact hperm h (sortFields_perm (hapart x))
  text hfits hwhole h := by
    refine parse_compact_sorted ?_
    rw [hobject]
    exact .object (hapart _) (hwritable hfits hwhole h)

end

/-! ## Identifiers and points in time -/

@[simp] theorem decodeUuid_toString (u : Uuid) : decodeUuid (.text (toString u)) = .ok u := by
  rw [decodeUuid, Uuid.parse_toString]

@[simp] theorem decodeOption_uuid (u : Option Uuid) :
    decodeOption decodeUuid (.optText (u.map toString)) = .ok u := by
  cases u with
  | none => rfl
  | some u => exact decodeOption_of_ok (by simp [optText]) (decodeUuid_toString u)

theorem inRange_of_decodeInstant {j : Json} {t : Instant} (h : decodeInstant j = .ok t) :
    t.InRange := by
  unfold decodeInstant at h
  split at h
  · rename_i s
    cases hread : Instant.parseRelaxed s with
    | error flaw =>
        rw [hread] at h
        cases h
    | ok u =>
        rw [hread] at h
        cases h
        exact Instant.inRange_of_parseRelaxed hread
  · cases h

theorem decodeInstant_toZulu {t : Instant} (ht : t.InRange) :
    decodeInstant (.text t.toZulu) = .ok t := by
  rw [decodeInstant, Instant.parseRelaxed_toZulu ht]
  rfl

theorem decodeOption_instant {t : Option Instant} (ht : ∀ u ∈ t, u.InRange) :
    decodeOption decodeInstant (.optText (t.map Instant.toZulu)) = .ok t := by
  cases t with
  | none => rfl
  | some u => exact decodeOption_of_ok (by simp [optText]) (decodeInstant_toZulu (ht u rfl))

/-! ## Options, free values and lists -/

/-- What is present was read by the decoder itself. -/
theorem of_decodeOption {α : Type} {d : Decoder α} {j : Json} {x : α}
    (h : decodeOption d j = .ok (some x)) : d j = .ok x := by
  unfold decodeOption at h
  split at h
  · cases h
  · cases hx : d j with
    | error e =>
        rw [hx] at h
        cases h
    | ok y =>
        rw [hx] at h
        cases h
        rfl

theorem range_of_decodeInt {j : Json} {n : Int} (h : decodeInt j = .ok n) :
    minInt64 ≤ n ∧ n ≤ maxInt64 := by
  unfold decodeInt at h
  split at h
  · split at h
    · rename_i hrange
      cases h
      exact hrange
    · cases h
  · cases h

theorem fitsInt_of_range {n : Int} (h : minInt64 ≤ n ∧ n ≤ maxInt64) : FitsInt n := by
  have hmin : minInt64 = -2 ^ 63 := rfl
  have hmax : maxInt64 = 2 ^ 63 - 1 := rfl
  exact ⟨by omega, by omega⟩

theorem lt_of_natAs {expected : String} {depth : Nat} {j : Json} {n : Nat} (hfits : Fits depth j)
    (h : natAs expected j = .ok n) : n < 2 ^ 64 := by
  unfold natAs at h
  split at h
  · split at h
    · cases h
      cases hfits with
      | whole _ hn =>
          have hlast := hn.2
          omega
    · cases h
  · cases h

theorem of_decodeAny {v j : Json} (h : decodeAny v = .ok (some j)) : v = j ∧ j ≠ .null := by
  unfold decodeAny at h
  split at h
  · cases h
  · rename_i hnull
    cases h
    exact ⟨rfl, hnull⟩

theorem decodeAny_getD {j : Option Json} (h : ∀ k ∈ j, k ≠ .null) :
    decodeAny (j.getD .null) = .ok j := by
  cases j with
  | none => rfl
  | some k =>
      have hk := h k rfl
      cases k <;> first | rfl | exact absurd rfl hk

theorem decodeList_map {α : Type} {d : Decoder α} {write : α → Json} {items : List α}
    (h : ∀ x ∈ items, d (write x) = .ok x) : decodeList d (.list (items.map write)) = .ok items := by
  have hall : ∀ j ∈ items.map write, ∀ x ∈ items, j = write x → d j = .ok x := by
    rintro j - x hx rfl
    exact h x hx
  rw [decodeList, List.mapM_map]
  have hmap := mapM_eq_ok (f := d ∘ write) (g := id) h
  rwa [List.map_id] at hmap

@[simp] theorem decodeList_texts (items : List String) :
    decodeList decodeText (.texts items) = .ok items :=
  decodeList_map fun _ _ => rfl

/-- Every item of a list that was read stands in the value. -/
theorem part_of_decodeList {α : Type} {d : Decoder α} {v : Json} {xs : List α}
    (h : decodeList d v = .ok xs) {x : α} (hx : x ∈ xs) : ∃ j, PartOf j v ∧ d j = .ok x := by
  unfold decodeList at h
  split at h
  · obtain ⟨j, hj, hread⟩ := exists_of_mem_mapM h hx
    exact ⟨j, .item hj, hread⟩
  · cases h

end FossilRecord.Json
