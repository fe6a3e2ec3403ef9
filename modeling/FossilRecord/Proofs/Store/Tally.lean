import FossilRecord.Proofs.Store.Order
import FossilRecord.Proofs.Store.Resolution

/-!
# Counting kinds

The symbols of a fossil are grouped by the label that is stored with each of them, and a label is
read as a kind again.  Every kind is stored under its own label, so that no two groups are of one
kind and the kinds are counted as the symbols that are read have them (`IsTally`).
-/

namespace FossilRecord

/-- Whether kinds are counted: each that occurs once, with the number of times that it occurs, the
most frequent one first, and those of equal number in the byte order of their labels. -/
structure IsTally (kinds : List SymbolType) (counts : List (SymbolType × Nat)) : Prop where
  once : (counts.map Prod.fst).Nodup
  mem_iff : ∀ kind count, (kind, count) ∈ counts ↔ kind ∈ kinds ∧ count = kinds.count kind
  ordered : counts.Pairwise fun a b =>
    b.2 < a.2 ∨ a.2 = b.2 ∧ Text.octets a.1.label < Text.octets b.1.label

/-- Where every value that occurs stands once with the number of times that it occurs, the numbers
add up to the number of the values. -/
theorem sum_counts {α : Type} [DecidableEq α] {values : List α} {counts : List (α × Nat)}
    (honce : (counts.map Prod.fst).Nodup)
    (hmem : ∀ v count, (v, count) ∈ counts ↔ v ∈ values ∧ count = values.count v) :
    (counts.map Prod.snd).sum = values.length := by
  have hnumbers : counts.map Prod.snd = (counts.map Prod.fst).map fun v => values.count v := by
    rw [List.map_map]
    exact List.map_congr_left fun u hu => ((hmem u.1 u.2).mp hu).2
  have hvalues : (counts.map Prod.fst).Perm values.dedup := by
    rw [List.perm_ext_iff_of_nodup honce (List.nodup_dedup values)]
    intro v
    rw [List.mem_dedup, List.mem_map]
    constructor
    · rintro ⟨u, hu, rfl⟩
      exact ((hmem u.1 u.2).mp hu).1
    · intro hv
      exact ⟨(v, values.count v), (hmem v _).mpr ⟨hv, rfl⟩, rfl⟩
  calc
    (counts.map Prod.snd).sum = ((counts.map Prod.fst).map fun v => values.count v).sum := by
      rw [hnumbers]
    _ = (values.dedup.map fun v => values.count v).sum := (hvalues.map _).sum_eq
    _ = values.length := List.sum_map_count_dedup_eq_length values

/-- The numbers of all kinds add up to the number of what was counted. -/
theorem IsTally.sum_eq {kinds : List SymbolType} {counts : List (SymbolType × Nat)}
    (h : IsTally kinds counts) : (counts.map Prod.snd).sum = kinds.length :=
  sum_counts h.once h.mem_iff

/-- There are counts exactly if there is something to count. -/
theorem IsTally.eq_nil_iff {kinds : List SymbolType} {counts : List (SymbolType × Nat)}
    (h : IsTally kinds counts) : counts = [] ↔ kinds = [] := by
  rw [List.eq_nil_iff_forall_not_mem, List.eq_nil_iff_forall_not_mem]
  constructor
  · exact fun hnone kind hkind => hnone (kind, kinds.count kind) ((h.mem_iff kind _).mpr ⟨hkind, rfl⟩)
  · exact fun hnone u hu => hnone u.1 ((h.mem_iff u.1 u.2).mp hu).1

/-- The same kinds are counted in one way only. -/
theorem IsTally.unique {kinds : List SymbolType} {counts others : List (SymbolType × Nat)}
    (h : IsTally kinds counts) (hothers : IsTally kinds others) : counts = others := by
  have hperm : counts.Perm others :=
    (List.perm_ext_iff_of_nodup (.of_map _ h.once) (.of_map _ hothers.once)).mpr fun ⟨kind, count⟩ =>
      (h.mem_iff kind count).trans (hothers.mem_iff kind count).symm
  refine hperm.eq_of_pairwise (fun a b _ _ hab hba => ?_) h.ordered hothers.ordered
  rcases hab with hlt | ⟨heq, hlabel⟩
  · rcases hba with hgt | ⟨heq, -⟩ <;> omega
  · rcases hba with hgt | ⟨-, hgreater⟩
    · omega
    · exact absurd hgreater (List.lt_asymm hlabel)

namespace Store

/-! ## Tallies of any values -/

section

variable {α : Type} [DecidableEq α] {values : List α}

theorem nodup_eraseDups (values : List α) : values.eraseDups.Nodup := by
  induction hlength : values.length using Nat.strong_induction_on generalizing values with
  | _ length ih =>
      cases values with
      | nil => simp
      | cons v rest =>
          rw [List.eraseDups_cons, List.nodup_cons]
          constructor
          · simp
          · refine ih _ ?_ _ rfl
            rw [← hlength, List.length_cons]
            exact Nat.lt_succ_of_le (List.length_filter_le _ _)

theorem mem_tally {u : α × Nat} : u ∈ tally values ↔ u.1 ∈ values ∧ u.2 = values.count u.1 := by
  rw [tally, List.mem_map]
  constructor
  · rintro ⟨v, hv, rfl⟩
    exact ⟨List.mem_eraseDups.mp hv, rfl⟩
  · rintro ⟨hv, hcount⟩
    exact ⟨u.1, List.mem_eraseDups.mpr hv, Prod.ext rfl hcount.symm⟩

/-- No value is counted twice. -/
theorem nodup_tally (values : List α) : ((tally values).map Prod.fst).Nodup := by
  rw [tally, List.map_map]
  simpa [Function.comp_def] using nodup_eraseDups values

section

variable {β : Type} [DecidableEq β] {f : α → β}

theorem eraseDups_map (hf : Function.Injective f) (values : List α) :
    (values.map f).eraseDups = values.eraseDups.map f := by
  induction hlength : values.length using Nat.strong_induction_on generalizing values with
  | _ length ih =>
      cases values with
      | nil => simp
      | cons v rest =>
          have hshort : (rest.filter fun w => !w == v).length < length := by
            rw [← hlength, List.length_cons]
            exact Nat.lt_succ_of_le (List.length_filter_le _ _)
          have hkeep : ((fun w => !w == f v) ∘ f) = fun w => !w == v := by
            funext w
            simp [hf.eq_iff]
          rw [List.map_cons, List.eraseDups_cons, List.filter_map, hkeep, ih _ hshort _ rfl,
            List.eraseDups_cons, List.map_cons]

/-- Values under other names are counted as they are. -/
theorem tally_map (hf : Function.Injective f) (values : List α) :
    tally (values.map f) = (tally values).map fun u => (f u.1, u.2) := by
  rw [tally, eraseDups_map hf, List.map_map, tally, List.map_map]
  refine List.map_congr_left fun v _ => ?_
  simp [List.count_map_of_injective values f hf]

end

end

/-! ## Tallies in order -/

section

variable {α : Type} [DecidableEq α]

/-- Values under other names are counted in the order of what they give. -/
theorem orderedTally_map {β : Type} [DecidableEq β] {f : α → β} (hf : Function.Injective f)
    {cells : β → List Cell} {source : α → List Cell} (hcells : ∀ v, cells (f v) = source v)
    (values : List α) : orderedTally cells (values.map f) =
      (orderedTally source values).map fun u => (f u.1, u.2) := by
  have hordered : orderBy (fun u => cells u.1) ((tally values).map fun u => (f u.1, u.2)) =
      (orderBy (fun u => source u.1) (tally values)).map fun u => (f u.1, u.2) := by
    refine orderBy_map (fun u => ?_) _
    exact hcells u.1
  rw [orderedTally, tally_map hf, hordered, orderedTally, List.map_mergeSort]
  exact fun _ _ _ _ => rfl

variable (cells : α → List Cell) (values : List α)

theorem orderedTally_perm : (orderedTally cells values).Perm (tally values) :=
  (List.mergeSort_perm _ _).trans (orderBy_perm _ _)

theorem mem_orderedTally {cells : α → List Cell} {values : List α} {u : α × Nat} :
    u ∈ orderedTally cells values ↔ u.1 ∈ values ∧ u.2 = values.count u.1 :=
  (orderedTally_perm cells values).mem_iff.trans mem_tally

theorem nodup_orderedTally : ((orderedTally cells values).map Prod.fst).Nodup :=
  ((orderedTally_perm cells values).map Prod.fst).nodup_iff.mpr (nodup_tally values)

theorem orderedTally_pairwise : (orderedTally cells values).Pairwise fun a b =>
    b.2 < a.2 ∨ a.2 = b.2 ∧ Cell.listLe (cells a.1) (cells b.1) = true ∧ a.1 ≠ b.1 := by
  have hnodup :
      ((orderBy (fun (u : α × Nat) => cells u.1) (tally values)).map Prod.fst).Nodup :=
    ((orderBy_perm _ _).map Prod.fst).nodup_iff.mpr (nodup_tally values)
  have hvalues : (orderBy (fun (u : α × Nat) => cells u.1) (tally values)).Pairwise fun a b =>
      Cell.listLe (cells a.1) (cells b.1) = true ∧ a.1 ≠ b.1 :=
    (orderBy_pairwise _ _).and (List.pairwise_map.mp hnodup)
  -- sorting by number keeps the order of the values where the numbers are equal
  refine (pairwise_mergeSort_stable ?_ ?_ hvalues).imp ?_
  · intro a b c hab hbc
    rw [decide_eq_true_eq] at hab hbc ⊢
    exact hbc.trans hab
  · intro a b
    rw [Bool.or_eq_true, decide_eq_true_eq, decide_eq_true_eq]
    exact le_total b.2 a.2
  · rintro a b ⟨hle, hvalue⟩
    rw [decide_eq_true_eq] at hle
    rcases Nat.lt_or_ge b.2 a.2 with hlt | hge
    · exact .inl hlt
    · exact .inr ⟨Nat.le_antisymm hge hle, hvalue (decide_eq_true hge)⟩

end

/-! ## Kinds under their labels -/

/-- The kind that a stored label is read as. -/
def kindOf : Cell → SymbolType
  | .text label => SymbolType.ofLabel label
  | _ => .function

/-- The kind as it is stored. -/
def kindCell (kind : SymbolType) : Cell :=
  .text kind.label

theorem kindOf_kindCell {kind : SymbolType} (h : kind.IsNamed) : kindOf (kindCell kind) = kind := h

section

variable {kinds : List SymbolType} {types : List Cell}

/-- A kind is counted as often as its label. -/
theorem count_kindCell (hnamed : ∀ k ∈ kinds, k.IsNamed) {kind : SymbolType}
    (hkind : kind.IsNamed) :
    (kinds.map kindCell).count (kindCell kind) = kinds.count kind := by
  rw [List.count, List.countP_map, List.count]
  refine List.countP_congr fun k hk => ?_
  rw [Function.comp_apply, beq_iff_eq, beq_iff_eq]
  constructor
  · intro heq
    rw [← kindOf_kindCell (hnamed k hk), heq, kindOf_kindCell hkind]
  · rintro rfl
    rfl

theorem isTally_of_perm (hnamed : ∀ k ∈ kinds, k.IsNamed)
    (hperm : types.Perm (kinds.map kindCell)) :
    IsTally kinds ((orderedTally (fun type => [type]) types).map fun u => (kindOf u.1, u.2)) := by
  have hmem : ∀ u, u ∈ orderedTally (fun type => [type]) types ↔
      ∃ k ∈ kinds, u.1 = kindCell k ∧ u.2 = kinds.count k := by
    intro u
    rw [mem_orderedTally, hperm.mem_iff, hperm.count_eq, List.mem_map]
    constructor
    · rintro ⟨⟨k, hk, hcell⟩, hcount⟩
      rw [← hcell, count_kindCell hnamed (hnamed k hk)] at hcount
      exact ⟨k, hk, hcell.symm, hcount⟩
    · rintro ⟨k, hk, hcell, hcount⟩
      rw [hcell, count_kindCell hnamed (hnamed k hk)]
      exact ⟨⟨k, hk, rfl⟩, hcount⟩
  have hread : ∀ u ∈ orderedTally (fun type => [type]) types, u.1 = kindCell (kindOf u.1) := by
    intro u hu
    obtain ⟨k, hk, hcell, -⟩ := (hmem u).mp hu
    rw [hcell, kindOf_kindCell (hnamed k hk)]
  refine ⟨?once, fun kind count => ?mem, ?ordered⟩
  case once =>
    have hcells := nodup_orderedTally (fun type => [type]) types
    rw [List.Nodup, List.pairwise_map] at hcells
    rw [List.map_map, List.Nodup, List.pairwise_map]
    refine hcells.imp_of_mem fun {a b} ha hb hne heq => hne ?_
    rw [hread a ha, hread b hb]
    exact congrArg kindCell heq
  case mem =>
    rw [List.mem_map]
    constructor
    · rintro ⟨u, hu, heq⟩
      obtain ⟨k, hk, hcell, hcount⟩ := (hmem u).mp hu
      rw [hcell, kindOf_kindCell (hnamed k hk), Prod.mk.injEq] at heq
      obtain ⟨rfl, rfl⟩ := heq
      exact ⟨hk, hcount⟩
    · rintro ⟨hk, rfl⟩
      refine ⟨(kindCell kind, kinds.count kind), (hmem _).mpr ⟨kind, hk, rfl, rfl⟩, ?_⟩
      rw [kindOf_kindCell (hnamed kind hk)]
  case ordered =>
    rw [List.pairwise_map]
    refine (orderedTally_pairwise _ types).imp_of_mem fun {a b} ha hb hab => ?_
    refine hab.imp_right fun ⟨hcount, hle, hne⟩ => ⟨hcount, ?_⟩
    rw [hread a ha, hread b hb] at hle hne
    have hlabel := ((Cell.listLe_cons _ _ _ _).mp hle).1
    exact octets_lt_of_le hlabel fun heq => hne (congrArg Cell.text heq.symm)

end

end Store

end FossilRecord
