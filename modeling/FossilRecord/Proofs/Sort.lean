import Mathlib.Data.List.Sort
import Mathlib.Tactic.Common

/-!
# Sorting keeps what it is not asked about

Sorting is stable: items that are beside one another in the order stay in the order in which they
were.  Leaving out items before or after sorting therefore gives the same list, and sorting by a key
with few values puts the items of each value, as they stood, one group after the other.  Where no
two items have the same key, their order does not matter for finding one.
-/

namespace FossilRecord

section

variable {α : Type} {le : α → α → Bool}

/-- A first item is sorted in before everything that it may precede. -/
theorem mergeSort_cons_eq (htrans : ∀ a b c, le a b = true → le b c = true → le a c = true)
    (htotal : ∀ a b, (le a b || le b a) = true) (x : α) (xs : List α) :
    (x :: xs).mergeSort le =
      (xs.mergeSort le).filter (fun y => !le x y) ++ x :: (xs.mergeSort le).filter (le x) := by
  obtain ⟨before, after, hcons, hrest, hbefore⟩ := List.mergeSort_cons htrans htotal x xs
  have hsorted := List.pairwise_mergeSort htrans htotal (x :: xs)
  rw [hcons, List.pairwise_append, List.pairwise_cons] at hsorted
  have hafter : ∀ y ∈ after, le x y = true := hsorted.2.1.1
  have hfirst : (before ++ after).filter (fun y => !le x y) = before := by
    rw [List.filter_append, List.filter_eq_self.mpr hbefore, List.filter_eq_nil_iff.mpr]
    · exact List.append_nil before
    · intro y hy
      simp [hafter y hy]
  have hlast : (before ++ after).filter (le x) = after := by
    rw [List.filter_append, List.filter_eq_self.mpr hafter, List.filter_eq_nil_iff.mpr]
    · exact List.nil_append after
    · intro y hy
      simpa using hbefore y hy
  rw [hcons, hrest, hfirst, hlast]

/-- Items that are beside one another in the order stay in the order in which they were. -/
theorem pairwise_mergeSort_stable
    (htrans : ∀ a b c, le a b = true → le b c = true → le a c = true)
    (htotal : ∀ a b, (le a b || le b a) = true) {r : α → α → Prop} {xs : List α}
    (h : xs.Pairwise r) :
    (xs.mergeSort le).Pairwise fun a b => le a b = true ∧ (le b a = true → r a b) := by
  induction xs with
  | nil => simp
  | cons x xs ih =>
      rw [List.pairwise_cons] at h
      have hrest := ih h.2
      have hfront : ∀ a ∈ (xs.mergeSort le).filter (fun y => !le x y), le x a = false := by
        intro a ha
        simpa using (List.mem_filter.mp ha).2
      have hback : ∀ b ∈ (xs.mergeSort le).filter (le x), le x b = true ∧ r x b := by
        intro b hb
        obtain ⟨hmem, hle⟩ := List.mem_filter.mp hb
        exact ⟨hle, h.1 b (List.mem_mergeSort.mp hmem)⟩
      -- what may not follow the first item stands before all that may
      have hbefore : ∀ a, le x a = false → le a x = true := by
        intro a ha
        have hxa := htotal x a
        rwa [ha, Bool.false_or] at hxa
      rw [mergeSort_cons_eq htrans htotal, List.pairwise_append, List.pairwise_cons]
      refine ⟨hrest.filter _, ⟨fun b hb => ⟨(hback b hb).1, fun _ => (hback b hb).2⟩,
        hrest.filter _⟩, fun a ha b hb => ?_⟩
      have hax := hbefore a (hfront a ha)
      rcases List.mem_cons.mp hb with rfl | hb
      · exact ⟨hax, fun hle => by rw [hfront a ha] at hle; cases hle⟩
      · refine ⟨htrans a x b hax (hback b hb).1, fun hle => ?_⟩
        have hxa := htrans x b a (hback b hb).1 hle
        rw [hfront a ha] at hxa
        cases hxa

/-- Items may be left out before or after sorting. -/
theorem mergeSort_filter (htrans : ∀ a b c, le a b = true → le b c = true → le a c = true)
    (htotal : ∀ a b, (le a b || le b a) = true) (keep : α → Bool) (xs : List α) :
    (xs.filter keep).mergeSort le = (xs.mergeSort le).filter keep := by
  induction xs with
  | nil => simp
  | cons x xs ih =>
      by_cases hx : keep x = true
      · rw [List.filter_cons_of_pos hx, mergeSort_cons_eq htrans htotal,
          mergeSort_cons_eq htrans htotal, List.filter_append, List.filter_cons_of_pos hx, ih,
          List.filter_comm keep, List.filter_comm keep]
      · obtain ⟨before, after, hcons, hrest, -⟩ := List.mergeSort_cons htrans htotal x xs
        rw [List.filter_cons_of_neg hx, ih, hcons, hrest, List.filter_append, List.filter_append,
          List.filter_cons_of_neg hx]

/-- Items may be left out before or after others are made of them, if it can still be seen which
ones they were made of. -/
theorem flatMap_filter {β : Type} {keep : α → Bool} {test : β → Bool} {make : α → List β}
    {xs : List α} (h : ∀ x ∈ xs, ∀ y ∈ make x, test y = keep x) :
    (xs.filter keep).flatMap make = (xs.flatMap make).filter test := by
  induction xs with
  | nil => rfl
  | cons x xs ih =>
      rw [List.forall_mem_cons] at h
      rw [List.flatMap_cons, List.filter_append, ← ih h.2]
      by_cases hx : keep x = true
      · have hall : (make x).filter test = make x :=
          List.filter_eq_self.mpr fun y hy => by rw [h.1 y hy, hx]
        rw [List.filter_cons_of_pos hx, List.flatMap_cons, hall]
      · have hnone : (make x).filter test = [] :=
          List.filter_eq_nil_iff.mpr fun y hy => by rwa [h.1 y hy]
        rw [List.filter_cons_of_neg hx, hnone, List.nil_append]

/-- If the items that pass a test stand strictly before those that do not, a sorted list is the
former and then the latter. -/
theorem filter_append_filter_not {xs : List α} (hsorted : xs.Pairwise fun a b => le a b = true)
    {test : α → Bool}
    (hbefore : ∀ a ∈ xs, ∀ b ∈ xs, test a = true → test b = false → le b a = false) :
    xs.filter test ++ xs.filter (fun a => !test a) = xs := by
  induction xs with
  | nil => rfl
  | cons x xs ih =>
      rw [List.pairwise_cons] at hsorted
      have hrest := ih hsorted.2 fun a ha b hb =>
        hbefore a (List.mem_cons_of_mem x ha) b (List.mem_cons_of_mem x hb)
      by_cases hx : test x = true
      · rw [List.filter_cons_of_pos hx, List.filter_cons_of_neg (by simpa using hx),
          List.cons_append, hrest]
      · -- an item behind this one that passed the test would have to stand before it
        have hnone : ∀ y ∈ xs, ¬test y = true := by
          intro y hy htest
          have hback := hbefore y (List.mem_cons_of_mem x hy) x (by simp) htest (by simpa using hx)
          rw [hsorted.1 y hy] at hback
          cases hback
        rw [List.filter_eq_nil_iff.mpr hnone, List.nil_append] at hrest
        rw [List.filter_cons_of_neg hx, List.filter_cons_of_pos (by simpa using hx),
          List.filter_eq_nil_iff.mpr hnone, hrest, List.nil_append]

end

/-- Where no two items have the same key, the item of a key is the one that is found. -/
theorem find?_key_eq_some {α κ : Type} [DecidableEq κ] {key : α → κ} {xs : List α}
    (hkeys : (xs.map key).Nodup) {k : κ} {x : α} :
    xs.find? (fun y => key y = k) = some x ↔ x ∈ xs ∧ key x = k := by
  constructor
  · intro hfind
    exact ⟨List.mem_of_find?_eq_some hfind, by simpa using List.find?_some hfind⟩
  · rintro ⟨hx, rfl⟩
    cases hfind : xs.find? (fun y => key y = key x) with
    | none => simpa using List.find?_eq_none.mp hfind x hx
    | some y =>
        have hy : key y = key x := by simpa using List.find?_some hfind
        rw [List.inj_on_of_nodup_map hkeys (List.mem_of_find?_eq_some hfind) hx hy]

/-- Sorting by a key whose values are known in their strict order puts the items of each value, as
they stood, one group after the other. -/
theorem mergeSort_eq_flatMap {α κ : Type} [DecidableEq κ] (le : κ → κ → Bool)
    (htrans : ∀ a b c, le a b = true → le b c = true → le a c = true)
    (htotal : ∀ a b, (le a b || le b a) = true) (key : α → κ) {keys : List κ}
    (hkeys : keys.Pairwise fun a b => le b a = false) {xs : List α}
    (hmem : ∀ x ∈ xs, key x ∈ keys) :
    xs.mergeSort (fun a b => le (key a) (key b)) =
      keys.flatMap fun k => xs.filter fun x => key x = k := by
  have hxtrans : ∀ a b c : α, le (key a) (key b) = true → le (key b) (key c) = true →
      le (key a) (key c) = true := fun a b c => htrans (key a) (key b) (key c)
  have hxtotal : ∀ a b : α, (le (key a) (key b) || le (key b) (key a)) = true :=
    fun a b => htotal (key a) (key b)
  induction keys generalizing xs with
  | nil =>
      have hnil : xs = [] := List.eq_nil_iff_forall_not_mem.mpr fun x hx => by
        simpa using hmem x hx
      simp [hnil]
  | cons k keys ih =>
      rw [List.pairwise_cons] at hkeys
      -- the group of the first key stands before all others
      have hbefore : ∀ a ∈ xs.mergeSort fun a b => le (key a) (key b),
          ∀ b ∈ xs.mergeSort fun a b => le (key a) (key b),
          decide (key a = k) = true → decide (key b = k) = false → le (key b) (key a) = false := by
        intro a ha b hb hak hbk
        have hb' := hmem b (List.mem_mergeSort.mp hb)
        rw [decide_eq_true_eq] at hak
        rw [decide_eq_false_iff_not] at hbk
        rw [hak]
        exact hkeys.1 (key b) ((List.mem_cons.mp hb').resolve_left hbk)
      have hsplit :=
        filter_append_filter_not (List.pairwise_mergeSort hxtrans hxtotal xs) hbefore
      rw [← mergeSort_filter hxtrans hxtotal, ← mergeSort_filter hxtrans hxtotal] at hsplit
      have hfirst : (xs.filter fun x => key x = k).mergeSort (fun a b => le (key a) (key b)) =
          xs.filter fun x => key x = k := by
        refine List.mergeSort_of_pairwise (List.pairwise_of_forall_mem_list ?_)
        intro a ha b hb
        have hak := of_decide_eq_true (List.mem_filter.mp ha).2
        have hbk := of_decide_eq_true (List.mem_filter.mp hb).2
        have hself := htotal k k
        rw [hak, hbk]
        simpa using hself
      have hothers : ∀ x ∈ xs.filter fun x => !decide (key x = k), key x ∈ keys := by
        intro x hx
        rw [List.mem_filter] at hx
        exact (List.mem_cons.mp (hmem x hx.1)).resolve_left (by simpa using hx.2)
      have hrest := ih hkeys.2 hothers
      rw [← hsplit, hfirst, hrest, List.flatMap_cons]
      congr 1
      refine List.flatMap_congr fun l hl => ?_
      rw [List.filter_filter]
      refine List.filter_congr fun x _ => ?_
      -- the other keys are different from the first one
      by_cases hxl : key x = l
      · have hne : l ≠ k := by
          rintro rfl
          have hself := htotal l l
          rw [Bool.or_self, hkeys.1 l hl] at hself
          cases hself
        simp [hxl, hne]
      · simp [hxl]

end FossilRecord
