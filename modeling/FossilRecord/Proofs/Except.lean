import Mathlib.Data.List.Forall2
import Mathlib.Tactic.Common

/-!
# Steps that can fail

What a chain of steps that came to its end says about each of them.
-/

namespace FossilRecord

theorem bind_eq_ok {ε α β : Type} {x : Except ε α} {f : α → Except ε β} {b : β}
    (h : x >>= f = .ok b) : ∃ a, x = .ok a ∧ f a = .ok b := by
  cases x with
  | error e => cases h
  | ok a => exact ⟨a, rfl, h⟩

theorem ok_of_toOption {ε α : Type} {x : Except ε α} {a : α} (h : x.toOption = some a) :
    x = .ok a := by
  cases x with
  | error e => cases h
  | ok b => cases h; rfl

section

variable {α β : Type} {r : α → β → Prop} {xs : List α} {ys : List β}

/-- Of two lists that are related one by one, every item of the second has one of the first. -/
theorem exists_of_mem_forall₂ (h : List.Forall₂ r xs ys) {y : β} (hy : y ∈ ys) :
    ∃ x ∈ xs, r x y := by
  induction h with
  | nil => cases hy
  | cons hxy _ ih =>
      rcases List.mem_cons.mp hy with rfl | hy
      · exact ⟨_, by simp, hxy⟩
      · obtain ⟨x, hx, hrel⟩ := ih hy
        exact ⟨x, List.mem_cons_of_mem _ hx, hrel⟩

/-- Of two lists that are related one by one, every item of the first has one of the second. -/
theorem exists_mem_of_forall₂ (h : List.Forall₂ r xs ys) {x : α} (hx : x ∈ xs) :
    ∃ y ∈ ys, r x y :=
  exists_of_mem_forall₂ h.flip hx

/-- Where related items have the same of something, both lists have the same of it. -/
theorem map_eq_map_of_forall₂ {γ : Type} {f : α → γ} {g : β → γ} (h : List.Forall₂ r xs ys)
    (hfg : ∀ x y, r x y → f x = g y) : xs.map f = ys.map g := by
  rw [← List.forall₂_eq_eq_eq, List.forall₂_map_left_iff, List.forall₂_map_right_iff]
  exact h.imp hfg

end

section

variable {ε α β : Type} {f : α → Except ε β} {xs : List α}

/-- If a step can be taken for every item, it can be taken for all of them. -/
theorem mapM_eq_ok {g : α → β} (h : ∀ x ∈ xs, f x = .ok (g x)) : xs.mapM f = .ok (xs.map g) := by
  induction xs with
  | nil => rfl
  | cons x xs ih =>
      rw [List.mapM_cons, h x (by simp), ih fun y hy => h y (by simp [hy])]
      rfl

/-- If a step can be taken for whatever is made of an item, it can be taken for all that is made. -/
theorem mapM_map_eq_ok {γ : Type} {make : γ → α} {g : γ → β} {items : List γ}
    (h : ∀ c ∈ items, f (make c) = .ok (g c)) : (items.map make).mapM f = .ok (items.map g) := by
  induction items with
  | nil => rfl
  | cons c items ih =>
      rw [List.map_cons, List.mapM_cons, h c (by simp), ih fun d hd => h d (by simp [hd])]
      rfl

/-- The results are those of the items, one by one. -/
theorem forall₂_of_mapM {ys : List β} (h : xs.mapM f = .ok ys) :
    List.Forall₂ (fun x y => f x = .ok y) xs ys := by
  induction xs generalizing ys with
  | nil =>
      cases h
      exact .nil
  | cons x xs ih =>
      rw [List.mapM_cons] at h
      obtain ⟨y, hy, h⟩ := bind_eq_ok h
      obtain ⟨zs, hzs, h⟩ := bind_eq_ok h
      cases h
      exact .cons hy (ih hzs)

/-- What holds of every item and its result holds of the items and the results, one by one. -/
theorem forall₂_of_mapM_mem {ys : List β} {r : α → β → Prop} (h : xs.mapM f = .ok ys)
    (hr : ∀ x ∈ xs, ∀ y, f x = .ok y → r x y) : List.Forall₂ r xs ys := by
  have hitems := forall₂_of_mapM h
  clear h
  induction hitems with
  | nil => exact .nil
  | cons hy _ ih => exact .cons (hr _ (by simp) _ hy) (ih fun x hx => hr x (by simp [hx]))

/-- Two steps for all items are two steps for each of them. -/
theorem forall₂_of_mapM_mapM {γ : Type} {g : β → Except ε γ} {ys : List β} {zs : List γ}
    (hf : xs.mapM f = .ok ys) (hg : ys.mapM g = .ok zs) :
    List.Forall₂ (fun x z => ∃ y, f x = .ok y ∧ g y = .ok z) xs zs := by
  have hfirst := forall₂_of_mapM hf
  have hsecond := forall₂_of_mapM hg
  clear hf hg
  induction hfirst generalizing zs with
  | nil =>
      cases hsecond
      exact .nil
  | cons hx _ ih =>
      cases hsecond with
      | cons hy hrest => exact .cons ⟨_, hx, hy⟩ (ih hrest)

/-- Every result comes from an item. -/
theorem exists_of_mem_mapM {ys : List β} (h : xs.mapM f = .ok ys) {y : β} (hy : y ∈ ys) :
    ∃ x ∈ xs, f x = .ok y :=
  exists_of_mem_forall₂ (forall₂_of_mapM h) hy

/-- Every item has a result, and it is one of the results. -/
theorem exists_mem_of_mapM {ys : List β} (h : xs.mapM f = .ok ys) {x : α} (hx : x ∈ xs) :
    ∃ y ∈ ys, f x = .ok y :=
  exists_mem_of_forall₂ (forall₂_of_mapM h) hx

/-- Every item has a result. -/
theorem exists_of_mapM {ys : List β} (h : xs.mapM f = .ok ys) {x : α} (hx : x ∈ xs) :
    ∃ y, f x = .ok y := by
  obtain ⟨y, -, hy⟩ := exists_mem_of_mapM h hx
  exact ⟨y, hy⟩

/-- If a step can be taken for every item, there are the results of all of them. -/
theorem mapM_total (h : ∀ x ∈ xs, ∃ y, f x = .ok y) : ∃ ys, xs.mapM f = .ok ys := by
  induction xs with
  | nil => exact ⟨[], rfl⟩
  | cons x xs ih =>
      obtain ⟨y, hy⟩ := h x (by simp)
      obtain ⟨ys, hys⟩ := ih fun z hz => h z (by simp [hz])
      exact ⟨y :: ys, by rw [List.mapM_cons, hy, hys]; rfl⟩

/-- If two steps can be taken for every item, the first can be taken for all of them, and then the
second for all results. -/
theorem mapM_twice {γ : Type} {g : β → Except ε γ}
    (h : ∀ x ∈ xs, ∃ y, f x = .ok y ∧ ∃ z, g y = .ok z) :
    ∃ ys, xs.mapM f = .ok ys ∧ ∃ zs, ys.mapM g = .ok zs := by
  obtain ⟨ys, hys⟩ := mapM_total fun x hx => (h x hx).imp fun _ hy => hy.1
  refine ⟨ys, hys, mapM_total fun y hy => ?_⟩
  obtain ⟨x, hx, hxy⟩ := exists_of_mem_mapM hys hy
  obtain ⟨y', hy', z, hz⟩ := h x hx
  rw [hxy] at hy'
  cases hy'
  exact ⟨z, hz⟩

end

end FossilRecord
