import FossilRecord.Proofs.Decimal.Rounding
import FossilRecord.Proofs.Sort
import FossilRecord.Store.Cell
import Mathlib.Algebra.Order.Field.Rat
import Mathlib.Data.Prod.Lex
import Mathlib.Data.String.Basic
import Mathlib.Tactic.Positivity

/-!
# The order of stored values

Values are ordered as points of a linear order: nothing, then the rational numbers, then the texts.
What sorting by values gives is therefore sorted.
-/

namespace FossilRecord.Store

open Decimal (Binary64)

namespace Cell

/-- A number as a rational. -/
def number (c : Cell) : ℚ :=
  match ratio? c with
  | some (n, d) => n / d
  | none => 0

/-- The place of a value among all others: its kind, then its number or its text. -/
def place (c : Cell) : ℕ ×ₗ (ℚ ×ₗ String) :=
  match c with
  | .null => toLex (0, toLex (0, ""))
  | .text s => toLex (2, toLex (0, s))
  | c => toLex (1, toLex (number c, ""))

/-- Numbers are compared without division. -/
theorem mul_le_mul_iff_number {a b : Cell} {n m : Int} {d e : Nat} (ha : ratio? a = some (n, d))
    (hb : ratio? b = some (m, e)) (hd : 0 < d) (he : 0 < e) :
    n * e ≤ m * d ↔ number a ≤ number b := by
  have hd' : (0 : ℚ) < d := by exact_mod_cast hd
  have he' : (0 : ℚ) < e := by exact_mod_cast he
  rw [number, number, ha, hb, div_le_div_iff₀ hd' he']
  exact_mod_cast Iff.rfl

/-- A value stands before another or beside it if its place does. -/
theorem le_iff_place (a b : Cell) : a.le b = true ↔ a.place ≤ b.place := by
  have hnumbers : ∀ {a b : Cell} {n m : Int} {d e : Nat}, ratio? a = some (n, d) →
      ratio? b = some (m, e) → 0 < d → 0 < e →
      (decide (n * e ≤ m * d) = true ↔ (toLex (1, toLex (number a, "")) : ℕ ×ₗ (ℚ ×ₗ String)) ≤
        toLex (1, toLex (number b, ""))) := by
    intro a b n m d e ha hb hd he
    rw [decide_eq_true_eq, mul_le_mul_iff_number ha hb hd he, Prod.Lex.toLex_le_toLex,
      Prod.Lex.toLex_le_toLex]
    simp [le_iff_lt_or_eq]
  -- only numbers of different kinds need their values; all other pairs are decided by the kind
  cases a <;> cases b
  case integer.integer => exact hnumbers rfl rfl Nat.one_pos Nat.one_pos
  case integer.real => exact hnumbers rfl rfl Nat.one_pos (Binary64.ratio_den_pos _)
  case real.integer => exact hnumbers rfl rfl (Binary64.ratio_den_pos _) Nat.one_pos
  case real.real => exact hnumbers rfl rfl (Binary64.ratio_den_pos _) (Binary64.ratio_den_pos _)
  case text.text s t =>
    simp only [le, place, Prod.Lex.toLex_le_toLex, lt_irrefl, false_or, true_and, decide_eq_true_eq]
  all_goals simp [le, place, Prod.Lex.toLex_le_toLex]

theorem le_total (a b : Cell) : (a.le b || b.le a) = true := by
  rw [Bool.or_eq_true, le_iff_place, le_iff_place]
  exact LinearOrder.le_total a.place b.place

theorem le_trans (a b c : Cell) (hab : a.le b = true) (hbc : b.le c = true) : a.le c = true := by
  rw [le_iff_place] at hab hbc ⊢
  exact hab.trans hbc

theorem listLe_cons (a b : Cell) (as bs : List Cell) :
    listLe (a :: as) (b :: bs) = true ↔
      a.le b = true ∧ (b.le a = true → listLe as bs = true) := by
  rw [listLe]
  cases a.le b <;> cases b.le a <;> simp

theorem listLe_total (as bs : List Cell) : (listLe as bs || listLe bs as) = true := by
  induction as generalizing bs with
  | nil => simp [listLe]
  | cons a as ih =>
      cases bs with
      | nil => simp [listLe]
      | cons b bs =>
          have htotal := le_total a b
          have hrest := ih bs
          rw [Bool.or_eq_true] at htotal hrest ⊢
          rw [listLe_cons, listLe_cons]
          by_cases hab : a.le b = true
          · by_cases hba : b.le a = true
            · exact hrest.imp (fun h => ⟨hab, fun _ => h⟩) fun h => ⟨hba, fun _ => h⟩
            · exact .inl ⟨hab, fun h => absurd h hba⟩
          · exact .inr ⟨htotal.resolve_left hab, fun h => absurd h hab⟩

theorem listLe_trans (as bs cs : List Cell) (hab : listLe as bs = true)
    (hbc : listLe bs cs = true) : listLe as cs = true := by
  induction as generalizing bs cs with
  | nil => simp [listLe]
  | cons a as ih =>
      cases bs with
      | nil => simp [listLe] at hab
      | cons b bs =>
          cases cs with
          | nil => simp [listLe] at hbc
          | cons c cs =>
              rw [listLe_cons] at hab hbc ⊢
              refine ⟨le_trans a b c hab.1 hbc.1, fun hca => ?_⟩
              -- a value that stands beside both ends stands beside the one between them
              exact ih bs cs (hab.2 (le_trans b c a hbc.1 hca)) (hbc.2 (le_trans c a b hca hab.1))

end Cell

/-! ## Sorted rows -/

section

variable {α : Type}

theorem orderBy_perm (key : α → List Cell) (rows : List α) : (orderBy key rows).Perm rows :=
  List.mergeSort_perm _ _

theorem orderBy_pairwise (key : α → List Cell) (rows : List α) :
    (orderBy key rows).Pairwise fun a b => Cell.listLe (key a) (key b) = true :=
  List.pairwise_mergeSort (fun a b c => Cell.listLe_trans (key a) (key b) (key c))
    (fun a b => Cell.listLe_total (key a) (key b)) rows

/-- Rows may be left out before or after they are put in order. -/
theorem orderBy_filter (key : α → List Cell) (keep : α → Bool) (rows : List α) :
    orderBy key (rows.filter keep) = (orderBy key rows).filter keep :=
  mergeSort_filter (fun a b c => Cell.listLe_trans (key a) (key b) (key c))
    (fun a b => Cell.listLe_total (key a) (key b)) keep rows

/-- Rows that were made from others are in the order that those have by what is made of them. -/
theorem orderBy_map {β : Type} {key : α → List Cell} {source : β → List Cell} {make : β → α}
    (hkey : ∀ x, key (make x) = source x) (rows : List β) :
    orderBy key (rows.map make) = (orderBy source rows).map make := by
  rw [orderBy, orderBy, List.map_mergeSort]
  intro a _ b _
  rw [hkey, hkey]

/-- Sorting by a value backwards puts the larger values first. -/
theorem mergeSort_le_pairwise (key : α → Cell) (rows : List α) :
    (rows.mergeSort fun a b => (key b).le (key a)).Pairwise
      fun a b => (key b).le (key a) = true :=
  List.pairwise_mergeSort (fun a b c hab hbc => Cell.le_trans (key c) (key b) (key a) hbc hab)
    (fun a b => Cell.le_total (key b) (key a)) rows

end

end FossilRecord.Store
