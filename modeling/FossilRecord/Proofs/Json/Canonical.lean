import FossilRecord.Proofs.Except
import FossilRecord.Proofs.Json.RoundTrip

/-!
# What readers give

Whatever text a value was read from, the value fits the depth at which it was read: it can be
written and read again.
-/

namespace FossilRecord.Json

open Decimal (Binary64)
open Decimal.Binary64

/-! ## Numbers -/

/-- The numbers that readers give. -/
def Number.Fits : Number → Prop
  | .whole n => FitsInt n
  | .real x => x.IsFinite

/-- The numbers that readers give for digits with a fraction or an exponent, or for more digits than
fit. -/
def Number.IsReal : Number → Prop
  | .whole _ => False
  | .real x => x.IsFinite

theorem Number.IsReal.fits {n : Number} (h : n.IsReal) : n.Fits := by
  cases n with
  | whole n => cases h
  | real x => exact h

theorem digit?_le {c : Char} {d : Nat} (hc : digit? c = some d) : d ≤ 9 := by
  have hdigit := isDigit_of_digit? hc
  rw [Char.isDigit_iff_toNat] at hdigit
  rw [digit?_of_isDigit (isDigit_of_digit? hc), Option.some.injEq] at hc
  have hnine : '9'.toNat = 57 := rfl
  omega

theorem isReal_of_realOf {negative : Bool} {significand : Nat} {exponent : Int}
    {cs rest : List Char} {n : Number}
    (h : realOf negative significand exponent cs = .ok (n, rest)) : n.IsReal := by
  obtain ⟨-, y, rfl, hy⟩ := isFinite_of_realOf h
  exact hy

theorem isReal_of_readExponent {negative : Bool} {significand : Nat} {start : Int}
    {cs rest : List Char} {n : Number}
    (h : readExponent negative significand start cs = .ok (n, rest)) : n.IsReal := by
  unfold readExponent at h
  simp only at h
  split at h
  · cases h
  · split at h
    · cases h
    · split at h
      · exact isReal_of_realOf h
      · split_ifs at h
        · cases h
        · cases h
          exact isFinite_zero negative

theorem isReal_of_readFraction {negative : Bool} {significand : Nat} {exponent : Int}
    {cs rest : List Char} {n : Number}
    (h : readFraction negative significand exponent cs = .ok (n, rest)) : n.IsReal := by
  unfold readFraction at h
  split at h
  · cases h
  · split at h
    · cases h
    · simp only [readExponentOr] at h
      split at h
      · exact isReal_of_readExponent h
      · exact isReal_of_readExponent h
      · exact isReal_of_realOf h

theorem fits_of_readNumberTail {negative : Bool} {significand : Nat}
    (hfits : significand ≤ maxSignificand) {cs rest : List Char} {n : Number}
    (h : readNumberTail negative significand cs = .ok (n, rest)) : n.Fits := by
  have hmax : maxSignificand = 2 ^ 64 - 1 := rfl
  have hpow : Nat.pow 2 63 = 2 ^ 63 := rfl
  unfold readNumberTail at h
  split at h
  · exact (isReal_of_readFraction h).fits
  · exact (isReal_of_readExponent h).fits
  · exact (isReal_of_readExponent h).fits
  · split_ifs at h with hsign hsmall
    · cases h
      exact ⟨by omega, by omega⟩
    · cases h
      rw [hpow] at hsmall
      exact ⟨by omega, by omega⟩
    · exact (isReal_of_realOf h).fits

theorem isReal_of_readLong {negative : Bool} {significand count : Nat} {cs rest : List Char}
    {n : Number} (h : readLong negative significand count cs = .ok (n, rest)) : n.IsReal := by
  induction cs generalizing count with
  | nil => exact isReal_of_realOf h
  | cons c cs ih =>
      rw [readLong.eq_def] at h
      simp only at h
      split at h
      · exact ih h
      · split at h
        · exact isReal_of_readFraction h
        · exact isReal_of_readExponent h
        · exact isReal_of_readExponent h
        · exact isReal_of_realOf h

theorem fits_of_readDigits {negative : Bool} {significand : Nat}
    (hfits : significand ≤ maxSignificand) {cs rest : List Char} {n : Number}
    (h : readDigits negative significand cs = .ok (n, rest)) : n.Fits := by
  induction cs generalizing significand with
  | nil => exact fits_of_readNumberTail hfits h
  | cons c cs ih =>
      rw [readDigits] at h
      split at h
      · exact fits_of_readNumberTail hfits h
      · split at h
        · exact (isReal_of_readLong h).fits
        · rename_i hnext
          exact ih (Nat.not_lt.mp hnext) h

theorem fits_of_readNumber {negative : Bool} {cs rest : List Char} {n : Number}
    (h : readNumber negative cs = .ok (n, rest)) : n.Fits := by
  unfold readNumber at h
  split at h
  · cases h
  · split_ifs at h with hzero
    · split at h
      · split_ifs at h
        · cases h
        · exact fits_of_readNumberTail (Nat.zero_le _) h
      · exact fits_of_readNumberTail (Nat.zero_le _) h
    · split at h
      · rename_i d hd
        have hmax : 9 ≤ maxSignificand := by decide
        exact fits_of_readDigits ((digit?_le hd).trans hmax) h
      · cases h

theorem fits_number {n : Number} (h : n.Fits) (depth : Nat) : Fits depth (.number n) := by
  cases n with
  | whole n => exact .whole depth h
  | real x => exact .real depth h

/-! ## Lists and objects -/

/-- What holds of every value that a reader gives holds of the items that it reads. -/
theorem forall_of_readItems {α : Type} {item : Reader α} {good : α → Prop}
    (hitem : ∀ cs x rest, item cs = .ok (x, rest) → good x) {fuel : Nat} {first : Bool}
    {cs rest : List Char} {xs : List α} (h : readItems item fuel first cs = .ok (xs, rest)) :
    ∀ x ∈ xs, good x := by
  induction fuel generalizing first cs xs with
  | zero => cases h
  | succ fuel ih =>
      rw [readItems] at h
      obtain ⟨⟨more, cs₁⟩, -, h⟩ := bind_eq_ok h
      simp only at h
      split at h
      · obtain ⟨⟨x, cs₂⟩, hx, h⟩ := bind_eq_ok h
        obtain ⟨⟨ys, cs₃⟩, hys, h⟩ := bind_eq_ok h
        cases h
        intro y hy
        rcases List.mem_cons.mp hy with rfl | hy
        · exact hitem _ _ _ hx
        · exact ih hys y hy
      · cases h
        simp

/-- What holds of every value that a reader gives holds of the fields that it reads. -/
theorem forall_of_readFields {α : Type} {item : String → Reader α} {good : α → Prop}
    (hitem : ∀ name cs x rest, item name cs = .ok (x, rest) → good x) {fuel : Nat} {first : Bool}
    {cs rest : List Char} {fields : List (String × α)}
    (h : readFields item fuel first cs = .ok (fields, rest)) : ∀ f ∈ fields, good f.2 := by
  induction fuel generalizing first cs fields with
  | zero => cases h
  | succ fuel ih =>
      rw [readFields] at h
      obtain ⟨⟨more, cs₁⟩, -, h⟩ := bind_eq_ok h
      simp only at h
      split at h
      · obtain ⟨⟨name, cs₂⟩, -, h⟩ := bind_eq_ok h
        obtain ⟨cs₃, -, h⟩ := bind_eq_ok h
        obtain ⟨⟨x, cs₄⟩, hx, h⟩ := bind_eq_ok h
        obtain ⟨⟨gs, cs₅⟩, hgs, h⟩ := bind_eq_ok h
        cases h
        intro f hf
        rcases List.mem_cons.mp hf with rfl | hf
        · exact hitem _ _ _ _ hx
        · exact ih hgs f hf
      · cases h
        simp

/-! ## Fields in order -/

theorem mem_setField {name : String} {value : Json} {fields : List (String × Json)}
    {f : String × Json} (h : f ∈ setField name value fields) : f = (name, value) ∨ f ∈ fields := by
  induction fields with
  | nil => simpa [setField] using h
  | cons g fields ih =>
      rw [setField] at h
      split_ifs at h with hsame hbefore
      · rcases List.mem_cons.mp h with hf | hf
        · exact .inl (by rw [hf, hsame])
        · exact .inr (List.mem_cons_of_mem g hf)
      · rcases List.mem_cons.mp h with hf | hf
        · exact .inl hf
        · exact .inr hf
      · rcases List.mem_cons.mp h with hf | hf
        · exact .inr (by simp [hf])
        · exact (ih hf).imp_right (List.mem_cons_of_mem g)

theorem ascending_setField {fields : List (String × Json)} (h : Ascending fields) (name : String)
    (value : Json) : Ascending (setField name value fields) := by
  induction fields with
  | nil => simp [setField, Ascending]
  | cons g fields ih =>
      rw [Ascending, List.map_cons, List.pairwise_cons] at h
      obtain ⟨hfirst, hrest⟩ := h
      rw [setField]
      split_ifs with hsame hbefore
      · rw [Ascending, List.map_cons, List.pairwise_cons]
        exact ⟨hfirst, hrest⟩
      · rw [Ascending, List.map_cons, List.map_cons, List.pairwise_cons, List.pairwise_cons]
        refine ⟨?_, hfirst, hrest⟩
        intro n hn
        rcases List.mem_cons.mp hn with rfl | hn
        · exact hbefore
        · exact hbefore.trans (hfirst n hn)
      · rw [Ascending, List.map_cons, List.pairwise_cons]
        refine ⟨?_, ih hrest⟩
        intro n hn
        obtain ⟨f, hf, rfl⟩ := List.mem_map.mp hn
        rcases mem_setField hf with rfl | hf
        · exact lt_of_le_of_ne (not_lt.mp hbefore) (Ne.symm hsame)
        · exact hfirst f.1 (List.mem_map_of_mem hf)

theorem sortFields_spec (fields : List (String × Json)) :
    Ascending (sortFields fields) ∧ ∀ f ∈ sortFields fields, f ∈ fields := by
  -- the fold starts from no fields, but the induction needs any that are in order
  have hfold : ∀ rest acc : List (String × Json), Ascending acc →
      Ascending (rest.foldl (fun acc f => setField f.1 f.2 acc) acc) ∧
        ∀ f ∈ rest.foldl (fun acc f => setField f.1 f.2 acc) acc, f ∈ acc ∨ f ∈ rest := by
    intro rest
    induction rest with
    | nil => exact fun acc hacc => ⟨hacc, fun f hf => .inl hf⟩
    | cons g rest ih =>
        intro acc hacc
        obtain ⟨hsorted, hmem⟩ := ih (setField g.1 g.2 acc) (ascending_setField hacc g.1 g.2)
        refine ⟨hsorted, fun f hf => ?_⟩
        rcases hmem f hf with hset | hrest
        · rcases mem_setField hset with rfl | hold
          · exact .inr (by simp)
          · exact .inl hold
        · exact .inr (List.mem_cons_of_mem g hrest)
  obtain ⟨hsorted, hmem⟩ := hfold fields [] (by simp [Ascending])
  exact ⟨hsorted, fun f hf => (hmem f hf).resolve_left (by simp)⟩

/-! ## Values -/

/-- Every value that is read fits the depth at which it was read. -/
theorem fits_of_readValue {depth : Nat} {cs rest : List Char} {j : Json}
    (h : readValue depth cs = .ok (j, rest)) : Fits depth j := by
  induction depth using Nat.strongRecOn generalizing cs rest j with
  | ind depth ih =>
      rw [readValue.eq_def] at h
      simp only at h
      split at h
      · cases h
      · split_ifs at h
        · obtain ⟨_, -, h⟩ := bind_eq_ok h
          cases h
          exact .null depth
        · obtain ⟨_, -, h⟩ := bind_eq_ok h
          cases h
          exact .bool depth true
        · obtain ⟨_, -, h⟩ := bind_eq_ok h
          cases h
          exact .bool depth false
        · obtain ⟨⟨n, _⟩, hn, h⟩ := bind_eq_ok h
          cases h
          exact fits_number (fits_of_readNumber hn) depth
        · obtain ⟨⟨n, _⟩, hn, h⟩ := bind_eq_ok h
          cases h
          exact fits_number (fits_of_readNumber hn) depth
        · obtain ⟨⟨s, _⟩, -, h⟩ := bind_eq_ok h
          cases h
          exact .text depth s
        · -- a list, whose items were read one level deeper
          split at h
          · cases h
          · cases h
          · rename_i inner hinner
            obtain ⟨⟨items, _⟩, hitems, h⟩ := bind_eq_ok h
            cases h
            obtain ⟨k, rfl⟩ := Nat.exists_eq_succ_of_ne_zero hinner
            exact .list (forall_of_readItems (fun _ _ _ hj => ih (k + 1) (Nat.lt_succ_self _) hj)
              hitems)
        · split at h
          · cases h
          · cases h
          · rename_i inner hinner
            obtain ⟨⟨fields, _⟩, hfields, h⟩ := bind_eq_ok h
            cases h
            obtain ⟨k, rfl⟩ := Nat.exists_eq_succ_of_ne_zero hinner
            -- fields may come in any order and repeat, and what is kept of them is in order
            have hfits := forall_of_readFields
              (fun _ _ _ _ hj => ih (k + 1) (Nat.lt_succ_self _) hj) hfields
            obtain ⟨hsorted, hmem⟩ := sortFields_spec fields
            exact .object hsorted fun f hf => hfits f (hmem f hf)
        · cases h

/-- Every text that is read as a value gives one that can be written and read again. -/
theorem fits_of_parse {s : String} {j : Json} (h : parse s = .ok j) : Fits depthLimit j := by
  rw [parse, parseChars] at h
  split at h
  · rename_i k hread
    cases h
    obtain ⟨⟨j, rest⟩, hvalue, hend⟩ := bind_eq_ok hread
    simp only at hend
    split at hend
    · cases hend
      exact fits_of_readValue hvalue
    · cases hend
  · cases h

end FossilRecord.Json
