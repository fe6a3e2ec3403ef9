import FossilRecord.Path
import Mathlib.Data.List.TakeWhile

/-!
# Paths of names

A path that is put together from names has these names as its parts, so different names have
different paths.
-/

namespace FossilRecord

theorem Text.splitFrom_eq (c : Char) (piece cs : List Char) :
    splitFrom c piece cs = List.splitOnPPrepend (· == c) cs piece := by
  induction cs generalizing piece with
  | nil => simp [splitFrom]
  | cons d cs ih => simp [splitFrom, List.splitOnPPrepend, ih]

theorem Text.splitAt_eq_splitOn (c : Char) (cs : List Char) :
    splitAt c cs = cs.splitOn c :=
  splitFrom_eq c [] cs

namespace Path

/-- Whether a text can stand for something in a folder. -/
def IsName (name : String) : Prop :=
  name ≠ "" ∧ name ≠ "." ∧ name ≠ ".." ∧ '/' ∉ name.toList

instance : DecidablePred IsName :=
  fun name => inferInstanceAs
    (Decidable (name ≠ "" ∧ name ≠ "." ∧ name ≠ ".." ∧ '/' ∉ name.toList))

variable {names : List String}

theorem splitAt_ofNames (hne : names ≠ []) (h : ∀ name ∈ names, '/' ∉ name.toList) :
    (Text.splitAt '/' (ofNames names).toList).map String.ofList = names := by
  have hslash : "/".toList = ['/'] := rfl
  rw [Text.splitAt_eq_splitOn, ofNames, String.toList_intercalate, hslash,
    List.splitOn_intercalate '/' (by simpa using h) (by simpa using hne), List.map_map]
  exact (List.map_congr_left fun _ _ => String.ofList_toList).trans (List.map_id names)

/-- The parts of a path of names are these names. -/
theorem parts_ofNames (h : ∀ name ∈ names, IsName name) : parts (ofNames names) = names := by
  cases names with
  | nil => rfl
  | cons first rest =>
      have hsplit := splitAt_ofNames (List.cons_ne_nil first rest) fun name hname =>
        (h name hname).2.2.2
      have hrest : (rest.filter fun p => p ≠ "" ∧ p ≠ ".") = rest := by
        refine List.filter_eq_self.mpr fun name hname => ?_
        obtain ⟨hempty, hpoint, -⟩ := h name (List.mem_cons_of_mem first hname)
        simp [hempty, hpoint]
      have hfirst : first ≠ "" := (h first List.mem_cons_self).1
      simp only [parts, hsplit, hrest, if_neg hfirst, List.singleton_append]

/-- Different names have different paths. -/
theorem ofNames_inj {others : List String} (h : ∀ name ∈ names, IsName name)
    (hothers : ∀ name ∈ others, IsName name) (heq : ofNames names = ofNames others) :
    names = others := by
  rw [← parts_ofNames h, heq, parts_ofNames hothers]

theorem fileName?_ofNames (h : ∀ name ∈ names, IsName name) :
    fileName? (ofNames names) = names.getLast? := by
  rw [fileName?, parts_ofNames h]
  cases hlast : names.getLast? with
  | none => rfl
  | some name =>
      obtain ⟨-, hpoint, hpoints, -⟩ := h name (List.mem_of_getLast? hlast)
      simp [hpoint, hpoints]

theorem extension?_ofNames (h : ∀ name ∈ names, IsName name) :
    extension? (ofNames names) = names.getLast?.bind extensionOf? := by
  rw [extension?, fileName?_ofNames h]

/-- Read backwards, a name with a point has its extension before the first point. -/
theorem extensionOf?_of_reverse {name : String} {after before : List Char}
    (hname : name.toList.reverse = after ++ '.' :: before) (hafter : '.' ∉ after) :
    extensionOf? name = if before.isEmpty then none else some (String.ofList after.reverse) := by
  have htake : (after ++ '.' :: before).takeWhile (· ≠ '.') = after := by
    have hpass : ∀ c ∈ after, decide (c ≠ '.') = true := fun c hc =>
      decide_eq_true fun h => hafter (h ▸ hc)
    rw [List.takeWhile_append_of_pos hpass]
    simp
  simp only [extensionOf?, hname, htake, List.drop_left, List.drop_one, List.tail_cons]

/-- The extension of a name is what follows its last point, and something stands before that. -/
theorem extensionOf?_eq_some {name ext : String} :
    extensionOf? name = some ext ↔
      ∃ stem, name = stem ++ "." ++ ext ∧ stem ≠ "" ∧ '.' ∉ ext.toList := by
  constructor
  · intro h
    by_cases hpoint : '.' ∈ name.toList.reverse
    · obtain ⟨after, before, hname, hafter⟩ := List.eq_append_cons_of_mem hpoint
      rw [extensionOf?_of_reverse hname hafter, Option.ite_none_left_eq_some,
        Option.some.injEq] at h
      obtain ⟨hbefore, rfl⟩ := h
      refine ⟨String.ofList before.reverse, ?_, by simpa using hbefore, by simpa using hafter⟩
      rw [← String.toList_inj, ← List.reverse_inj, hname]
      simp
    · have hpass : ∀ c ∈ name.toList.reverse, decide (c ≠ '.') = true := fun c hc =>
        decide_eq_true fun h => hpoint (h ▸ hc)
      simp only [extensionOf?, List.takeWhile_eq_self_iff.mpr hpass, List.drop_length,
        List.drop_nil, List.isEmpty_nil, if_pos, reduceCtorEq] at h
  · rintro ⟨stem, rfl, hstem, hext⟩
    have hname : (stem ++ "." ++ ext).toList.reverse =
        ext.toList.reverse ++ '.' :: stem.toList.reverse := by
      simp
    rw [extensionOf?_of_reverse hname (by simpa using hext)]
    simp [hstem]

end Path

end FossilRecord
