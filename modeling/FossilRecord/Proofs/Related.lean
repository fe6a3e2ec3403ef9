import FossilRecord.Related
import Mathlib.Data.String.Basic

/-!
# Newest symbols and sorted names

A table keeps the first version that it is given for a name.  In a list of symbols whose versions
never increase that is the highest one of the name, so that comparing with it picks the newest
symbols (`keeps_newest_per_name`).  Inserting names one by one gives every name once, in ascending
order.
-/

namespace FossilRecord

namespace Symbol

/-! ## The first version of a name -/

/-- A name that is in the table keeps its version, and one that is not gets that of the symbol. -/
theorem lookup_noteVersion (noted : List (String × Int)) (s : Symbol) (name : String) :
    (noteVersion noted s).lookup name =
      (noted.lookup name).or (if s.name = name then some s.version else none) := by
  unfold noteVersion
  by_cases hname : s.name = name
  · subst hname
    cases hnoted : noted.lookup s.name <;> simp [hnoted]
  · have hother : (name == s.name) = false := beq_eq_false_iff_ne.mpr (Ne.symm hname)
    cases noted.lookup s.name <;> simp [List.lookup_cons, hother, hname]

/-- Noting the versions of symbols adds those of the first ones of their names. -/
theorem lookup_foldl_noteVersion (symbols : List Symbol) (noted : List (String × Int))
    (name : String) : (symbols.foldl noteVersion noted).lookup name =
      (noted.lookup name).or ((symbols.find? fun x => x.name = name).map Symbol.version) := by
  induction symbols generalizing noted with
  | nil => simp
  | cons s rest ih =>
      rw [List.foldl_cons, ih, lookup_noteVersion, Option.or_assoc, List.find?_cons]
      by_cases hname : s.name = name <;> simp [hname]

theorem lookup_firstVersions (symbols : List Symbol) (name : String) :
    (firstVersions symbols).lookup name =
      (symbols.find? fun x => x.name = name).map Symbol.version := by
  rw [firstVersions, lookup_foldl_noteVersion, List.lookup_nil, Option.none_or]

/-! ## Newest symbols -/

/-- Symbols whose versions never increase along the list. -/
def NewestFirst (symbols : List Symbol) : Prop :=
  symbols.Pairwise fun a b => b.version ≤ a.version

instance (symbols : List Symbol) : Decidable (NewestFirst symbols) :=
  inferInstanceAs (Decidable (symbols.Pairwise fun a b => b.version ≤ a.version))

/-- Whether no symbol of its name has a higher version than a symbol. -/
def IsNewest (symbols : List Symbol) (x : Symbol) : Prop :=
  ∀ y ∈ symbols, y.name = x.name → y.version ≤ x.version

instance (symbols : List Symbol) (x : Symbol) : Decidable (IsNewest symbols x) :=
  inferInstanceAs (Decidable (∀ y ∈ symbols, y.name = x.name → y.version ≤ x.version))

section

variable {symbols : List Symbol}

/-- No symbol of a name is newer than the first one. -/
theorem NewestFirst.version_le (h : NewestFirst symbols) {name : String}
    {first : Symbol} (hfirst : symbols.find? (fun x => x.name = name) = some first) :
    ∀ x ∈ symbols, x.name = name → x.version ≤ first.version := by
  induction symbols with
  | nil => simp
  | cons y rest ih =>
      rw [NewestFirst, List.pairwise_cons] at h
      rw [List.find?_cons] at hfirst
      split at hfirst
      · cases hfirst
        intro x hx _
        rcases List.mem_cons.mp hx with rfl | hx
        · exact le_refl _
        · exact h.1 x hx
      · rename_i hname
        intro x hx hxname
        rcases List.mem_cons.mp hx with rfl | hx
        · simp [hxname] at hname
        · exact ih h.2 hfirst x hx hxname

/-- A name that occurs has a first symbol, and that is a newest one. -/
theorem NewestFirst.exists_first (h : NewestFirst symbols) {x : Symbol} (hx : x ∈ symbols) :
    ∃ first ∈ symbols, first.name = x.name ∧ IsNewest symbols first ∧
      symbols.find? (fun y => y.name = x.name) = some first := by
  obtain ⟨first, hfirst⟩ : ∃ first, symbols.find? (fun y => y.name = x.name) = some first :=
    Option.isSome_iff_exists.mp (List.find?_isSome.mpr ⟨x, hx, decide_eq_true rfl⟩)
  have hname : first.name = x.name := by simpa using List.find?_some hfirst
  refine ⟨first, List.mem_of_find?_eq_some hfirst, hname, ?_, hfirst⟩
  intro y hy hyname
  exact h.version_le hfirst y hy (hyname.trans hname)

/-- A symbol is a newest one of its name if it has the version of the first one. -/
theorem NewestFirst.lookup_eq_iff (h : NewestFirst symbols) {x : Symbol} (hx : x ∈ symbols) :
    (firstVersions symbols).lookup x.name = some x.version ↔ IsNewest symbols x := by
  obtain ⟨first, hmem, hname, hnewest, hfirst⟩ := h.exists_first hx
  rw [lookup_firstVersions, hfirst, Option.map_some, Option.some.injEq]
  constructor
  · intro hversion y hy hyname
    exact hversion ▸ hnewest y hy (hyname.trans hname.symm)
  · intro hle
    exact le_antisymm (hle first hmem hname) (hnewest x hx hname.symm)

/-- The symbols that are kept are the newest ones of their names, in the order they were in. -/
theorem NewestFirst.mostRecentPerName_eq (h : NewestFirst symbols) :
    mostRecentPerName symbols = symbols.filter fun x => decide (IsNewest symbols x) := by
  rw [mostRecentPerName]
  exact List.filter_congr fun x hx => decide_eq_decide.mpr (h.lookup_eq_iff hx)

theorem NewestFirst.mem_mostRecentPerName (h : NewestFirst symbols)
    (x : Symbol) : x ∈ mostRecentPerName symbols ↔
      x ∈ symbols ∧ ∀ y ∈ symbols, y.name = x.name → y.version ≤ x.version := by
  rw [h.mostRecentPerName_eq, List.mem_filter, decide_eq_true_eq, IsNewest]

theorem NewestFirst.filter (h : NewestFirst symbols) (keep : Symbol → Bool) :
    NewestFirst (symbols.filter keep) :=
  List.Pairwise.filter keep h

/-- Whether a symbol is a newest one of its name is settled by the symbols of that name. -/
theorem isNewest_filter_name {keep : String → Bool} {x : Symbol} (hx : keep x.name = true) :
    IsNewest (symbols.filter fun y => keep y.name) x ↔ IsNewest symbols x := by
  constructor
  · intro hnewest y hy hname
    exact hnewest y (List.mem_filter.mpr ⟨hy, by rw [hname, hx]⟩) hname
  · intro hnewest y hy
    exact hnewest y (List.mem_of_mem_filter hy)

/-- Symbols can be picked by their names before or after the newest ones are kept. -/
theorem NewestFirst.mostRecentPerName_filter (h : NewestFirst symbols) (keep : String → Bool) :
    mostRecentPerName (symbols.filter fun x => keep x.name) =
      (mostRecentPerName symbols).filter fun x => keep x.name := by
  rw [(h.filter _).mostRecentPerName_eq, h.mostRecentPerName_eq, List.filter_filter,
    List.filter_filter]
  refine List.filter_congr fun x _ => ?_
  by_cases hx : keep x.name = true
  · simp only [hx, isNewest_filter_name hx, Bool.and_true, Bool.true_and]
  · simp only [Bool.not_eq_true] at hx
    simp only [hx, Bool.and_false, Bool.false_and]

/-- Of the newest symbols all are kept. -/
theorem NewestFirst.mostRecentPerName_mostRecentPerName (h : NewestFirst symbols) :
    mostRecentPerName (mostRecentPerName symbols) = mostRecentPerName symbols := by
  have hkept : NewestFirst (mostRecentPerName symbols) := h.filter _
  rw [hkept.mostRecentPerName_eq, List.filter_eq_self]
  intro x hx
  rw [decide_eq_true_eq]
  intro y hy
  exact ((h.mem_mostRecentPerName x).mp hx).2 y ((h.mem_mostRecentPerName y).mp hy).1

/-- Of symbols whose versions never increase along the list, exactly those are kept, in their order,
whose version is the highest of their name.  So every name is kept and with one version only, those
that are kept are all kept again, and symbols may as well be picked by their names before. -/
theorem keeps_newest_per_name (h : NewestFirst symbols) :
    (mostRecentPerName symbols = symbols.filter fun x => decide (IsNewest symbols x)) ∧
    (∀ x ∈ symbols, ∃ y ∈ mostRecentPerName symbols, y.name = x.name) ∧
    (∀ x ∈ mostRecentPerName symbols, ∀ y ∈ mostRecentPerName symbols, x.name = y.name →
      x.version = y.version) ∧
    mostRecentPerName (mostRecentPerName symbols) = mostRecentPerName symbols ∧
    ∀ keep : String → Bool, mostRecentPerName (symbols.filter fun x => keep x.name) =
      (mostRecentPerName symbols).filter fun x => keep x.name := by
  refine ⟨h.mostRecentPerName_eq, ?names, ?versions, h.mostRecentPerName_mostRecentPerName,
    h.mostRecentPerName_filter⟩
  case names =>
    intro x hx
    obtain ⟨first, hmem, hname, hnewest, -⟩ := h.exists_first hx
    exact ⟨first, (h.mem_mostRecentPerName first).mpr ⟨hmem, hnewest⟩, hname⟩
  case versions =>
    intro x hx y hy hname
    obtain ⟨hxmem, hxnewest⟩ := (h.mem_mostRecentPerName x).mp hx
    obtain ⟨hymem, hynewest⟩ := (h.mem_mostRecentPerName y).mp hy
    exact le_antisymm (hynewest x hxmem hname) (hxnewest y hymem hname.symm)

end

/-- Two of three symbols of a name are in the newest version that has it, and another name is only
in the older one. -/
theorem keeps_newest_per_name_two_versions :
    let symbol (name file : String) (version : Int) : Symbol :=
      ⟨⟨0⟩, ⟨0⟩, ⟨0⟩, version, file, none, .function, name, none, none, none⟩
    let symbols := [symbol "foo" "b.py" 2, symbol "foo" "c.py" 2, symbol "bar" "x.py" 2,
      symbol "foo" "a.py" 1, symbol "old" "z.py" 1]
    NewestFirst symbols ∧
      (mostRecentPerName symbols).map Symbol.filePath = ["b.py", "c.py", "x.py", "z.py"] ∧
      mostRecentPerName (symbols.filter fun x => x.name = "foo") =
        (mostRecentPerName symbols).filter fun x => x.name = "foo" := by
  intro symbol symbols
  have hnewest : NewestFirst symbols := by decide
  obtain ⟨hkept, -, -, -, hpicked⟩ := keeps_newest_per_name hnewest
  refine ⟨hnewest, ?_, hpicked fun name => name = "foo"⟩
  rw [hkept]
  decide

end Symbol

namespace Relationships

/-! ## Names in order -/

theorem mem_insertName {x name : String} {names : List String} :
    x ∈ insertName name names ↔ x = name ∨ x ∈ names := by
  induction names with
  | nil => simp [insertName]
  | cons n rest ih =>
      rw [insertName]
      split
      · rename_i heq
        simp [heq]
      · split
        · exact List.mem_cons
        · rw [List.mem_cons, ih, List.mem_cons]
          exact or_left_comm

theorem insertName_pairwise {name : String} {names : List String}
    (h : names.Pairwise (· < ·)) : (insertName name names).Pairwise (· < ·) := by
  induction names with
  | nil => simp [insertName]
  | cons n rest ih =>
      have hcons := List.pairwise_cons.mp h
      rw [insertName]
      split
      · exact h
      · rename_i hne
        split
        · rename_i hlt
          refine List.pairwise_cons.mpr ⟨fun x hx => ?_, h⟩
          rcases List.mem_cons.mp hx with rfl | hx
          · exact hlt
          · exact lt_trans hlt (hcons.1 x hx)
        · rename_i hge
          refine List.pairwise_cons.mpr ⟨fun x hx => ?_, ih hcons.2⟩
          rcases mem_insertName.mp hx with rfl | hx
          · exact lt_of_le_of_ne (not_lt.mp hge) (Ne.symm hne)
          · exact hcons.1 x hx

/-- Inserting names one by one into a list adds them and keeps the list in order. -/
theorem foldl_insertName {names acc : List String} (h : acc.Pairwise (· < ·)) :
    (names.foldl (fun acc n => insertName n acc) acc).Pairwise (· < ·) ∧
      ∀ x, x ∈ names.foldl (fun acc n => insertName n acc) acc ↔ x ∈ names ∨ x ∈ acc := by
  induction names generalizing acc with
  | nil => exact ⟨h, by simp⟩
  | cons n rest ih =>
      have hinsert : (insertName n acc).Pairwise (· < ·) := insertName_pairwise h
      obtain ⟨hsorted, hmem⟩ := ih hinsert
      refine ⟨hsorted, fun x => ?_⟩
      rw [List.foldl_cons, hmem, mem_insertName, List.mem_cons]
      tauto

theorem sortedNames_pairwise (names : List String) : (sortedNames names).Pairwise (· < ·) :=
  (foldl_insertName List.Pairwise.nil).1

@[simp] theorem mem_sortedNames {x : String} {names : List String} :
    x ∈ sortedNames names ↔ x ∈ names := by
  have hfold : x ∈ sortedNames names ↔ x ∈ names ∨ x ∈ [] :=
    (foldl_insertName List.Pairwise.nil).2 x
  simpa using hfold

/-- The names that occur are those of the three lists. -/
theorem mem_referencedNames {x : String} {r : Relationships} :
    x ∈ r.referencedNames ↔ x ∈ r.calls ∨ x ∈ r.calledBy ∨ x ∈ r.dependsOn := by
  rw [referencedNames, mem_sortedNames, allNames, List.mem_append, List.mem_append, or_assoc]

end Relationships

end FossilRecord
