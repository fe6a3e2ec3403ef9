import FossilRecord.Disk
import FossilRecord.Proofs.Except
import FossilRecord.Proofs.Path
import FossilRecord.Proofs.Sort
import Mathlib.Data.List.Induction
import Mathlib.Data.List.Nodup

/-!
# Trees of files

The entries of a tree, whose order is the order in which its folders are listed.  What a path leads
to depends on the entries only and not on their order.
-/

namespace FossilRecord.Disk

/-- Entries that make a tree: a place has one entry, and what is not beside the root stands in a
folder. -/
structure IsTree (d : Disk) : Prop where
  places : (d.entries.map (·.1)).Nodup
  names : ∀ e ∈ d.entries, ∀ name ∈ e.1, Path.IsName name
  folders : ∀ e ∈ d.entries, e.1.dropLast = [] ∨ (e.1.dropLast, .folder) ∈ d.entries

instance (d : Disk) : Decidable d.IsTree :=
  decidable_of_iff
    ((d.entries.map (·.1)).Nodup ∧ (∀ e ∈ d.entries, ∀ name ∈ e.1, Path.IsName name) ∧
      ∀ e ∈ d.entries, e.1.dropLast = [] ∨ (e.1.dropLast, .folder) ∈ d.entries)
    ⟨fun h => ⟨h.1, h.2.1, h.2.2⟩, fun h => ⟨h.places, h.names, h.folders⟩⟩

variable {d d' : Disk}

/-! ## Entries -/

theorem IsTree.perm (h : d.IsTree) (hperm : d'.entries.Perm d.entries) : d'.IsTree where
  places := (hperm.map (·.1)).nodup_iff.mpr h.places
  names := fun e he => h.names e (hperm.subset he)
  folders := fun e he => (h.folders e (hperm.subset he)).imp_right fun hf => hperm.symm.subset hf

/-- Every place on the way to an entry is a folder. -/
theorem IsTree.folder_mem (h : d.IsTree) {place rest : Place} {entry : Entry}
    (hplace : place ≠ []) (hrest : rest ≠ []) (he : (place ++ rest, entry) ∈ d.entries) :
    (place, .folder) ∈ d.entries := by
  induction rest using List.reverseRecOn generalizing entry with
  | nil => exact absurd rfl hrest
  | append_singleton rest name ih =>
      have hparent := h.folders _ he
      simp only [← List.append_assoc, List.dropLast_concat] at hparent
      have hfolder := hparent.resolve_left (by simp [hplace])
      cases rest with
      | nil => simpa using hfolder
      | cons next rest => exact ih (List.cons_ne_nil next rest) hfolder

theorem IsTree.entry_unique (h : d.IsTree) {place : Place} {entry other : Entry}
    (he : (place, entry) ∈ d.entries) (ho : (place, other) ∈ d.entries) : entry = other :=
  congrArg (·.2) (List.inj_on_of_nodup_map h.places he ho rfl)

theorem IsTree.at?_eq_some (h : d.IsTree) {place : Place} {entry : Entry} (hplace : place ≠ []) :
    d.at? place = some entry ↔ (place, entry) ∈ d.entries := by
  have hempty : ¬place.isEmpty = true := by simpa using hplace
  rw [at?, if_neg hempty, Option.map_eq_some_iff]
  constructor
  · rintro ⟨e, hfind, rfl⟩
    obtain ⟨hmem, rfl⟩ := (find?_key_eq_some h.places).mp hfind
    exact hmem
  · intro hmem
    exact ⟨(place, entry), (find?_key_eq_some h.places).mpr ⟨hmem, rfl⟩, rfl⟩

theorem length_le_levels {e : Place × Entry} (he : e ∈ d.entries) : e.1.length ≤ d.levels :=
  List.le_max?_getD_of_mem (List.mem_map_of_mem (f := fun e => e.1.length) he)

/-! ## What stands in a folder -/

theorem inFolder?_eq_some {folder : Place} {e : Place × Entry} {name : String} {entry : Entry} :
    inFolder? folder e = some (name, entry) ↔ e = (folder ++ [name], entry) := by
  obtain ⟨place, entry⟩ := e
  simp only [inFolder?, Option.ite_none_right_eq_some, Option.map_eq_some_iff, Prod.mk.injEq]
  constructor
  · rintro ⟨rfl, name, hlast, rfl, rfl⟩
    exact ⟨(List.dropLast_append_getLast? name hlast).symm, rfl⟩
  · rintro ⟨rfl, rfl⟩
    simp

theorem mem_children {folder : Place} {name : String} {entry : Entry} :
    (name, entry) ∈ d.children folder ↔ (folder ++ [name], entry) ∈ d.entries := by
  simp [children, List.mem_filterMap, inFolder?_eq_some]

/-- A folder has one entry of a name. -/
theorem IsTree.pairwise_children (h : d.IsTree) (folder : Place) :
    (d.children folder).Pairwise fun a b => a.1 ≠ b.1 := by
  refine List.Pairwise.filterMap _ ?_ (List.pairwise_map.mp h.places)
  rintro e e' hne ⟨name, _⟩ hname ⟨_, _⟩ hname' rfl
  rw [inFolder?_eq_some.mp hname, inFolder?_eq_some.mp hname'] at hne
  exact hne rfl

/-! ## The order of the entries -/

theorem IsTree.at?_perm (h : d.IsTree) (hperm : d'.entries.Perm d.entries) : d'.at? = d.at? := by
  funext place
  by_cases hplace : place = []
  · rw [hplace]
    rfl
  · ext entry
    rw [h.at?_eq_some hplace, (h.perm hperm).at?_eq_some hplace, hperm.mem_iff]

/-- Where steps lead to is known once it is known what stands at each place. -/
theorem follow_congr (hat : d'.at? = d.at?) (fuel : Nat) (here : Place) (steps : List String) :
    d'.follow fuel here steps = d.follow fuel here steps := by
  induction fuel generalizing here steps with
  | zero => simp only [follow]
  | succ fuel ih =>
      cases steps with
      | nil => simp only [follow]
      | cons step rest => simp only [follow, hat, ih]

theorem folder?_congr (hat : d'.at? = d.at?) (folder : Place) (path : String) :
    d'.folder? folder path = d.folder? folder path := by
  simp only [folder?, locate, follow_congr hat, hat]

/-! ## Files that are put -/

section

variable {place : Place} {octets : List UInt8}

theorem at?_put_self (hplace : place ≠ []) (entry : Entry) :
    (d.put place entry).at? place = some entry := by
  have hnone : (d.entries.filter (·.1 ≠ place)).find? (·.1 = place) = none := by
    rw [List.find?_eq_none]
    intro e he heq
    have hne := (List.mem_filter.mp he).2
    exact of_decide_eq_true hne (of_decide_eq_true heq)
  have hempty : ¬place.isEmpty = true := by simpa using hplace
  rw [at?, if_neg hempty, put, List.find?_append, hnone]
  simp

theorem at?_put_of_ne {other : Place} (hne : other ≠ place) (entry : Entry) :
    (d.put place entry).at? other = d.at? other := by
  have hkept : (d.entries.filter (·.1 ≠ place)).find? (·.1 = other) =
      d.entries.find? (·.1 = other) := by
    rw [List.find?_filter]
    congr 1
    funext e
    by_cases he : e.1 = other <;> simp [he, hne]
  rw [at?, at?, put, List.find?_append, hkept]
  simp [hne.symm]

/-- Where a file or nothing stands, another file may be put: what led to somewhere leads there. -/
theorem follow_put (hold : ∀ entry ∈ d.at? place, entry.isFile = true) {fuel : Nat}
    {here found : Place} {steps : List String} (h : d.follow fuel here steps = .ok found) :
    (d.put place (.file octets)).follow fuel here steps = .ok found := by
  induction fuel generalizing here steps with
  | zero =>
      rw [follow] at h
      cases h
  | succ fuel ih =>
      cases steps with
      | nil => simpa only [follow] using h
      | cons step rest =>
          rw [follow] at h ⊢
          split at h
          case h_2 | h_3 => cases h
          rename_i hfolder
          -- steps are taken in folders only, so none is taken from the place itself
          have hhere : here ≠ place := by
            rintro rfl
            exact absurd (hold _ hfolder) (by decide)
          rw [at?_put_of_ne hhere, hfolder]
          simp only at h ⊢
          split_ifs at h ⊢
          · exact ih h
          · exact ih h
          by_cases hthere : here ++ [step] = place
          · -- the way went on to the place, so there was a file, as there is now
            rw [hthere, at?_put_self (by simp [← hthere])]
            rw [hthere] at h
            split at h
            · cases h
            · rename_i hlink
              exact absurd (hold _ hlink) (by simp [Entry.isFile])
            · exact ih h
          · rw [at?_put_of_ne hthere]
            split at h
            · cases h
            · exact ih h
            · exact ih h

/-- A file that is read elsewhere is read as before. -/
theorem read_put (hold : ∀ entry ∈ d.at? place, entry.isFile = true) {folder : Place}
    {path : String} {found : List UInt8} (hread : d.read folder path = .ok found)
    (hother : d.locate folder path ≠ .ok place) :
    (d.put place (.file octets)).read folder path = .ok found := by
  obtain ⟨there, hthere, hfound⟩ := bind_eq_ok hread
  have hne : there ≠ place := fun heq => hother (heq ▸ hthere)
  have hlocate : (d.put place (.file octets)).locate folder path = .ok there := by
    unfold locate at hthere ⊢
    split at hthere
    · cases hthere
    · rename_i hpath
      rw [if_neg hpath]
      exact follow_put hold hthere
  rw [read, hlocate]
  simp only [bind, Except.bind]
  rw [readAt, at?_put_of_ne hne]
  exact hfound

end

end FossilRecord.Disk
