import FossilRecord.Proofs.Disk
import FossilRecord.Source.Scan

/-!
# The walk below a folder

The walk goes down level by level, but what it finds can be said without it: the files on whose way
no skipped folder stands, each once.
-/

namespace FossilRecord.Source

/-- Whether a file stands at a place below a folder and the folders on the way are looked into. -/
structure IsReached (d : Disk) (root names : Disk.Place) : Prop where
  below : names ≠ []
  isFile : ∃ entry, (root ++ names, entry) ∈ d.entries ∧ entry.isFile
  unskipped : ∀ name ∈ names.dropLast, name ∉ skippedFolders

variable {d : Disk} {root names : Disk.Place}

theorem mem_filesFrom {below : Disk.Place → List Disk.Place} {name : String}
    {entry : Disk.Entry} {found : Disk.Place} :
    found ∈ filesFrom below names (name, entry) ↔
      (entry.isFile ∧ found = names ++ [name]) ∨
        (entry = .folder ∧ name ∉ skippedFolders ∧ found ∈ below (names ++ [name])) := by
  cases entry <;> simp [filesFrom, Disk.Entry.isFile]

theorem mem_filesBelow_succ {levels : Nat} {found : Disk.Place} :
    found ∈ filesBelow d root (levels + 1) names ↔
      ∃ name entry, (root ++ (names ++ [name]), entry) ∈ d.entries ∧
        found ∈ filesFrom (filesBelow d root levels) names (name, entry) := by
  simp only [filesBelow, List.mem_flatMap, Prod.exists, Disk.mem_children, List.append_assoc]

theorem isReached_of_mem_filesBelow {levels : Nat} {found : Disk.Place}
    (hfound : found ∈ filesBelow d root levels names) :
    ∃ rest, found = names ++ rest ∧ IsReached d (root ++ names) rest := by
  induction levels generalizing names with
  | zero => simp [filesBelow] at hfound
  | succ levels ih =>
      obtain ⟨name, entry, hchild, hfrom⟩ := mem_filesBelow_succ.mp hfound
      rcases mem_filesFrom.mp hfrom with ⟨hfile, rfl⟩ | ⟨rfl, hopen, hbelow⟩
      · refine ⟨[name], rfl, List.cons_ne_nil name [], ⟨entry, ?_, hfile⟩, by simp⟩
        rwa [List.append_assoc]
      · obtain ⟨rest, rfl, hrest⟩ := ih hbelow
        obtain ⟨entry, hentry, hfile⟩ := hrest.isFile
        refine ⟨name :: rest, by simp, List.cons_ne_nil name rest, ⟨entry, ?_, hfile⟩, ?_⟩
        · simpa using hentry
        · rw [List.dropLast_cons_of_ne_nil hrest.below]
          exact List.forall_mem_cons.mpr ⟨hopen, hrest.unskipped⟩

theorem mem_filesBelow_of_isReached (h : d.IsTree) {levels : Nat} {rest : Disk.Place}
    (hrest : IsReached d (root ++ names) rest) (hlength : rest.length ≤ levels) :
    names ++ rest ∈ filesBelow d root levels names := by
  induction levels generalizing names rest with
  | zero => exact absurd (List.length_eq_zero_iff.mp (Nat.le_zero.mp hlength)) hrest.below
  | succ levels ih =>
      obtain ⟨hbelow, ⟨entry, hentry, hfile⟩, hopen⟩ := hrest
      rw [mem_filesBelow_succ]
      cases rest with
      | nil => exact absurd rfl hbelow
      | cons name rest =>
          by_cases hlast : rest = []
          · subst hlast
            exact ⟨name, entry, by simpa using hentry, mem_filesFrom.mpr (.inl ⟨hfile, rfl⟩)⟩
          · -- the file stands deeper, in a folder that this child has to be
            have hbeneath : (root ++ (names ++ [name]) ++ rest, entry) ∈ d.entries := by
              simpa using hentry
            have hparent : (root ++ (names ++ [name]), .folder) ∈ d.entries :=
              h.folder_mem (by simp) hlast hbeneath
            rw [List.dropLast_cons_of_ne_nil hlast, List.forall_mem_cons] at hopen
            refine ⟨name, .folder, hparent, mem_filesFrom.mpr (.inr ⟨rfl, hopen.1, ?_⟩)⟩
            have hdeeper : IsReached d (root ++ (names ++ [name])) rest :=
              ⟨hlast, ⟨entry, hbeneath, hfile⟩, hopen.2⟩
            simpa using ih hdeeper (Nat.le_of_succ_le_succ hlength)

/-- The walk from a folder finds the files that are reached from it. -/
theorem mem_filesBelow (h : d.IsTree) :
    names ∈ filesBelow d root d.levels [] ↔ IsReached d root names := by
  constructor
  · intro hnames
    obtain ⟨rest, rfl, hrest⟩ := isReached_of_mem_filesBelow hnames
    simpa using hrest
  · intro hnames
    obtain ⟨entry, hentry, -⟩ := hnames.isFile
    have hlevels := Disk.length_le_levels hentry
    rw [List.length_append] at hlevels
    have hstart : IsReached d (root ++ []) names := by rwa [List.append_nil]
    simpa using mem_filesBelow_of_isReached h hstart (by omega)

/-- What is found with something in a folder begins with its name. -/
theorem exists_of_mem_filesFrom {levels : Nat} {child : String × Disk.Entry} {found : Disk.Place}
    (hfound : found ∈ filesFrom (filesBelow d root levels) names child) :
    ∃ rest, found = names ++ child.1 :: rest := by
  rcases mem_filesFrom.mp hfound with ⟨-, rfl⟩ | ⟨-, -, hbelow⟩
  · exact ⟨[], rfl⟩
  · obtain ⟨rest, rfl, -⟩ := isReached_of_mem_filesBelow hbelow
    exact ⟨rest, by simp⟩

/-- The walk finds every file once. -/
theorem nodup_filesBelow (h : d.IsTree) (levels : Nat) (names : Disk.Place) :
    (filesBelow d root levels names).Nodup := by
  induction levels generalizing names with
  | zero => exact List.nodup_nil
  | succ levels ih =>
      rw [filesBelow, List.nodup_flatMap]
      constructor
      · intro child _
        unfold filesFrom
        split_ifs
        · exact List.nodup_singleton _
        · exact ih _
        · exact List.nodup_nil
      · refine (h.pairwise_children _).imp fun {a b} hne found ha hb => hne ?_
        obtain ⟨rest, rfl⟩ := exists_of_mem_filesFrom ha
        obtain ⟨rest', hrest'⟩ := exists_of_mem_filesFrom hb
        exact (List.cons.inj (List.append_cancel_left hrest')).1

end FossilRecord.Source
