import FossilRecord.Store.Fossils
import FossilRecord.Store.Ingest
import Mathlib.Data.List.Nodup

/-!
# Versions in the order of writing

The versions of a project's fossils count from one in the order in which the fossils were stored.
Where they do, the order by versions is the order of writing backwards, and the next version is one
more than the number of fossils.
-/

namespace FossilRecord.Store

@[simp] theorem Cell.le_integer (n m : Int) :
    Cell.le (.integer n) (.integer m) = decide (n ≤ m) := by
  simp [Cell.le, Cell.ratio?]

/-- The fossils of a project by its stored identifier, in the order in which they were stored. -/
def fossilRows (s : Store) (projectId : Cell) : List FossilRow :=
  s.fossils.filter fun f => f.projectId = projectId

/-- The symbols of a fossil by its stored identifier, in the order in which they were stored. -/
def symbolsOf (s : Store) (fossilId : Cell) : List SymbolRow :=
  s.symbols.filter fun r => r.fossilId = fossilId

/-- The versions from one to a number. -/
def versionsTo (count : Nat) : List Cell :=
  (List.range count).map fun (k : Nat) => Cell.integer (k + 1)

theorem versionsTo_succ (count : Nat) :
    versionsTo (count + 1) = versionsTo count ++ [.integer (count + 1)] := by
  simp [versionsTo, List.range_succ]

theorem versionsTo_pairwise (count : Nat) :
    (versionsTo count).Pairwise fun a b => a.le b = true ∧ b.le a = false := by
  rw [versionsTo, List.pairwise_map]
  refine List.pairwise_lt_range.imp fun {j k} hjk => ?_
  simp only [Cell.le_integer, decide_eq_true_eq, decide_eq_false_iff_not]
  omega

/-- Rows whose versions count up from one. -/
def CountsUp (rows : List FossilRow) : Prop :=
  rows.map FossilRow.version = versionsTo rows.length

namespace CountsUp

variable {rows : List FossilRow}

theorem nil : CountsUp [] := rfl

theorem snoc (h : CountsUp rows) {row : FossilRow}
    (hrow : row.version = .integer (rows.length + 1)) : CountsUp (rows ++ [row]) := by
  rw [CountsUp, List.map_append, h, List.length_append]
  simp [versionsTo_succ, hrow]

theorem pairwise (h : CountsUp rows) :
    rows.Pairwise fun a b => a.version.le b.version = true ∧ b.version.le a.version = false := by
  have hmap := versionsTo_pairwise rows.length
  rw [← h, List.pairwise_map] at hmap
  exact hmap

/-- The last row has the number of the rows as its version. -/
theorem version_getLast (h : CountsUp rows) (hne : rows ≠ []) :
    (rows.getLast hne).version = .integer rows.length := by
  have hlen : rows.length ≠ 0 := by simpa using hne
  obtain ⟨n, hn⟩ := Nat.exists_eq_succ_of_ne_zero hlen
  have hlast : (rows.map FossilRow.version).getLast? = some (.integer rows.length) := by
    rw [h, hn, versionsTo_succ]
    simp
  rw [List.getLast?_map, List.getLast?_eq_getLast_of_ne_nil hne] at hlast
  exact Option.some.inj hlast

/-- Newest first is the order of writing backwards. -/
theorem newestFirst_eq_reverse (h : CountsUp rows) :
    newestFirst FossilRow.version rows = rows.reverse := by
  refine List.mergeSort_of_pairwise ?_
  rw [List.pairwise_reverse]
  exact h.pairwise.imp fun hab => hab.1

/-- In ascending order of the versions is the order of writing. -/
theorem orderBy_version (h : CountsUp rows) :
    orderBy (fun f => [FossilRow.version f]) rows = rows := by
  refine List.mergeSort_of_pairwise (h.pairwise.imp fun hab => ?_)
  simp [Cell.listLe, hab.1, hab.2]

end CountsUp

theorem fossilsOf_eq_reverse {s : Store} {projectId : Cell}
    (h : CountsUp (s.fossilRows projectId)) :
    s.fossilsOf projectId = (s.fossilRows projectId).reverse :=
  h.newestFirst_eq_reverse

/-- The highest version of a project that counts up is the number of its fossils. -/
theorem highestVersion_eq {s : Store} {projectId : Cell} (h : CountsUp (s.fossilRows projectId)) :
    s.highestVersion projectId =
      if s.fossilRows projectId = [] then .null else .integer (s.fossilRows projectId).length := by
  rw [highestVersion, fossilsOf_eq_reverse h]
  split
  · rename_i hrows
    rw [if_pos (by simpa using hrows)]
  · rename_i f rest hrows
    have hne : s.fossilRows projectId ≠ [] := by
      intro hnil
      simp [hnil] at hrows
    -- the newest fossil is the one that was written last
    have hlast : (s.fossilRows projectId).getLast hne = f := by
      have hhead : (s.fossilRows projectId).reverse.head? = some f := by rw [hrows]; rfl
      rw [List.head?_reverse, List.getLast?_eq_getLast_of_ne_nil hne] at hhead
      exact Option.some.inj hhead
    rw [if_neg hne, ← hlast, h.version_getLast hne]

/-- The next version is one more than the number of the fossils, unless that does not fit 64
bits. -/
theorem versionFor_eq {s : Store} {projectId : Cell} (h : CountsUp (s.fossilRows projectId)) :
    s.versionFor projectId =
      (nextVersion (.integer (s.fossilRows projectId).length)).asInteger 0
        "COALESCE(MAX(version), 0) + 1" := by
  have hmatch : s.versionFor projectId =
      (nextVersion (s.highestVersion projectId)).asInteger 0 "COALESCE(MAX(version), 0) + 1" := rfl
  rw [hmatch, highestVersion_eq h]
  split
  · rename_i hnil
    rw [hnil]
    rfl
  · rfl

theorem versionFor_ok {s : Store} {projectId : Cell} (h : CountsUp (s.fossilRows projectId))
    {version : Int} (hversion : s.versionFor projectId = .ok version) :
    version = (s.fossilRows projectId).length + 1 := by
  rw [versionFor_eq h, nextVersion] at hversion
  split at hversion
  · cases hversion
    rfl
  · cases hversion

theorem versionFor_of_lt {s : Store} {projectId : Cell} (h : CountsUp (s.fossilRows projectId))
    (hlt : ((s.fossilRows projectId).length : Int) < Json.maxInt64) :
    s.versionFor projectId = .ok ((s.fossilRows projectId).length + 1) := by
  rw [versionFor_eq h, nextVersion, if_pos hlt]
  rfl

/-- Where the versions have run out there is no next one. -/
theorem versionFor_of_le {s : Store} {projectId : Cell} (h : CountsUp (s.fossilRows projectId))
    (hle : Json.maxInt64 ≤ ((s.fossilRows projectId).length : Int)) :
    ∃ failure, s.versionFor projectId = .error failure := by
  rw [versionFor_eq h, nextVersion, if_neg (Int.not_lt.mpr hle)]
  exact ⟨_, rfl⟩

end FossilRecord.Store
