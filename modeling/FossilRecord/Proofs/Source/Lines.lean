import FossilRecord.Proofs.Source.Order
import FossilRecord.Proofs.Source.Scan

/-!
# Outlines in the order of the text

A walk reports a node at its own line, or before it at the line of the node that wraps it.  Either
way the line is that of a node to which the walk comes just then, so the lines of an outline are some
of those at which the nodes of the tree start, in the same order.

`outline_in_order` states so for every tree that is in order, as all trees of the grammars are, and
for what a scan puts together from the files of a folder.
-/

namespace FossilRecord.Source

/-! ## Lines -/

theorem slice_eq (src : Chars) (start stop : Nat) :
    slice src start stop = (src.toList.drop start).take (stop - start) := by
  rw [slice, Array.toList_extract, List.extract_eq_take_drop]

theorem rowOf_mono (src : Chars) {i j : Nat} (h : i ≤ j) : rowOf src i ≤ rowOf src j := by
  rw [rowOf, rowOf, slice_eq, slice_eq]
  exact ((List.take_prefix_take_left (by omega)).sublist).count_le _

/-- No character stands in a later row than the end of the text. -/
theorem rowOf_le (src : Chars) (i : Nat) : rowOf src i ≤ rowOf src src.size := by
  rcases Nat.le_total i src.size with h | h
  · exact rowOf_mono src h
  · refine le_of_eq ?_
    rw [rowOf, rowOf, slice_eq, slice_eq, List.drop_zero, List.take_of_length_le (by simpa using h),
      List.take_of_length_le (by simp)]

/-- The line of a node that starts at an index. -/
def lineOf (src : Chars) (start : Nat) : Nat :=
  rowOf src start + 1

section

variable {sheet : Sheet}

theorem lines_report (anchor declaration : Node) (base : SymbolType) :
    ((report sheet anchor declaration base).map LiveSymbol.line).Sublist
      [lineOf sheet.src anchor.start] := by
  unfold report
  split
  · exact List.nil_sublist _
  · dsimp only
    split
    · exact List.Sublist.refl _
    · exact List.nil_sublist _

/-- A node reports at most one symbol, at its own line. -/
theorem lines_reportNode (n : Node) :
    ((reportNode sheet n).map LiveSymbol.line).Sublist [lineOf sheet.src n.start] := by
  unfold reportNode
  split
  · exact lines_report n n _
  · split
    · exact lines_report n _ _
    · exact List.nil_sublist _
  · exact List.nil_sublist _

mutual

/-- The lines of what a walk finds are those of nodes that it comes to, in the same order. -/
theorem lines_walk (room : Nat) (covered : Bool) : (n : Node) →
    ((walk sheet room covered n).map LiveSymbol.line).Sublist
      (n.starts.map (lineOf sheet.src))
  | .mk kind field start stop children => by
      cases room with
      | zero => exact List.nil_sublist _
      | succ room =>
          have hown (n : Node) : ((if covered then [] else reportNode sheet n).map
              LiveSymbol.line).Sublist [lineOf sheet.src n.start] := by
            split
            · exact List.nil_sublist _
            · exact lines_reportNode n
          rw [walk, Node.starts, List.map_append, List.map_cons]
          exact (hown _).append (lines_walkAll room _ children)

theorem lines_walkAll (room : Nat) (pending : Bool) : (ns : List Node) →
    ((walkAll sheet room pending ns).map LiveSymbol.line).Sublist
      ((Node.startsOf ns).map (lineOf sheet.src))
  | [] => List.Sublist.refl _
  | n :: rest => by
      rw [walkAll, Node.startsOf, List.map_append, List.map_append]
      exact (lines_walk room _ n).append (lines_walkAll room _ rest)

end

end

/-- Whether symbols come in the order of their lines, all of which are lines of a text. -/
structure InOrder (src : Chars) (symbols : List LiveSymbol) : Prop where
  sorted : (symbols.map LiveSymbol.line).Pairwise (· ≤ ·)
  inside : ∀ s ∈ symbols, 1 ≤ s.line ∧ s.line ≤ rowOf src src.size + 1

/-- The symbols of a tree that is in order come in order. -/
theorem inOrder_outlineTree (sheet : Sheet) {tree : Node} (h : tree.IsOrdered) :
    InOrder sheet.src (outlineTree sheet tree) := by
  have hlines : ((outlineTree sheet tree).map LiveSymbol.line).Sublist
      (tree.starts.map (lineOf sheet.src)) := lines_walk (maxDepth + 1) false tree
  constructor
  · refine List.Pairwise.sublist hlines (List.pairwise_map.mpr (h.imp fun hle => ?_))
    exact Nat.succ_le_succ (rowOf_mono sheet.src hle)
  · intro s hs
    obtain ⟨start, -, hline⟩ := List.mem_map.mp (hlines.subset (List.mem_map_of_mem hs))
    rw [← hline]
    exact ⟨Nat.succ_pos _, Nat.succ_le_succ (rowOf_le sheet.src start)⟩

/-! ## Scans -/

/-- Whether a symbol may come before another one: its file comes before by the octets of the paths,
or it is the same and the line does not come after. -/
def LiveSymbol.Precedes (a b : LiveSymbol) : Prop :=
  Text.octets a.file < Text.octets b.file ∨ a.file = b.file ∧ a.line ≤ b.line

theorem pairwise_extractAt (d : Disk) (place : Disk.Place) (label : String) :
    (extractAt d place label).Pairwise LiveSymbol.Precedes := by
  have hfile : ∀ s ∈ extractAt d place label, s.file = label := fun _ => file_of_mem_extractAt
  have hlines : (extractAt d place label).Pairwise fun a b => a.line ≤ b.line := by
    unfold extractAt
    split
    · exact List.pairwise_map.mp (inOrder_outlineTree _ (isOrdered_treeIn _ _)).sorted
    · exact .nil
  exact hlines.imp_of_mem fun ha hb hle => .inr ⟨(hfile _ ha).trans (hfile _ hb).symm, hle⟩

/-- A scan reports file after file, and the symbols of each in order. -/
theorem pairwise_scan {d : Disk} (h : d.IsTree) {folder : Disk.Place} {path : String}
    {extensions? : Option (List String)} {symbols : List LiveSymbol}
    (hscan : scan d folder path extensions? = .ok symbols) :
    symbols.Pairwise LiveSymbol.Precedes := by
  cases hroot : d.folder? folder path with
  | none =>
      rw [scan, hroot] at hscan
      cases hscan
  | some root =>
      rw [scan_eq hroot] at hscan
      cases hscan
      rw [List.pairwise_flatMap]
      refine ⟨fun names _ => pairwise_extractAt d _ _, ?_⟩
      refine (sourceFiles_pairwise h).imp fun hlt a ha b hb => .inl ?_
      rw [file_of_mem_extractAt ha, file_of_mem_extractAt hb]
      exact Text.octets_lt_octets.mpr hlt

theorem pairwise_findSymbol {d : Disk} (h : d.IsTree) {folder : Disk.Place} {path name : String}
    {exact : Bool} {found : List LiveSymbol}
    (hfound : findSymbol d folder path name exact = .ok found) :
    found.Pairwise LiveSymbol.Precedes := by
  rw [findSymbol] at hfound
  cases hscan : scan d folder path none with
  | error flaw =>
      rw [hscan] at hfound
      cases hfound
  | ok symbols =>
      rw [hscan] at hfound
      cases hfound
      exact (pairwise_scan h hscan).filter _

/-- If a walk down from the root of a tree never goes back in the text, the symbols of its outline
come in the order of their lines, whether they are reported at their own or at that of the node that
wraps them.  The trees of all languages are such trees, so a scan, and what is looked for in it, comes
in the order of the files' paths and within each file in that of the lines. -/
theorem outline_in_order :
    (∀ sheet tree, Node.IsOrdered tree → InOrder sheet.src (outlineTree sheet tree)) ∧
    (∀ language src, (treeIn language src).IsOrdered) ∧
    (∀ kind label octets, InOrder (Text.lenient octets).toArray (extract kind label octets)) ∧
    ∀ d : Disk, d.IsTree → ∀ folder path,
      (∀ extensions? symbols, scan d folder path extensions? = .ok symbols →
        symbols.Pairwise LiveSymbol.Precedes) ∧
      ∀ name exact found, findSymbol d folder path name exact = .ok found →
        found.Pairwise LiveSymbol.Precedes :=
  ⟨fun sheet _ => inOrder_outlineTree sheet, isOrdered_treeIn,
    fun kind label _ => inOrder_outlineTree ⟨kind, _, label⟩ (isOrdered_treeIn _ _),
    fun _ htree _ _ => ⟨fun _ _ => pairwise_scan htree, fun _ _ _ => pairwise_findSymbol htree⟩⟩

/-- A function with a decorator is reported at the line of that, before the one that stands in it,
and `a.py` before `b.py`. -/
theorem outline_in_order_decorated :
    let text := "@cached\n\ndef beta():\n  def alpha():\n    pass\n"
    let sheet : Sheet := ⟨⟨.python, false, false⟩, text.toList.toArray, "a.py"⟩
    let tree := treeIn .python sheet.src
    let symbols := outlineTree sheet tree
    let d : Disk := ⟨[(["d"], .folder),
      (["d", "b.py"], .file (Text.octets "def gamma():\n  pass\n")),
      (["d", "a.py"], .file (Text.octets text))]⟩
    tree.IsOrdered ∧ symbols.map LiveSymbol.line = [1, 4] ∧
      InOrder sheet.src symbols ∧ d.IsTree ∧
      ∃ scanned found, scan d [] "d" none = .ok scanned ∧
        scanned.map LiveSymbol.name = ["beta", "alpha", "gamma"] ∧
        scanned.Pairwise LiveSymbol.Precedes ∧
        findSymbol d [] "d" "A" false = .ok found ∧ found.Pairwise LiveSymbol.Precedes := by
  intro text sheet tree symbols d
  obtain ⟨houtline, -, -, hscans⟩ := outline_in_order
  have hordered : tree.IsOrdered := by decide +kernel
  have htree : d.IsTree := by unfold d; decide
  have hroot : d.folder? [] "d" = some ["d"] := by unfold d; decide
  have hwalk : (filesBelow d ["d"] d.levels []).filter (isSource none) = [["b.py"], ["a.py"]] := by
    unfold d; decide +kernel
  have hafter : ¬Path.ofNames ["b.py"] ≤ Path.ofNames ["a.py"] := by decide +kernel
  have hfiles : sourceFiles d ["d"] none = [["a.py"], ["b.py"]] := by
    rw [sourceFiles, hwalk]
    simp [List.mergeSort, List.MergeSort.Internal.splitInTwo, hafter]
  have hscan : scan d [] "d" none = .ok _ := scan_eq hroot
  obtain ⟨found, hfind⟩ : ∃ found, findSymbol d [] "d" "A" false = .ok found := by
    rw [findSymbol, hscan]
    exact ⟨_, rfl⟩
  refine ⟨hordered, by decide +kernel, houtline sheet tree hordered, htree, _, found, hscan, ?_,
    (hscans d htree [] "d").1 none _ hscan, hfind, (hscans d htree [] "d").2 _ _ _ hfind⟩
  rw [hfiles]
  decide +kernel

end FossilRecord.Source
