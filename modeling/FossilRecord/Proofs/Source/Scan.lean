import FossilRecord.Proofs.Sort
import FossilRecord.Proofs.Source.Outline
import FossilRecord.Proofs.Source.Walk
import FossilRecord.Proofs.Text.ByteOrder

/-!
# What a scan reports

A scan reports the symbols of the source files below a folder, in the order of the files' paths.
The order in which folders are listed does not matter, and asking for some extensions picks from
what a scan for all of them reports.
-/

namespace FossilRecord.Source

variable {d d' : Disk} {root : Disk.Place} {extensions? : Option (List String)}

/-! ## The report -/

/-- Names of a source file that is asked for: something stands before the last point of the last
one, and what follows is the extension of a language and, if some are listed, one of those, points
at their front aside. -/
def IsSourceName (extensions? : Option (List String)) (names : Disk.Place) : Prop :=
  ∃ folders stem ext, names = folders ++ [stem ++ "." ++ ext] ∧ stem ≠ "" ∧
    (∃ language, (ext, language) ∈ extensions) ∧
    ∀ wanted, extensions? = some wanted → ∃ w ∈ wanted, withoutPoints w = ext

/-- A source file below a folder that is asked for. -/
structure IsSourceFile (d : Disk) (root : Disk.Place) (extensions? : Option (List String))
    (names : Disk.Place) : Prop extends IsReached d root names where
  name : IsSourceName extensions? names

/-- What a file gives: the symbols of its octets, or nothing if it may not be read. -/
inductive Gives (d : Disk) (root names : Disk.Place) : List LiveSymbol → Prop
  | octets {octets : List UInt8} {kind : FileKind}
      (hfile : (root ++ names, .file octets) ∈ d.entries) (hkind : kindOf? names = some kind) :
      Gives d root names (extract kind (Path.ofNames names) octets)
  | closed (hfile : (root ++ names, .closed) ∈ d.entries) : Gives d root names []

/-- What the source files below a folder give, one after the other in the byte order of their paths,
each symbol labelled with the path of its file. -/
def IsReport (d : Disk) (root : Disk.Place) (extensions? : Option (List String))
    (symbols : List LiveSymbol) : Prop :=
  ∃ files groups, symbols = List.flatten groups ∧
    (∀ names, names ∈ files ↔ IsSourceFile d root extensions? names) ∧
    files.Pairwise (fun a b => Text.octets (Path.ofNames a) < Text.octets (Path.ofNames b)) ∧
    List.Forall₂ (fun names group => Gives d root names group ∧
      ∀ s ∈ group, s.file = Path.ofNames names) files groups

/-! ## Names of source files -/

theorem extensionOf?_eq_some {names : Disk.Place} {ext : String} :
    extensionOf? names = some ext ↔
      ∃ folders stem, names = folders ++ [stem ++ "." ++ ext] ∧ stem ≠ "" ∧
        '.' ∉ ext.toList := by
  rw [extensionOf?, Option.bind_eq_some_iff]
  constructor
  · rintro ⟨name, hlast, hname⟩
    obtain ⟨stem, rfl, hstem, hpoint⟩ := Path.extensionOf?_eq_some.mp hname
    exact ⟨names.dropLast, stem, (List.dropLast_append_getLast? _ hlast).symm, hstem, hpoint⟩
  · rintro ⟨folders, stem, rfl, hstem, hpoint⟩
    exact ⟨_, by simp, Path.extensionOf?_eq_some.mpr ⟨stem, rfl, hstem, hpoint⟩⟩

theorem isSome_ofExtension? {ext : String} (hpoint : '.' ∉ ext.toList) :
    (FileKind.ofExtension? ext).isSome ↔ ∃ language, (ext, language) ∈ extensions := by
  have hfind : (extensions.find? (·.1 = ext)).isSome ↔
      ∃ language, (ext, language) ∈ extensions := by
    simp [List.find?_isSome]
  rw [← hfind]
  unfold FileKind.ofExtension?
  split
  · rename_i hfront
    simp [hfront] at hpoint
  · dsimp only
    split <;> rename_i hlanguage <;> simp [hlanguage]

/-- No extension of a language has a point. -/
theorem point_notMem_extension {ext : String} (h : ∃ language, (ext, language) ∈ extensions) :
    '.' ∉ ext.toList := by
  obtain ⟨language, hmem⟩ := h
  have hall : ∀ e ∈ extensions, '.' ∉ e.1.toList := by decide
  exact hall _ hmem

theorem isWanted_iff {ext : String} (hlanguage : ∃ language, (ext, language) ∈ extensions) :
    isWanted extensions? ext ↔
      ∀ wanted, extensions? = some wanted → ∃ w ∈ wanted, withoutPoints w = ext := by
  cases extensions? with
  | none => simpa [isWanted] using hlanguage
  | some wanted => simp [isWanted]

theorem isSource_iff {names : Disk.Place} :
    isSource extensions? names ↔ IsSourceName extensions? names := by
  simp only [isSource, Option.any_eq_true, Bool.and_eq_true]
  constructor
  · rintro ⟨ext, hext, hwanted, hkind⟩
    obtain ⟨folders, stem, hnames, hstem, hpoint⟩ := extensionOf?_eq_some.mp hext
    have hlanguage := (isSome_ofExtension? hpoint).mp hkind
    exact ⟨folders, stem, ext, hnames, hstem, hlanguage, (isWanted_iff hlanguage).mp hwanted⟩
  · rintro ⟨folders, stem, ext, hnames, hstem, hlanguage, hwanted⟩
    have hpoint := point_notMem_extension hlanguage
    exact ⟨ext, extensionOf?_eq_some.mpr ⟨folders, stem, hnames, hstem, hpoint⟩,
      (isWanted_iff hlanguage).mpr hwanted, (isSome_ofExtension? hpoint).mpr hlanguage⟩

/-- What is a source file for some extensions is one for all. -/
theorem isSource_none {names : Disk.Place} (h : isSource extensions? names) :
    isSource none names := by
  obtain ⟨folders, stem, ext, hnames, hstem, hlanguage, -⟩ := isSource_iff.mp h
  exact isSource_iff.mpr ⟨folders, stem, ext, hnames, hstem, hlanguage, by simp⟩

theorem exists_kindOf? {names : Disk.Place} (h : isSource extensions? names) :
    ∃ kind, kindOf? names = some kind := by
  simp only [isSource, Option.any_eq_true, Bool.and_eq_true] at h
  obtain ⟨ext, hext, -, hkind⟩ := h
  obtain ⟨kind, hkind⟩ := Option.isSome_iff_exists.mp hkind
  exact ⟨kind, by rw [kindOf?, hext, Option.bind_some, hkind]⟩

/-- A source file is asked for if its extension is. -/
theorem isSource_eq {names : Disk.Place} (h : isSource none names) :
    isSource extensions? names = (extensionOf? names).any (isWanted extensions?) := by
  simp only [isSource, Option.any_eq_true, Bool.and_eq_true] at h
  obtain ⟨ext, hext, -, hkind⟩ := h
  simp only [isSource, hext, Option.any_some, hkind, Bool.and_true]

/-! ## The source files below a folder -/

theorem mem_sourceFiles (h : d.IsTree) {names : Disk.Place} :
    names ∈ sourceFiles d root extensions? ↔ IsSourceFile d root extensions? names := by
  rw [sourceFiles, List.mem_mergeSort, List.mem_filter, mem_filesBelow h, isSource_iff]
  exact ⟨fun ⟨hreached, hname⟩ => ⟨hreached, hname⟩, fun hfile => ⟨hfile.toIsReached, hfile.name⟩⟩

theorem IsReached.isName (h : d.IsTree) {names : Disk.Place} (hnames : IsReached d root names) :
    ∀ name ∈ names, Path.IsName name := by
  obtain ⟨entry, hentry, -⟩ := hnames.isFile
  exact fun name hname => h.names _ hentry name (List.mem_append_right root hname)

/-- No path comes twice, since no file does and different names have different paths. -/
theorem sourceFiles_pairwise (h : d.IsTree) :
    (sourceFiles d root extensions?).Pairwise fun a b => Path.ofNames a < Path.ofNames b := by
  have hnodup : (sourceFiles d root extensions?).Nodup :=
    (List.mergeSort_perm _ _).nodup_iff.mpr ((nodup_filesBelow h _ _).filter _)
  have hsorted : (sourceFiles d root extensions?).Pairwise fun a b =>
      decide (Path.ofNames a ≤ Path.ofNames b) = true :=
    List.pairwise_mergeSort (by simpa using fun a b c => le_trans)
      (by simpa using fun a b => le_total _ _) _
  refine (hsorted.and hnodup).imp_of_mem fun {a b} ha hb ⟨hle, hne⟩ => ?_
  have hanames := (mem_sourceFiles h).mp ha
  have hbnames := (mem_sourceFiles h).mp hb
  refine lt_of_le_of_ne (of_decide_eq_true hle) fun heq => hne ?_
  exact Path.ofNames_inj (hanames.toIsReached.isName h) (hbnames.toIsReached.isName h) heq

/-- The source files of some extensions are picked from those of all. -/
theorem sourceFiles_eq_filter :
    sourceFiles d root extensions? = (sourceFiles d root none).filter (isSource extensions?) := by
  rw [sourceFiles, sourceFiles, ← mergeSort_filter (by simpa using fun a b c => le_trans)
    (by simpa using fun a b => le_total _ _), List.filter_filter]
  congr 1
  refine List.filter_congr fun names _ => ?_
  by_cases hsource : isSource extensions? names = true
  · rw [hsource, isSource_none hsource, Bool.and_true]
  · rw [Bool.eq_false_iff.mpr hsource, Bool.false_and]

/-! ## What one source file gives -/

theorem gives_extractAt (h : d.IsTree) {names : Disk.Place}
    (hnames : IsSourceFile d root extensions? names) :
    Gives d root names (extractAt d (root ++ names) (Path.ofNames names)) := by
  obtain ⟨entry, hentry, hfile⟩ := hnames.isFile
  have hplace : root ++ names ≠ [] := by simp [hnames.below]
  have hat : d.at? (root ++ names) = some entry := (h.at?_eq_some hplace).mpr hentry
  have hlast : kindOf? (root ++ names) = kindOf? names := by
    simp only [kindOf?, extensionOf?, List.getLast?_append_of_ne_nil root hnames.below]
  obtain ⟨kind, hkind⟩ := exists_kindOf? (isSource_iff.mpr hnames.name)
  cases entry with
  | file octets =>
      simp only [extractAt, hlast, hkind, Disk.readAt, hat]
      exact .octets hentry hkind
  | closed =>
      simp only [extractAt, hlast, hkind, Disk.readAt, hat]
      exact .closed hentry
  | folder => cases hfile
  | link => cases hfile

theorem Gives.unique (h : d.IsTree) {names : Disk.Place} {group other : List LiveSymbol}
    (hgroup : Gives d root names group) (hother : Gives d root names other) : group = other := by
  cases hgroup with
  | octets hfile hkind =>
      cases hother with
      | octets hfile' hkind' =>
          cases h.entry_unique hfile hfile'
          rw [Option.some.inj (hkind.symm.trans hkind')]
      | closed hfile' => cases h.entry_unique hfile hfile'
  | closed hfile =>
      cases hother with
      | octets hfile' _ => cases h.entry_unique hfile hfile'
      | closed => rfl

theorem file_of_mem_extractAt {place : Disk.Place} {label : String} {s : LiveSymbol}
    (hs : s ∈ extractAt d place label) : s.file = label := by
  unfold extractAt at hs
  split at hs
  · exact file_of_mem_outlineTree hs
  · cases hs

/-! ## Reports -/

/-- A tree and a folder in it have one report. -/
theorem IsReport.unique (h : d.IsTree) {symbols others : List LiveSymbol}
    (hsymbols : IsReport d root extensions? symbols)
    (hothers : IsReport d root extensions? others) : symbols = others := by
  obtain ⟨files, groups, rfl, hmem, hsorted, hgroups⟩ := hsymbols
  obtain ⟨files', groups', rfl, hmem', hsorted', hgroups'⟩ := hothers
  -- a list in a strict order is determined by its members
  have hfiles : files = files' := by
    let before (a b : Disk.Place) : Prop := Path.ofNames a < Path.ofNames b
    have : Std.Irrefl before := ⟨fun names => lt_irrefl (Path.ofNames names)⟩
    have : Std.Antisymm before := ⟨fun a b hab hba => absurd hab (lt_asymm hba)⟩
    exact List.Pairwise.eq_of_mem_iff (r := before) (hsorted.imp Text.octets_lt_octets.mp)
      (hsorted'.imp Text.octets_lt_octets.mp) fun names => (hmem names).trans (hmem' names).symm
  subst hfiles
  congr 1
  exact List.right_unique_forall₂' (fun _ _ _ hg hg' => hg.1.unique h hg'.1) hgroups hgroups'

theorem IsSourceFile.perm (hperm : d.entries.Perm d'.entries) {names : Disk.Place}
    (h : IsSourceFile d root extensions? names) : IsSourceFile d' root extensions? names := by
  obtain ⟨entry, hentry, hfile⟩ := h.isFile
  exact ⟨⟨h.below, ⟨entry, hperm.subset hentry, hfile⟩, h.unskipped⟩, h.name⟩

theorem Gives.perm (hperm : d.entries.Perm d'.entries) {names : Disk.Place}
    {group : List LiveSymbol} (h : Gives d root names group) : Gives d' root names group := by
  cases h with
  | octets hfile hkind => exact .octets (hperm.subset hfile) hkind
  | closed hfile => exact .closed (hperm.subset hfile)

/-- A report does not tell in which order the folders were listed. -/
theorem IsReport.perm (hperm : d.entries.Perm d'.entries) {symbols : List LiveSymbol}
    (h : IsReport d root extensions? symbols) : IsReport d' root extensions? symbols := by
  obtain ⟨files, groups, rfl, hmem, hsorted, hgroups⟩ := h
  refine ⟨files, groups, rfl, fun names => (hmem names).trans ?_, hsorted,
    hgroups.imp fun _ _ hg => ⟨hg.1.perm hperm, hg.2⟩⟩
  exact ⟨IsSourceFile.perm hperm, IsSourceFile.perm hperm.symm⟩

/-! ## The scan -/

theorem scan_eq {folder : Disk.Place} {path : String} (hroot : d.folder? folder path = some root) :
    scan d folder path extensions? = .ok ((sourceFiles d root extensions?).flatMap fun names =>
      extractAt d (root ++ names) (Path.ofNames names)) := by
  rw [scan, hroot]

theorem isReport_scan (h : d.IsTree) :
    IsReport d root extensions? ((sourceFiles d root extensions?).flatMap fun names =>
      extractAt d (root ++ names) (Path.ofNames names)) := by
  refine ⟨sourceFiles d root extensions?, _, rfl, fun _ => mem_sourceFiles h,
    (sourceFiles_pairwise h).imp Text.octets_lt_octets.mpr, ?_⟩
  rw [List.forall₂_map_right_iff, List.forall₂_same]
  exact fun names hnames =>
    ⟨gives_extractAt h ((mem_sourceFiles h).mp hnames), fun _ => file_of_mem_extractAt⟩

theorem scan_perm (h : d.IsTree) (hperm : d'.entries.Perm d.entries) (folder : Disk.Place)
    (path : String) : scan d' folder path extensions? = scan d folder path extensions? := by
  have hsame := Disk.folder?_congr (h.at?_perm hperm) folder path
  cases hroot : d.folder? folder path with
  | none => rw [scan, scan, hsame, hroot]
  | some root =>
      rw [scan_eq hroot, scan_eq (hsame.trans hroot)]
      exact congrArg Except.ok
        (((isReport_scan (h.perm hperm)).perm hperm).unique h (isReport_scan h))

theorem scan_filter (h : d.IsTree) (folder : Disk.Place) (path : String) :
    scan d folder path extensions? = (scan d folder path none).map
      (·.filter fun s => (Path.extension? s.file).any (isWanted extensions?)) := by
  unfold scan
  split
  · rfl
  · rename_i root _
    refine congrArg Except.ok ?_
    rw [sourceFiles_eq_filter]
    refine flatMap_filter fun names hnames s hs => ?_
    have hfile := (mem_sourceFiles h).mp hnames
    rw [file_of_mem_extractAt hs, Path.extension?_ofNames (hfile.toIsReached.isName h),
      isSource_eq (isSource_iff.mpr hfile.name)]
    rfl

/-- A scan of a tree comes to its end and reports exactly what the source files below the folder
give.  It reports the same however the folders are listed, and asking for some extensions leaves out
the symbols of all files with others. -/
theorem scan_exact (h : d.IsTree) {folder : Disk.Place} {path : String}
    (hroot : d.folder? folder path = some root) (extensions? : Option (List String)) :
    (∃ symbols, scan d folder path extensions? = .ok symbols ∧
      ∀ others, IsReport d root extensions? others ↔ others = symbols) ∧
    (∀ d' : Disk, d'.entries.Perm d.entries →
      scan d' folder path extensions? = scan d folder path extensions?) ∧
    scan d folder path extensions? = (scan d folder path none).map
      (·.filter fun s => (Path.extension? s.file).any (isWanted extensions?)) := by
  refine ⟨⟨_, scan_eq hroot, fun others => ⟨fun hothers => hothers.unique h (isReport_scan h), ?_⟩⟩,
    fun d' hperm => scan_perm h hperm folder path, scan_filter h folder path⟩
  rintro rfl
  exact isReport_scan h

/-- The folder is looked into in spite of its name, the link and the file that may not be read give
nothing, and `a-b.rs` comes before `a/b.rs`. -/
theorem scan_exact_skipped_name :
    let d : Disk := ⟨[(["build"], .folder), (["build", "a"], .folder),
      (["build", "a", "b.rs"], .file (Text.octets "fn beta() {}")),
      (["build", "a-b.rs"], .file (Text.octets "fn alpha() {}")),
      (["build", "closed.rs"], .closed), (["build", "link.rs"], .link "a-b.rs"),
      (["build", "target"], .folder), (["build", "target", "c.rs"], .file [])]⟩
    let symbols : List LiveSymbol :=
      [⟨"a-b.rs", 1, .function, "alpha", some "()"⟩, ⟨"a/b.rs", 1, .function, "beta", some "()"⟩]
    d.IsTree ∧ d.folder? [] "build" = some ["build"] ∧
      scan d [] "build" (some [".rs"]) = .ok symbols ∧
      IsReport d ["build"] (some [".rs"]) symbols := by
  intro d symbols
  have htree : d.IsTree := by unfold d; decide
  have hroot : d.folder? [] "build" = some ["build"] := by unfold d; decide
  have hwalk : (filesBelow d ["build"] d.levels []).filter (isSource (some [".rs"])) =
      [["a", "b.rs"], ["a-b.rs"], ["closed.rs"]] := by unfold d; decide +kernel
  have hafter : ¬Path.ofNames ["a", "b.rs"] ≤ Path.ofNames ["a-b.rs"] := by decide +kernel
  have hlast : Path.ofNames ["a", "b.rs"] ≤ Path.ofNames ["closed.rs"] ∧
      Path.ofNames ["a-b.rs"] ≤ Path.ofNames ["closed.rs"] := by decide +kernel
  have hfiles : sourceFiles d ["build"] (some [".rs"]) =
      [["a-b.rs"], ["a", "b.rs"], ["closed.rs"]] := by
    rw [sourceFiles, hwalk]
    simp [List.mergeSort, List.MergeSort.Internal.splitInTwo, hafter, hlast]
  have hscan : scan d [] "build" (some [".rs"]) = .ok symbols := by
    rw [scan_eq hroot, hfiles]
    unfold d symbols
    decide +kernel
  obtain ⟨⟨found, hfound, hreport⟩, -, -⟩ := scan_exact htree hroot (some [".rs"])
  exact ⟨htree, hroot, hscan, (hreport symbols).mpr (Except.ok.inj (hscan.symm.trans hfound))⟩

end FossilRecord.Source
