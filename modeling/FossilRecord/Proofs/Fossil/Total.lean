import FossilRecord.Proofs.Corpus
import FossilRecord.Proofs.Except
import FossilRecord.Proofs.Store.Growth

/-!
# Totals of lines

The counts of the lines of a fossil's files are added up in 64 bits.  A count that was read of a
payload is below 2 ^ 63, so two of them never go beyond 64 bits, but three may.  The total is the
exact sum as long as 64 bits hold that, and what the corpus shows is the sum up to a multiple of
2 ^ 64 (`line_totals`).
-/

namespace FossilRecord

/-! ## Adding up in 64 bits -/

/-- The counts of lines that are known of some files. -/
def lineCounts (entries : List FileTreeEntry) : List Nat :=
  entries.filterMap FileTreeEntry.lineCount

/-- Whether numbers can be added up one after the other without ever going beyond 64 bits. -/
def NeverOverflows (counts : List Nat) : Prop :=
  ∀ front, front <+: counts → front.sum < 2 ^ 64

theorem neverOverflows_iff (counts : List Nat) : NeverOverflows counts ↔ counts.sum < 2 ^ 64 := by
  constructor
  · intro h
    exact h counts (List.prefix_refl counts)
  · rintro h front ⟨back, rfl⟩
    rw [List.sum_append] at h
    omega

theorem toNat_foldl_add (counts : List Nat) (total : UInt64) :
    (counts.foldl (fun total count => total + UInt64.ofNat count) total).toNat =
      (total.toNat + counts.sum) % 2 ^ 64 := by
  induction counts generalizing total with
  | nil => exact (Nat.mod_eq_of_lt total.toNat_lt).symm
  | cons n rest ih =>
      rw [List.foldl_cons, ih, UInt64.toNat_add, UInt64.toNat_ofNat', List.sum_cons]
      omega

/-- A total is the sum up to a multiple of 2 ^ 64. -/
theorem totalLines_eq (entries : List FileTreeEntry) :
    totalLines entries = (lineCounts entries).sum % 2 ^ 64 := by
  rw [totalLines, toNat_foldl_add, UInt64.toNat_zero, Nat.zero_add, lineCounts]

theorem totalLines_eq_sum_iff (entries : List FileTreeEntry) :
    totalLines entries = (lineCounts entries).sum ↔ (lineCounts entries).sum < 2 ^ 64 := by
  rw [totalLines_eq]
  exact ⟨fun h => h ▸ Nat.mod_lt _ (by decide), Nat.mod_eq_of_lt⟩

/-! ## Counts of a payload -/

section

variable {raw : String} {q : Payload}

/-- The counts of a payload are such as 64 bits with a sign hold. -/
theorem Payload.lineCounts_lt (hparse : parse raw = .ok q) :
    ∀ n ∈ lineCounts q.fileTree, n < 2 ^ 63 := by
  obtain ⟨root, -, hread⟩ := readFrom_of_parse hparse
  obtain ⟨items, -, hfiles⟩ := hread.fileTree
  intro n hn
  obtain ⟨e, he, hcount⟩ := List.mem_filterMap.mp hn
  obtain ⟨j, -, hj⟩ := exists_of_mem_mapM hfiles he
  exact lineCount_lt_of_fileEntry hj n hcount

/-- Two counts of a payload can be added up. -/
theorem Payload.sum_lineCounts_lt (hparse : parse raw = .ok q)
    (hfew : (lineCounts q.fileTree).length ≤ 2) : (lineCounts q.fileTree).sum < 2 ^ 64 := by
  have hall : ∀ n ∈ lineCounts q.fileTree, n ≤ 2 ^ 63 - 1 :=
    fun n hn => Nat.le_sub_one_of_lt (lineCounts_lt hparse n hn)
  have hsum := List.sum_le_card_nsmul _ _ hall
  rw [smul_eq_mul] at hsum
  omega

end

/-! ## What the corpus shows -/

namespace Corpus

/-- Whether a text shows a fossil, and a total of lines for it. -/
def ShowsTotal (text : String) (f : Fossil) (total : Nat) : Prop :=
  ∃ front shown back, text = front ++ shown ++ back ∧ ShowsFossil f shown ∧
    ∃ part, shown = part ++ line s!"Total files: {f.fileTree.length}, Total lines: {total}"

theorem showsTotal_fossilPart (f : Fossil) :
    ∃ part, fossilPart f =
      part ++ line s!"Total files: {f.fileTree.length}, Total lines: {totalLines f.fileTree}" :=
  ⟨_, rfl⟩

theorem exists_join_eq {parts : List String} {part : String} (h : part ∈ parts) :
    ∃ front back, String.join parts = front ++ part ++ back := by
  obtain ⟨before, after, rfl⟩ := List.append_of_mem h
  exact ⟨String.join before, String.join after, by
    rw [String.join_append, String.join_cons, String.append_assoc]⟩

/-- The section of a project shows the total of each of its fossils. -/
theorem showsTotal_section (p : Project) {history : List Fossil}
    (counts : List (SymbolType × Nat)) {f : Fossil} (hf : f ∈ history) :
    ShowsTotal (section_ p history counts) f (totalLines f.fileTree) := by
  obtain ⟨front, back, hjoin⟩ := exists_join_eq (List.mem_map_of_mem (f := fossilPart) hf)
  have hsome : history.isEmpty = false := List.isEmpty_eq_false_iff.mpr (List.ne_nil_of_mem hf)
  let before := heading p ++ line s!"\nFossil history ({history.length} versions):"
  have hsection : section_ p history counts =
      before ++ String.join (history.map fossilPart) ++ tallyLine counts := by
    rw [section_, hsome]
    simp [before, heading, String.append_assoc]
  refine ⟨before ++ front, fossilPart f, back ++ tallyLine counts, ?_, showsFossil_fossilPart f,
    showsTotal_fossilPart f⟩
  rw [hsection, hjoin]
  simp only [String.append_assoc]

theorem showsTotal_sectionText {s : Store} {p : Project} {f : Fossil}
    (hf : f ∈ s.history (Store.Cell.uuid p.projectId)) :
    ShowsTotal (sectionText s p) f (totalLines f.fileTree) :=
  showsTotal_section p (countsOf s p) hf

theorem ShowsTotal.append {text : String} {f : Fossil} {total : Nat} (h : ShowsTotal text f total)
    (more : String) : ShowsTotal (text ++ more) f total := by
  obtain ⟨front, shown, back, htext, hshown⟩ := h
  exact ⟨front, shown, back ++ more, by rw [htext, String.append_assoc], hshown⟩

end Corpus

/-! ## Fossils that are stored -/

section

variable {raw name : String} {q : Payload} {promptUsed : Option String} {step : Store.Step}
  {receipt : FossilReceipt}

/-- In every later state the corpus of the project shows the total of what a payload became. -/
theorem showsTotal_of_stored (u v : Bool) (before later : List Store.Step)
    (hparse : Payload.parse raw = .ok q)
    (hsteps : ∀ other ∈ before ++ step :: later, other.IsWritable)
    (hwrite : step.write = .ingest name raw promptUsed)
    (hstored : (((Store.blank u v).run before).ingest step.fresh name raw promptUsed).1 =
      .ok (.stored receipt)) :
    ∃ f c, ((Store.blank u v).run (before ++ step :: later)).Keeps receipt f ∧
      f.fileTree = q.fileTree ∧
      Corpus.build ((Store.blank u v).run (before ++ step :: later)) (some receipt.projectName) =
        .ok (.found c) ∧
      Corpus.ShowsTotal c.text f (totalLines q.fileTree) := by
  have hnow : ∀ other ∈ before ++ step :: later, other.fresh.now.IsValid :=
    fun other hother => (hsteps other hother).now
  have hreadable := (Store.Readable.blank u v).run hsteps
  have hs := (Store.Sound.blank u v).run fun other hother =>
    hnow other (List.mem_append_left _ hother)
  -- what is written later only adds to the tables that the ingestion left
  have hperform : ((Store.blank u v).run before).perform step =
      (((Store.blank u v).run before).ingest step.fresh name raw promptUsed).2 := by
    simp only [Store.perform, hwrite]
  have hgrown := (hs.coherent.perform step).run_extends later
  rw [← Store.run_cons, ← Store.run_append, hperform] at hgrown
  obtain ⟨payload, project, prompt, drawn, version, f, hpayload, -, -, hf, hkeeps⟩ :=
    Store.keeps_of_stored hs hreadable.sound (hnow step (by simp)) hstored hgrown
  rw [hparse] at hpayload
  cases hpayload
  have hfiles : f.fileTree = q.fileTree := by rw [hf, Store.storedFossil]
  obtain ⟨kept, hkept, hkeptId⟩ := hkeeps.project
  have hmem := hkeeps.history
  rw [← hkeptId] at hmem
  refine ⟨f, _, hkeeps, hfiles, Corpus.build_some_eq hreadable hkept, ?_⟩
  rw [← hfiles]
  exact (Corpus.showsTotal_sectionText hmem).append _

end

/-- The lines of the files of a payload are added up in 64 bits.  Every count is below 2 ^ 63, so
that two counts can always be added up.  The sum is never beyond 64 bits on the way, and the total
is the sum, if and only if 64 bits hold the sum.  In every later state the corpus of the project of
a fossil that the payload became can be had, and shows the sum up to a multiple of 2 ^ 64. -/
theorem line_totals (raw : String) (q : Payload) (hparse : Payload.parse raw = .ok q) :
    (∀ n ∈ lineCounts q.fileTree, n < 2 ^ 63) ∧
    ((lineCounts q.fileTree).length ≤ 2 → (lineCounts q.fileTree).sum < 2 ^ 64) ∧
    (NeverOverflows (lineCounts q.fileTree) ↔ (lineCounts q.fileTree).sum < 2 ^ 64) ∧
    (totalLines q.fileTree = (lineCounts q.fileTree).sum ↔
      (lineCounts q.fileTree).sum < 2 ^ 64) ∧
    ∀ u v before step later name promptUsed receipt,
      (∀ other ∈ before ++ step :: later, other.IsWritable) →
      step.write = .ingest name raw promptUsed →
      (((Store.blank u v).run before).ingest step.fresh name raw promptUsed).1 =
        .ok (.stored receipt) →
      ∃ f c, ((Store.blank u v).run (before ++ step :: later)).Keeps receipt f ∧
        f.fileTree = q.fileTree ∧
        Corpus.build ((Store.blank u v).run (before ++ step :: later)) (some receipt.projectName) =
          .ok (.found c) ∧
        Corpus.ShowsTotal c.text f ((lineCounts q.fileTree).sum % 2 ^ 64) := by
  refine ⟨Payload.lineCounts_lt hparse, Payload.sum_lineCounts_lt hparse, neverOverflows_iff _,
    totalLines_eq_sum_iff _, ?_⟩
  intro u v before step later name promptUsed receipt hsteps hwrite hstored
  rw [← totalLines_eq]
  exact showsTotal_of_stored u v before later hparse hsteps hwrite hstored

/-- Two files of a payload have as many lines as a count can say, one of them written as a text, and
the fossil that it becomes shows their sum. -/
theorem line_totals_two_files :
    let fresh (first : Nat) : Fresh :=
      ⟨fun k => ⟨BitVec.ofNat 128 (first + k)⟩, ⟨2024, 2, 29, 12, 0, first, 0⟩⟩
    let raw := "\x7b\"file_tree\":[\x7b\"line_count\":9223372036854775807\x7d," ++
      "\x7b\"lines\":\"9223372036854775807\"\x7d,\"c\"]\x7d"
    let files : List FileTreeEntry := [⟨"", none, some 9223372036854775807⟩,
      ⟨"", none, some 9223372036854775807⟩, ⟨"c", none, none⟩]
    let before : List Store.Step := [⟨fresh 1, .register ⟨"demo", "/d", "rust"⟩⟩]
    let step : Store.Step := ⟨fresh 2, .ingest "demo" raw none⟩
    (∃ q, Payload.parse raw = .ok q ∧ q.fileTree = files) ∧
      (∀ other ∈ before ++ [step], other.IsWritable) ∧
      totalLines files = 18446744073709551614 ∧
      ∃ f c, f.fileTree = files ∧
        Corpus.build ((Store.blank false false).run (before ++ [step])) (some "demo") =
          .ok (.found c) ∧
        Corpus.ShowsTotal c.text f 18446744073709551614 := by
  intro fresh raw files before step
  have hfiles : (Payload.parse raw).toOption.map Payload.fileTree = some files := by
    decide +kernel
  obtain ⟨q, hq, hfileTree⟩ := Option.map_eq_some_iff.mp hfiles
  have hparse : Payload.parse raw = .ok q := ok_of_toOption hq
  have hwritable : ∀ other ∈ before ++ [step], other.IsWritable := by
    simp only [before, step, List.cons_append, List.nil_append, List.forall_mem_cons]
    exact ⟨⟨by decide, by simp⟩, ⟨by decide, by simp⟩, by simp⟩
  have hreceipt : (((Store.blank false false).run before).ingest (fresh 2) "demo" raw none).1 =
      .ok (.stored ⟨⟨BitVec.ofNat 128 2⟩, ⟨BitVec.ofNat 128 1⟩, "demo", 1, 0⟩) := by
    decide +kernel
  obtain ⟨-, hfew, -, hexact, hstored⟩ := line_totals raw q hparse
  obtain ⟨f, c, -, hkept, hbuild, hshown⟩ :=
    hstored false false before step [] "demo" none _ hwritable rfl hreceipt
  rw [hfileTree] at hfew hexact hkept hshown
  exact ⟨⟨q, hparse, hfileTree⟩, hwritable, hexact.mpr (hfew (by decide)), f, c, hkept, hbuild,
    hshown⟩

/-- Three files of a payload have as many lines as a count can say.  64 bits do not hold their sum,
and the corpus shows another number. -/
theorem line_totals_three_files :
    let fresh (first : Nat) : Fresh :=
      ⟨fun k => ⟨BitVec.ofNat 128 (first + k)⟩, ⟨2024, 2, 29, 12, 0, first, 0⟩⟩
    let raw := "\x7b\"file_tree\":[\x7b\"line_count\":9223372036854775807,\"path\":\"a\"\x7d," ++
      "\x7b\"line_count\":9223372036854775807,\"path\":\"b\"\x7d," ++
      "\x7b\"line_count\":9223372036854775807,\"path\":\"c\"\x7d]\x7d"
    let steps : List Store.Step := [⟨fresh 1, .register ⟨"demo", "/d", "rust"⟩⟩,
      ⟨fresh 2, .ingest "demo" raw none⟩]
    ∃ q, Payload.parse raw = .ok q ∧ (lineCounts q.fileTree).sum = 27670116110564327421 ∧
      ¬(lineCounts q.fileTree).sum < 2 ^ 64 ∧ ¬NeverOverflows (lineCounts q.fileTree) ∧
      totalLines q.fileTree = 9223372036854775805 ∧
      ∃ f c, f.fileTree = q.fileTree ∧
        Corpus.build ((Store.blank false false).run steps) (some "demo") = .ok (.found c) ∧
        Corpus.ShowsTotal c.text f 9223372036854775805 := by
  intro fresh raw steps
  let file (path : String) : FileTreeEntry := ⟨path, none, some 9223372036854775807⟩
  have hfiles : (Payload.parse raw).toOption.map Payload.fileTree =
      some [file "a", file "b", file "c"] := by
    decide +kernel
  obtain ⟨q, hq, hfileTree⟩ := Option.map_eq_some_iff.mp hfiles
  have hparse : Payload.parse raw = .ok q := ok_of_toOption hq
  have hsum : (lineCounts q.fileTree).sum = 27670116110564327421 := by rw [hfileTree]; decide
  have htotal : totalLines q.fileTree = 9223372036854775805 := by
    rw [totalLines_eq, hsum]
    decide
  have hbeyond : ¬(lineCounts q.fileTree).sum < 2 ^ 64 := by rw [hsum]; decide
  have hwritable : ∀ other ∈ steps, other.IsWritable := by
    simp only [steps, List.forall_mem_cons]
    exact ⟨⟨by decide, by simp⟩, ⟨by decide, by simp⟩, by simp⟩
  have hreceipt : (((Store.blank false false).run steps.dropLast).ingest (fresh 2) "demo" raw
      none).1 = .ok (.stored ⟨⟨BitVec.ofNat 128 2⟩, ⟨BitVec.ofNat 128 1⟩, "demo", 1, 0⟩) := by
    decide +kernel
  obtain ⟨f, c, -, hkept, hbuild, hshown⟩ :=
    showsTotal_of_stored false false steps.dropLast [] hparse hwritable rfl hreceipt
  rw [htotal] at hshown
  exact ⟨q, hparse, hsum, hbeyond, mt (neverOverflows_iff _).mp hbeyond, htotal, f, c, hkept,
    hbuild, hshown⟩

end FossilRecord
