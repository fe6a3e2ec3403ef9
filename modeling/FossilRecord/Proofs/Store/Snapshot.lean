import FossilRecord.Proofs.Disk
import FossilRecord.Proofs.Text.Octets
import FossilRecord.Store.Opening

/-!
# Stores that are kept in files

A store that was written to a file is read back as it was, whatever its rows hold.  Everything that
is written says where it ends, so each reader takes exactly what was written for it and leaves the
rest.

A store is opened from a place where its file stands or will be made, so keeping it there takes
nothing else away.
-/

namespace FossilRecord.Store

/-! ## Values -/

theorem readNatFrom_append {ds : List Char} (hds : ∀ c ∈ ds, c.isDigit = true) (value : Nat)
    (rest : List Char) :
    readNatFrom value (ds ++ ';' :: rest) = some (Nat.ofDigitChars 10 ds value, rest) := by
  induction ds generalizing value with
  | nil => rfl
  | cons c ds ih =>
      have hdigit := hds c (by simp)
      have hmark : c ≠ ';' := by
        rintro rfl
        exact absurd hdigit (by decide)
      rw [List.cons_append, readNatFrom, if_neg hmark, if_pos hdigit,
        ih fun d hd => hds d (by simp [hd]), Nat.ofDigitChars_cons, Nat.mul_comm]
      rfl

theorem readNat_writeNat (n : Nat) (rest : List Char) :
    readNat (writeNat n ++ rest) = some (n, rest) := by
  have hdigits : ∀ c ∈ Nat.toDigits 10 n, c.isDigit = true := fun _ hc =>
    Nat.isDigit_of_mem_toDigits (by decide) (by decide) hc
  rw [readNat, writeNat, List.append_assoc, List.singleton_append, readNatFrom_append hdigits,
    Nat.ofDigitChars_ten_toDigits]

theorem readCell_write (c : Cell) (rest : List Char) :
    readCell (c.write ++ rest) = some (c, rest) := by
  cases c with
  | null => rfl
  | integer n =>
      rw [Cell.write, List.cons_append]
      split_ifs with hn
      · rw [readCell, readNat_writeNat]
        simp only [Option.map_some, Option.some.injEq, Prod.mk.injEq, Cell.integer.injEq, and_true]
        omega
      · rw [readCell, readNat_writeNat]
        simp only [Option.map_some, Option.some.injEq, Prod.mk.injEq, Cell.integer.injEq, and_true]
        omega
  | real x =>
      simp only [Cell.write, List.cons_append, readCell, readNat_writeNat, Option.map_some,
        UInt64.ofNat_toNat]
  | text s =>
      have hlength : s.length = s.toList.length := (String.length_toList).symm
      simp only [Cell.write, List.cons_append, List.append_assoc, readCell, readNat_writeNat,
        hlength, List.take_left, List.drop_left, String.ofList_toList]

theorem readCells_writeCells (cells : List Cell) (rest : List Char) :
    readCells cells.length (writeCells cells ++ rest) = some (cells, rest) := by
  induction cells with
  | nil => rfl
  | cons c cells ih =>
      rw [writeCells, List.flatMap_cons, List.append_assoc, List.length_cons, readCells,
        readCell_write]
      exact congrArg (· >>= _) ih

/-! ## Rows -/

/-- A layout in which every row has the same number of values and is made of them again. -/
structure RowLayout.IsExact {α : Type} (layout : RowLayout α) : Prop where
  width : ∀ r, (layout.cells r).length = layout.width
  ofCells? : ∀ r, layout.ofCells? (layout.cells r) = some r

theorem RowLayout.IsExact.read_write {α : Type} {layout : RowLayout α} (h : layout.IsExact)
    (rows : List α) (rest : List Char) :
    layout.read (layout.write rows ++ rest) = some (rows, rest) := by
  have hrows : layout.readRows rows.length
      ((rows.flatMap fun r => writeCells (layout.cells r)) ++ rest) = some (rows, rest) := by
    induction rows with
    | nil => rfl
    | cons r rows ih =>
        have hcells := readCells_writeCells (layout.cells r)
          ((rows.flatMap fun r => writeCells (layout.cells r)) ++ rest)
        rw [h.width] at hcells
        rw [List.flatMap_cons, List.append_assoc, List.length_cons, readRows, hcells]
        simp [h.ofCells?, ih]
  rw [read, write, List.append_assoc, readNat_writeNat]
  exact hrows

theorem isExact_projectRow : ProjectRow.rowLayout.IsExact := ⟨fun _ => rfl, fun _ => rfl⟩

theorem isExact_fossilRow : FossilRow.rowLayout.IsExact := ⟨fun _ => rfl, fun _ => rfl⟩

theorem isExact_symbolRow : SymbolRow.rowLayout.IsExact := ⟨fun _ => rfl, fun _ => rfl⟩

theorem isExact_queryRow : QueryRow.rowLayout.IsExact := ⟨fun _ => rfl, fun _ => rfl⟩

theorem isExact_insightRow : InsightRow.rowLayout.IsExact := ⟨fun _ => rfl, fun _ => rfl⟩

theorem isExact_promptRow : PromptRow.rowLayout.IsExact := ⟨fun _ => rfl, fun _ => rfl⟩

/-! ## Stores -/

theorem readFlag_writeFlag (b : Bool) (rest : List Char) :
    readFlag (writeFlag b ++ rest) = some (b, rest) := by
  cases b <;> rfl

theorem read_write (s : Store) (rest : List Char) : read (s.write ++ rest) = some (s, rest) := by
  obtain ⟨projects, fossils, symbols, queryLog, insights, prompts, uniqueSummaries,
    uniqueSymbolNames⟩ := s
  unfold read write
  simp only [List.append_assoc, isExact_projectRow.read_write, isExact_fossilRow.read_write,
    isExact_symbolRow.read_write, isExact_queryRow.read_write, isExact_insightRow.read_write,
    isExact_promptRow.read_write, readFlag_writeFlag, Option.bind_eq_bind, Option.bind_some]
  -- whether there is a log is written beside its rows
  cases queryLog with
  | none => rfl
  | some rows => rfl

/-- A file to which a store was written holds that store. -/
theorem ofOctets?_toOctets (s : Store) : ofOctets? s.toOctets = some s := by
  have hread := read_write s []
  rw [List.append_nil] at hread
  rw [toOctets, ofOctets?, if_pos rfl, Text.strict_octets]
  simp only [String.toList_ofList, hread]

/-! ## The place of a store -/

section

variable {d : Disk} {folder place : Disk.Place} {path : String} {s : Store}

theorem at?_of_newPlace? (h : newPlace? d folder path = some place) : d.at? place = none := by
  unfold newPlace? at h
  simp only at h
  split at h
  · cases h
  · split at h
    · split at h
      · cases h
      · rename_i hfree
        cases h
        simpa using hfree
    · cases h

/-- A store is kept where its file is, or where there is nothing yet. -/
theorem isFile_of_ofPath (h : ofPath d folder path = .ok ⟨s, some place⟩) :
    ∀ entry ∈ d.at? place, entry.isFile = true := by
  intro entry hentry
  rw [Option.mem_def] at hentry
  unfold ofPath at h
  split at h
  · cases h
  · split at h
    · rename_i there octets hlocate hread
      obtain ⟨there', hlocate', hread⟩ := bind_eq_ok hread
      rw [hlocate] at hlocate'
      cases hlocate'
      split at h
      · cases h
        rw [Disk.readAt, hentry] at hread
        cases entry with
        | file | closed => rfl
        | folder | link => cases hread
      · cases h
    · split at h
      · rename_i there hnew
        cases h
        rw [at?_of_newPlace? hnew] at hentry
        cases hentry
      · cases h

theorem at?_keep (hplace : ∀ entry ∈ d.at? place, entry.isFile = true) (s : Store) :
    (keep d (some place) s).at? place = some (.file s.toOctets) := by
  have hne : place ≠ [] := by
    rintro rfl
    exact absurd (hplace .folder rfl) (by decide)
  rw [keep, Disk.at?_put_self hne]

/-- A store may be kept in the same place again. -/
theorem isFile_keep (hplace : ∀ entry ∈ d.at? place, entry.isFile = true) (s : Store) :
    ∀ entry ∈ (keep d (some place) s).at? place, entry.isFile = true := by
  intro entry hentry
  rw [at?_keep hplace, Option.mem_some_iff] at hentry
  rw [← hentry]
  rfl

/-- What was kept is in the file. -/
theorem readAt_keep (hplace : ∀ entry ∈ d.at? place, entry.isFile = true) (s : Store) :
    (keep d (some place) s).readAt place = .ok s.toOctets := by
  rw [Disk.readAt, at?_keep hplace]

end

end FossilRecord.Store
