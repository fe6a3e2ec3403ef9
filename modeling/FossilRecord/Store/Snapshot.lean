import FossilRecord.Store.Basic
import FossilRecord.Text.Octets

/-!
# Stores in files

A store is written as a text in which every value says its kind first, and every text its length, so
that it is read back without looking ahead.  The file starts with an octet that starts no UTF-8
text: a store is never taken for a text, nor a text for a store.
-/

namespace FossilRecord.Store

open Decimal (Binary64)

/-! ## Values -/

/-- A natural number and a mark that ends it. -/
def writeNat (n : Nat) : List Char :=
  Nat.toDigits 10 n ++ [';']

/-- A value: its kind, and what it is. -/
def Cell.write : Cell → List Char
  | .null => ['n']
  | .integer n => (if n < 0 then '-' else '+') :: writeNat n.natAbs
  | .real x => 'r' :: writeNat x.bits.toNat
  | .text s => 't' :: writeNat s.length ++ s.toList

/-- Values one after the other. -/
def writeCells (cells : List Cell) : List Char :=
  cells.flatMap Cell.write

/-- Reads a natural number and its mark; `value` is that of the digits so far. -/
def readNatFrom (value : Nat) : List Char → Option (Nat × List Char)
  | [] => none
  | c :: rest =>
      if c = ';' then some (value, rest)
      else if c.isDigit then readNatFrom (value * 10 + (c.toNat - 48)) rest
      else none

/-- Reads a natural number and its mark. -/
def readNat (cs : List Char) : Option (Nat × List Char) :=
  readNatFrom 0 cs

/-- Reads a value. -/
def readCell : List Char → Option (Cell × List Char)
  | 'n' :: rest => some (.null, rest)
  | '+' :: rest => (readNat rest).map fun (n, rest) => (.integer n, rest)
  | '-' :: rest => (readNat rest).map fun (n, rest) => (.integer (-(n : Int)), rest)
  | 'r' :: rest => (readNat rest).map fun (n, rest) => (.real ⟨UInt64.ofNat n⟩, rest)
  | 't' :: rest =>
      match readNat rest with
      | some (n, rest) => some (.text (String.ofList (rest.take n)), rest.drop n)
      | none => none
  | _ => none

/-- Reads so many values. -/
def readCells : (count : Nat) → List Char → Option (List Cell × List Char)
  | 0, cs => some ([], cs)
  | count + 1, cs => do
      let (c, cs) ← readCell cs
      let (rest, cs) ← readCells count cs
      some (c :: rest, cs)

/-! ## Rows -/

/-- How rows of a kind are values in order. -/
structure RowLayout (α : Type) where
  width : Nat
  cells : α → List Cell
  ofCells? : List Cell → Option α

/-- The values of a project. -/
def ProjectRow.rowLayout : RowLayout ProjectRow where
  width := 6
  cells r := [r.projectId, r.name, r.path, r.stack, r.status, r.lastIndexed]
  ofCells?
    | [a, b, c, d, e, f] => some ⟨a, b, c, d, e, f⟩
    | _ => none

/-- The values of a fossil. -/
def FossilRow.rowLayout : RowLayout FossilRow where
  width := 11
  cells r :=
    [r.fossilId, r.projectId, r.version, r.createdAt, r.summary, r.architecture, r.recentChanges,
      r.knownIssues, r.dependencies, r.fileTree, r.promptUsed]
  ofCells?
    | [a, b, c, d, e, f, g, h, i, j, k] => some ⟨a, b, c, d, e, f, g, h, i, j, k⟩
    | _ => none

/-- The values of a symbol. -/
def SymbolRow.rowLayout : RowLayout SymbolRow where
  width := 11
  cells r :=
    [r.symbolId, r.fossilId, r.projectId, r.seq, r.filePath, r.lineNumber, r.kind, r.name,
      r.signature, r.description, r.relationships]
  ofCells?
    | [a, b, c, d, e, f, g, h, i, j, k] => some ⟨a, b, c, d, e, f, g, h, i, j, k⟩
    | _ => none

/-- The values of a logged question. -/
def QueryRow.rowLayout : RowLayout QueryRow where
  width := 5
  cells r := [r.entryId, r.toolName, r.projectName, r.queryParams, r.timestamp]
  ofCells?
    | [a, b, c, d, e] => some ⟨a, b, c, d, e⟩
    | _ => none

/-- The values of an insight. -/
def InsightRow.rowLayout : RowLayout InsightRow where
  width := 8
  cells r :=
    [r.insightId, r.projectId, r.fossilId, r.insightType, r.content, r.modelUsed,
      r.projectsInvolved, r.createdAt]
  ofCells?
    | [a, b, c, d, e, f, g, h] => some ⟨a, b, c, d, e, f, g, h⟩
    | _ => none

/-- The values of a prompt. -/
def PromptRow.rowLayout : RowLayout PromptRow where
  width := 6
  cells r := [r.promptId, r.projectId, r.prompt, r.createdBy, r.notes, r.createdAt]
  ofCells?
    | [a, b, c, d, e, f] => some ⟨a, b, c, d, e, f⟩
    | _ => none

namespace RowLayout

variable {α : Type}

/-- Rows after their number. -/
def write (layout : RowLayout α) (rows : List α) : List Char :=
  writeNat rows.length ++ rows.flatMap fun r => writeCells (layout.cells r)

/-- Reads so many rows. -/
def readRows (layout : RowLayout α) : (count : Nat) → List Char → Option (List α × List Char)
  | 0, cs => some ([], cs)
  | count + 1, cs => do
      let (cells, cs) ← readCells layout.width cs
      let row ← layout.ofCells? cells
      let (rest, cs) ← readRows layout count cs
      some (row :: rest, cs)

/-- Reads rows after their number. -/
def read (layout : RowLayout α) (cs : List Char) : Option (List α × List Char) := do
  let (count, cs) ← readNat cs
  layout.readRows count cs

end RowLayout

/-! ## Stores -/

/-- Whether something holds. -/
def writeFlag (b : Bool) : List Char :=
  [if b then 'y' else 'n']

/-- Reads whether something holds. -/
def readFlag : List Char → Option (Bool × List Char)
  | 'y' :: rest => some (true, rest)
  | 'n' :: rest => some (false, rest)
  | _ => none

/-- The tables in order, and the constraints. -/
def write (s : Store) : List Char :=
  ProjectRow.rowLayout.write s.projects ++ FossilRow.rowLayout.write s.fossils ++
    SymbolRow.rowLayout.write s.symbols ++ writeFlag s.queryLog.isSome ++
    QueryRow.rowLayout.write (s.queryLog.getD []) ++ InsightRow.rowLayout.write s.insights ++
    PromptRow.rowLayout.write s.prompts ++ writeFlag s.uniqueSummaries ++
    writeFlag s.uniqueSymbolNames

/-- Reads a store. -/
def read (cs : List Char) : Option (Store × List Char) := do
  let (projects, cs) ← ProjectRow.rowLayout.read cs
  let (fossils, cs) ← FossilRow.rowLayout.read cs
  let (symbols, cs) ← SymbolRow.rowLayout.read cs
  let (hasLog, cs) ← readFlag cs
  let (rows, cs) ← QueryRow.rowLayout.read cs
  let (insights, cs) ← InsightRow.rowLayout.read cs
  let (prompts, cs) ← PromptRow.rowLayout.read cs
  let (uniqueSummaries, cs) ← readFlag cs
  let (uniqueSymbolNames, cs) ← readFlag cs
  let queryLog := if hasLog then some rows else none
  some
    (⟨projects, fossils, symbols, queryLog, insights, prompts, uniqueSummaries, uniqueSymbolNames⟩,
      cs)

/-- The octet that a file with a store starts with. -/
def mark : UInt8 := 0xFF

/-- The octets of a file with a store. -/
def toOctets (s : Store) : List UInt8 :=
  mark :: Text.octets (String.ofList s.write)

/-- The store that a file holds; an empty file holds one without rows. -/
def ofOctets? : List UInt8 → Option Store
  | [] => some empty
  | first :: rest =>
      if first = mark then
        match Text.strict rest with
        | .ok text =>
            match read text.toList with
            | some (s, []) => some s
            | _ => none
        | .error _ => none
      else none

end FossilRecord.Store
