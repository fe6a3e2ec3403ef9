import FossilRecord.Payload
import FossilRecord.Store.Prompts

/-!
# Ingesting fossils

A text that is a payload becomes the next fossil of its project, with its symbols.  The rows are
written one by one in a transaction, which is tried anew when a value that must be unique is taken.
The version is one more than the highest of the project.
-/

namespace FossilRecord.Store

open Decimal (Binary64)

/-- How often the next version is tried for. -/
def maxAttempts : Nat := 3

/-- Why a transaction was given up. -/
inductive Halt where
  /-- A row with values that must be unique is already there. -/
  | taken
  | failed (failure : Failure)
deriving DecidableEq, Repr

/-- The decimal digits that a text starts with, as a number, and what follows them. -/
def leadingDigits (cs : List Char) : Nat × List Char :=
  ((cs.takeWhile Char.isDigit).foldl (fun n c => n * 10 + (c.toNat - 48)) 0,
    cs.dropWhile Char.isDigit)

/-- The whole number that a text counts as in a sum, unless it starts with a fraction or a power. -/
def leadingInteger? (s : String) : Option Int :=
  let cs := Text.dropBlanks s.toList
  let (negative, cs) :=
    match cs with
    | '-' :: rest => (true, rest)
    | '+' :: rest => (false, rest)
    | rest => (false, rest)
  let (n, rest) := leadingDigits cs
  let isReal :=
    match rest with
    | '.' :: c :: _ => rest.length < cs.length || c.isDigit
    | ['.'] => rest.length < cs.length
    | 'e' :: c :: _ | 'E' :: c :: _ =>
        rest.length < cs.length && (c.isDigit || c == '-' || c == '+')
    | _ => false
  if isReal then none else some (if negative then -(n : Int) else n)

/-- The value after another one in a count of versions: a whole number that does not fit becomes a
floating-point number, and so does what follows one. -/
def nextVersion : Cell → Cell
  | .null => .integer 1
  | .integer n =>
      if n < Json.maxInt64 then .integer (n + 1)
      else .real ((Binary64.ofRatio false (n + 1).toNat 1).getD (.zero false))
  | .real x => .real x
  | .text t =>
      match leadingInteger? t with
      | some n =>
          if Json.minInt64 ≤ n ∧ n < Json.maxInt64 then .integer (n + 1) else .real (.zero false)
      | none => .real (.zero false)

/-- The version of the next fossil of a project. -/
def versionFor (s : Store) (projectId : Cell) : Except Failure Int :=
  let highest :=
    match s.fossilsOf projectId with
    | [] => .null
    | f :: _ => f.version
  (nextVersion highest).asInteger 0 "COALESCE(MAX(version), 0) + 1"

/-- The row of a fossil. -/
def fossilRow (fresh : Fresh) (projectId : Uuid) (version : Int) (p : Payload)
    (promptUsed : String) : FossilRow where
  fossilId := Cell.uuid (fresh.id 0)
  projectId := Cell.uuid projectId
  version := .integer version
  createdAt := Cell.instant fresh.now
  summary := .text p.summary
  architecture := .text p.architecture
  recentChanges := .text p.recentChanges
  knownIssues := .text p.knownIssues
  dependencies := .text (Json.compact (.list (p.dependencies.map Dependency.toJson)))
  fileTree := .text (Json.compact (.list (p.fileTree.map FileTreeEntry.toJson)))
  promptUsed := .text promptUsed

/-- Relationships as they are stored: a text as it is, anything else as JSON. -/
def relationshipsText : Json → String
  | .text s => s
  | j => j.compact

/-- The row of the symbol at a place among the symbols of a payload. -/
def symbolRow (fresh : Fresh) (projectId : Uuid) (place : Nat) (p : PayloadSymbol) :
    SymbolRow where
  symbolId := Cell.uuid (fresh.id (place + 1))
  fossilId := Cell.uuid (fresh.id 0)
  projectId := Cell.uuid projectId
  seq := .integer place
  filePath := .text p.filePath
  lineNumber := .optInteger p.lineNumber
  kind := .text p.kind.label
  name := .text p.name
  signature := .optText p.signature
  description := .optText p.description
  relationships := .optText (p.relationships.map relationshipsText)

/-- The rows of the symbols of a payload from a place on. -/
def symbolRows (fresh : Fresh) (projectId : Uuid) : (place : Nat) → List PayloadSymbol →
    List SymbolRow
  | _, [] => []
  | place, p :: rest =>
      symbolRow fresh projectId place p :: symbolRows fresh projectId (place + 1) rest

/-! ## The transaction -/

/-- Whether a fossil may not stand beside those of the store. -/
def clashes (s : Store) (row : FossilRow) : Bool :=
  s.fossils.any fun f =>
    (f.projectId = row.projectId && f.version = row.version) ||
      (s.uniqueSummaries && f.summary = row.summary)

/-- Whether a project is stored under an identifier. -/
def hasProject (s : Store) (projectId : Cell) : Bool :=
  s.projects.any (·.projectId = projectId)

/-- Whether a fossil is stored under an identifier. -/
def hasFossil (s : Store) (fossilId : Cell) : Bool :=
  s.fossils.any (·.fossilId = fossilId)

/-- Adds a fossil. -/
def insertFossil (s : Store) (row : FossilRow) : Except Halt Store :=
  if s.clashes row then .error .taken
  else if s.hasFossil row.fossilId then
    .error (.failed (.table (.duplicateKey "fossils.fossil_id")))
  else if !s.hasProject row.projectId then .error (.failed (.table .missingReference))
  else .ok { s with fossils := s.fossils ++ [row] }

/-- Adds a symbol. -/
def insertSymbol (s : Store) (row : SymbolRow) : Except Halt Store :=
  if s.uniqueSymbolNames && s.symbols.any (·.name = row.name) then .error .taken
  else if s.symbols.any (·.symbolId = row.symbolId) then
    .error (.failed (.table (.duplicateKey "symbols.symbol_id")))
  else if !(s.hasFossil row.fossilId && s.hasProject row.projectId) then
    .error (.failed (.table .missingReference))
  else .ok { s with symbols := s.symbols ++ [row] }

/-- Adds symbols one after the other, up to the first that is refused. -/
def insertSymbols (s : Store) : List SymbolRow → Except Halt Store
  | [] => .ok s
  | row :: rest => do
      let s ← s.insertSymbol row
      s.insertSymbols rest

/-- Adds the next fossil of a project and its symbols, and sets the time of the project's last
indexing; the tables are those that the transaction sees. -/
def writeFossil (s : Store) (fresh : Fresh) (projectId : Uuid) (p : Payload)
    (promptUsed : String) : Except Halt (Int × Store) := do
  let version ← (s.versionFor (Cell.uuid projectId)).mapError Halt.failed
  let s ← s.insertFossil (fossilRow fresh projectId version p promptUsed)
  let s ← s.insertSymbols (symbolRows fresh projectId 0 p.symbols)
  .ok (version, s.alterProjects projectId fun r => { r with lastIndexed := Cell.instant fresh.now })

/-- Ends a transaction that began on a store: what it wrote counts if it came to its end, and is
taken back if it was given up. -/
def settle {α : Type} (s : Store) : Except Halt (α × Store) → Except Halt α × Store
  | .ok (value, written) => (.ok value, written)
  | .error halt => (.error halt, s)

/-- Stores the next fossil of a project, with a number of attempts left.  Every attempt is a
transaction with identifiers of its own, and only a value that is taken is a reason for another. -/
def storeFossil (s : Store) (fresh : Fresh) (project : Project) (p : Payload)
    (promptUsed : String) : (attempts : Nat) → Change FossilReceipt
  | 0 => (.error (.versionTaken project.name maxAttempts), s)
  | attempts + 1 =>
      match s.settle (s.writeFossil fresh project.projectId p promptUsed) with
      | (.ok version, s) =>
          (.ok
            { fossilId := fresh.id 0
              projectId := project.projectId
              projectName := project.name
              version := version
              symbolCount := p.symbols.length }, s)
      | (.error .taken, s) =>
          s.storeFossil (fresh.after (p.symbols.length + 1)) project p promptUsed attempts
      | (.error (.failed failure), s) => (.error failure, s)

/-! ## Ingesting -/

/-- The instruction that a fossil is said to have come from: the one that is given, else the one in
force for its project. -/
def promptFor (s : Store) (project : Project) : Option String → Except Failure String
  | some prompt => .ok prompt
  | none =>
      (s.latestPrompt (some project.projectId)).map fun found =>
        match found with
        | some p => p.prompt
        | none => CustodianPrompt.unknown

/-- Stores a text as the next fossil of a project, if it is a payload and there is the project. -/
def ingest (s : Store) (fresh : Fresh) (name raw : String) (promptUsed : Option String) :
    Change IngestOutcome :=
  match Payload.parse raw with
  | .error flaw => (.ok (.malformed flaw.message), s)
  | .ok payload =>
      match s.findProject name .strict with
      | .error failure => (.error failure, s)
      | .ok none => (.ok (.projectNotFound name), s)
      | .ok (some project) =>
          match s.promptFor project promptUsed with
          | .error failure => (.error failure, s)
          | .ok prompt =>
              match s.storeFossil fresh project payload prompt maxAttempts with
              | (.ok receipt, s) => (.ok (.stored receipt), s)
              | (.error failure, s) => (.error failure, s)

end FossilRecord.Store
