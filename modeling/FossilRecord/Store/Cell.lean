import FossilRecord.Decimal.Binary64
import FossilRecord.Instant
import FossilRecord.Text.Quoted
import FossilRecord.Uuid

/-!
# Stored values

A row of the store holds values of four kinds.  Values are ordered null first, then numbers by size,
then texts by their code points.  A row is read in two steps: its values must be of the kinds that
the columns call for, and then their texts must say something that makes sense.
-/

namespace FossilRecord.Store

open Decimal (Binary64)

/-- A stored value. -/
inductive Cell where
  | null
  | integer (n : Int)
  | real (x : Binary64)
  | text (s : String)
deriving DecidableEq, Repr

/-- What goes wrong with the tables themselves. -/
inductive TableFault where
  /-- A value of the wrong kind, in a column at an index and with a name. -/
  | columnKind (kind : String) (index : Nat) (name : String)
  /-- A reference to a row that is not there. -/
  | missingReference
  /-- An identifier, by table and column, that another row has already. -/
  | duplicateKey (column : String)
  | missingTable (name : String)
deriving DecidableEq, Repr

/-- The words for a fault. -/
def TableFault.message : TableFault → String
  | .columnKind kind index name => s!"Invalid column type {kind} at index: {index}, name: {name}"
  | .missingReference => "FOREIGN KEY constraint failed"
  | .duplicateKey column => s!"UNIQUE constraint failed: {column}"
  | .missingTable name => s!"no such table: {name}"

/-- Why the store could not do what it was asked to. -/
inductive Failure where
  | unknownStatus (word : String)
  | table (fault : TableFault)
  | json (message : String)
  | uuid (flaw : UuidFlaw)
  | instant (flaw : InstantFlaw)
  /-- Every attempt to give a project its next fossil met one with the same version. -/
  | versionTaken (project : String) (attempts : Nat)
deriving DecidableEq, Repr

/-- The words for a failure. -/
def Failure.message : Failure → String
  | .unknownStatus word => "core error: unknown project status: " ++ Text.quoted word
  | .table fault => "database error: Rusqlite(\"" ++ fault.message ++ "\")"
  | .json message => "json error: " ++ message
  | .uuid flaw => "uuid parse error: " ++ flaw.message
  | .instant flaw => "date/time parse error: " ++ flaw.message
  | .versionTaken project attempts =>
      s!"could not assign a fossil version for {project} after {attempts} attempts"

namespace Cell

/-- A text or nothing. -/
def optText : Option String → Cell
  | none => .null
  | some s => .text s

/-- A whole number or nothing. -/
def optInteger : Option Int → Cell
  | none => .null
  | some n => .integer n

/-- An identifier as it is stored. -/
def uuid (u : Uuid) : Cell := .text (toString u)

/-- A point in time as it is stored. -/
def instant (t : Instant) : Cell := .text t.toOffset

/-- The kind of a value. -/
def kind : Cell → String
  | .null => "Null"
  | .integer _ => "Integer"
  | .real _ => "Real"
  | .text _ => "Text"

/-- The text of a text. -/
def text? : Cell → Option String
  | .text s => some s
  | _ => none

/-- A number as a quotient. -/
def ratio? : Cell → Option (Int × Nat)
  | .integer n => some (n, 1)
  | .real x =>
      let (num, den) := x.ratio
      some (if x.isNegative then -(num : Int) else num, den)
  | _ => none

/-- Whether a value stands before another or beside it. -/
def le (a b : Cell) : Bool :=
  match a, b with
  | .null, _ => true
  | .text s, .text t => decide (s ≤ t)
  | .text _, _ => false
  | _, .null => false
  | _, .text _ => true
  | x, y =>
      match ratio? x, ratio? y with
      | some (n, d), some (m, e) => decide (n * e ≤ m * d)
      | _, _ => true

/-- Whether a list of values stands before another or beside it, the first difference deciding. -/
def listLe : List Cell → List Cell → Bool
  | [], _ => true
  | _ :: _, [] => false
  | a :: as, b :: bs => if a.le b then (if b.le a then listLe as bs else true) else false

/-- Reads a value that must be a text. -/
def asText (index : Nat) (name : String) : Cell → Except Failure String
  | .text s => .ok s
  | c => .error (.table (.columnKind c.kind index name))

/-- Reads a value that must be a whole number. -/
def asInteger (index : Nat) (name : String) : Cell → Except Failure Int
  | .integer n => .ok n
  | c => .error (.table (.columnKind c.kind index name))

/-- Reads a value that may be missing. -/
def asOption {α : Type} (read : Cell → Except Failure α) : Cell → Except Failure (Option α)
  | .null => .ok none
  | c => (read c).map some

end Cell

/-- Rows in ascending order of a list of values that each of them gives; rows that give the same
keep their order. -/
def orderBy {α : Type} (key : α → List Cell) (rows : List α) : List α :=
  rows.mergeSort fun a b => Cell.listLe (key a) (key b)

/-- Rows in descending order of a value that each of them gives; of rows that give the same the
later one is first. -/
def newestFirst {α : Type} (key : α → Cell) (rows : List α) : List α :=
  rows.reverse.mergeSort fun a b => (key b).le (key a)

/-- At most `limit` rows; a number beyond 63 bits sets no limit. -/
def limited {α : Type} (limit : Nat) (rows : List α) : List α :=
  if limit < Nat.pow 2 63 then rows.take limit else rows

/-- Reads a stored identifier. -/
def readUuid (s : String) : Except Failure Uuid :=
  match Uuid.parse s with
  | .ok u => .ok u
  | .error flaw => .error (.uuid flaw)

/-- Reads a stored point in time. -/
def readInstant (s : String) : Except Failure Instant :=
  match Instant.parseStrict s with
  | .ok t => .ok t
  | .error flaw => .error (.instant flaw)

/-- Reads a text that may be missing. -/
def readOption {α : Type} (read : String → Except Failure α) :
    Option String → Except Failure (Option α)
  | none => .ok none
  | some s => (read s).map some

/-- Reads a stored JSON text. -/
def readJson {α : Type} (read : String → Except String α) (s : String) : Except Failure α :=
  match read s with
  | .ok x => .ok x
  | .error message => .error (.json message)

end FossilRecord.Store
