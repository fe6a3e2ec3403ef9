import FossilRecord.Disk
import FossilRecord.Store.Snapshot

/-!
# Opening a store by a path

A store is kept in a file, which is made where there is none in a folder that is there.  The empty
path and one special name stand for a store that is kept nowhere.
-/

namespace FossilRecord.Store

/-- Why no store can be opened. -/
inductive OpenFlaw where
  /-- There is no file at the path and none can be made there. -/
  | noFile (path : String)
  | notStore
deriving DecidableEq, Repr

namespace OpenFlaw

/-- The words for a flaw. -/
def message : OpenFlaw → String
  | .noFile path => "unable to open database file: " ++ path
  | .notStore => "file is not a database"

/-- What lies behind it. -/
def cause : OpenFlaw → String
  | .noFile _ => "Error code 14: Unable to open the database file"
  | .notStore => "Error code 26: File opened that is not a database file"

end OpenFlaw

/-- A store, and the place of its file unless it is kept nowhere. -/
structure Opened where
  store : Store
  place? : Option Disk.Place
deriving DecidableEq, Repr

/-- Whether a path stands for a store that is kept nowhere. -/
def isTransient (path : String) : Bool :=
  path = "" || path = ":memory:"

/-- The folder that a path leads to, and the name that it ends in. -/
def folderAndName (path : String) : String × String :=
  let name := (path.toList.reverse.takeWhile (· ≠ '/')).reverse
  let front := path.toList.take (path.length - name.length)
  (if front.isEmpty then "." else String.ofList front, String.ofList name)

/-- The place where a path would make a file. -/
def newPlace? (d : Disk) (folder : Disk.Place) (path : String) : Option Disk.Place :=
  let (front, name) := folderAndName path
  if name = "" ∨ name = "." ∨ name = ".." then none
  else
    match d.folder? folder front with
    | some place => if (d.at? (place ++ [name])).isSome then none else some (place ++ [name])
    | none => none

/-- Opens the store that a path leads to. -/
def ofPath (d : Disk) (folder : Disk.Place) (path : String) : Except OpenFlaw Opened :=
  if isTransient path then .ok ⟨empty, none⟩
  else
    match d.locate folder path, d.read folder path with
    | .ok place, .ok octets =>
        match ofOctets? octets with
        | some store => .ok ⟨store, some place⟩
        | none => .error .notStore
    | _, _ =>
        match newPlace? d folder path with
        | some place => .ok ⟨empty, some place⟩
        | none => .error (.noFile path)

/-- Puts a store into the file that it was opened from. -/
def keep (d : Disk) (place? : Option Disk.Place) (s : Store) : Disk :=
  match place? with
  | some place => d.put place (.file s.toOctets)
  | none => d

end FossilRecord.Store
