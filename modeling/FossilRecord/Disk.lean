import FossilRecord.Path

/-!
# Files as values

A tree of files is a list of what stands at which place, a place being the names that lead to it
from the root.  Paths are followed through links to places.
-/

namespace FossilRecord

/-- What stands at a place. -/
inductive Disk.Entry where
  | file (octets : List UInt8)
  /-- A file that may not be read. -/
  | closed
  | folder
  /-- Another path stands for this one. -/
  | link (target : String)
deriving DecidableEq, Repr

/-- Whether it is a file; a link is none, wherever it leads. -/
def Disk.Entry.isFile : Disk.Entry → Bool
  | .file _ | .closed => true
  | .folder | .link _ => false

/-- The names that lead to a place from the root. -/
abbrev Disk.Place := List String

/-- A tree of files; the root itself is always a folder. -/
structure Disk where
  entries : List (Disk.Place × Disk.Entry)
deriving DecidableEq, Repr

/-- Why a file cannot be read. -/
inductive Disk.Flaw where
  | missing
  | notFolder
  | isFolder
  | denied
  | tooManyLinks
deriving DecidableEq, Repr

/-- The words for a flaw. -/
def Disk.Flaw.message : Disk.Flaw → String
  | .missing => "No such file or directory (os error 2)"
  | .notFolder => "Not a directory (os error 20)"
  | .isFolder => "Is a directory (os error 21)"
  | .denied => "Permission denied (os error 13)"
  | .tooManyLinks => "Too many levels of symbolic links (os error 40)"

namespace Disk

/-- A tree with nothing but the root. -/
def empty : Disk := ⟨[]⟩

/-- What stands at a place. -/
def at? (d : Disk) (place : Place) : Option Entry :=
  if place.isEmpty then some .folder else (d.entries.find? (·.1 = place)).map (·.2)

/-- Puts something at a place, instead of what stood there. -/
def put (d : Disk) (place : Place) (entry : Entry) : Disk :=
  ⟨d.entries.filter (·.1 ≠ place) ++ [(place, entry)]⟩

/-- Makes a place a folder, unless something stands there. -/
def addFolder (d : Disk) (place : Place) : Disk :=
  if (d.at? place).isSome then d else d.put place .folder

/-- Makes folders of the places that lead to a place, from `front` on. -/
def addFoldersFrom (d : Disk) (front : Place) : Place → Disk
  | [] => d
  | name :: rest => addFoldersFrom (d.addFolder (front ++ [name])) (front ++ [name]) rest

/-- Puts something at a place, in folders that are made where they are missing. -/
def write (d : Disk) (place : Place) (entry : Entry) : Disk :=
  (d.addFoldersFrom [] place.dropLast).put place entry

/-- Removes what stands at a place and below it. -/
def remove (d : Disk) (place : Place) : Disk :=
  ⟨d.entries.filter fun e => !place.isPrefixOf e.1⟩

/-- The steps of a path; a step in place only asks for a folder. -/
def steps (path : String) : List String :=
  (Text.splitAt '/' path.toList).map fun piece =>
    if piece.isEmpty then "." else String.ofList piece

/-- The number of steps after which a path is given up. -/
def maxSteps : Nat := 4096

/-- Follows steps from a place; `fuel` bounds their number. -/
def follow (d : Disk) : (fuel : Nat) → Place → List String → Except Flaw Place
  | 0, _, _ => .error .tooManyLinks
  | _, here, [] => .ok here
  | fuel + 1, here, step :: rest =>
      match d.at? here with
      | some .folder =>
          if step = "." then follow d fuel here rest
          else if step = ".." then follow d fuel here.dropLast rest
          else
            match d.at? (here ++ [step]) with
            | none => .error .missing
            | some (.link target) =>
                follow d fuel (if Path.isAbsolute target then [] else here) (steps target ++ rest)
            | some _ => follow d fuel (here ++ [step]) rest
      | some _ => .error .notFolder
      | none => .error .missing

/-- Puts something where steps lead to, with folders wherever they pass. -/
def putAlong (entry : Entry) : Disk → Place → List String → Disk
  | d, here, [] => if entry = .folder then d.addFolder here else d.put here entry
  | d, here, step :: rest =>
      let d := d.addFolder here
      if step = "." then putAlong entry d here rest
      else if step = ".." then putAlong entry d here.dropLast rest
      else putAlong entry d (here ++ [step]) rest

/-- Puts something where a path leads to from a folder. -/
def graft (d : Disk) (folder : Place) (path : String) (entry : Entry) : Disk :=
  (d.addFoldersFrom [] folder).putAlong entry (if Path.isAbsolute path then [] else folder)
    (steps path)

/-- The place that a path leads to from a folder. -/
def locate (d : Disk) (folder : Place) (path : String) : Except Flaw Place :=
  if path = "" then .error .missing
  else d.follow maxSteps (if Path.isAbsolute path then [] else folder) (steps path)

/-- The place of the folder that a path leads to. -/
def folder? (d : Disk) (folder : Place) (path : String) : Option Place :=
  match d.locate folder path with
  | .ok place => if d.at? place = some .folder then some place else none
  | .error _ => none

/-- Reads the file at a place. -/
def readAt (d : Disk) (place : Place) : Except Flaw (List UInt8) :=
  match d.at? place with
  | some (.file octets) => .ok octets
  | some .closed => .error .denied
  | some .folder => .error .isFolder
  | some (.link _) => .error .tooManyLinks
  | none => .error .missing

/-- Reads the file that a path leads to. -/
def read (d : Disk) (folder : Place) (path : String) : Except Flaw (List UInt8) := do
  let place ← d.locate folder path
  d.readAt place

/-- What an entry is in a folder, with its name. -/
def inFolder? (folder : Place) (e : Place × Entry) : Option (String × Entry) :=
  if e.1.dropLast = folder then e.1.getLast?.map fun name => (name, e.2) else none

/-- What stands in a folder, in the order in which the folder is listed. -/
def children (d : Disk) (folder : Place) : List (String × Entry) :=
  d.entries.filterMap (inFolder? folder)

/-- The number of names that lead to the deepest place. -/
def levels (d : Disk) : Nat :=
  (d.entries.map fun e => e.1.length).max?.getD 0

end Disk

end FossilRecord
