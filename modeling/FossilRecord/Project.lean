import FossilRecord.Json.Decode

/-!
# Projects

A project is a tracked source tree: a unique name, the path of the tree, a free description of what
it is built with, and whether it takes part in listings.
-/

namespace FossilRecord

/-- Whether a project takes part in fuzzy lookups and analyses of all projects. -/
inductive ProjectStatus where
  | active
  | inactive
deriving DecidableEq, Repr

namespace ProjectStatus

/-- The word for a status. -/
def label : ProjectStatus → String
  | .active => "active"
  | .inactive => "inactive"

/-- The status that a word names. -/
def ofLabel? (s : String) : Option ProjectStatus :=
  if s = "active" then some .active else if s = "inactive" then some .inactive else none

/-- The message for a word that names no status. -/
def unknown (s : String) : String :=
  "unknown project status: " ++ Text.quoted s

/-- A status as its word. -/
def toJson (s : ProjectStatus) : Json := .text s.label

/-- Reads a status from its word, or from an object whose only field has that name and is null. -/
def decode : Json.Decoder ProjectStatus := fun j =>
  let named (s : String) : Except String ProjectStatus :=
    match ofLabel? s with
    | some status => .ok status
    | none => .error s!"unknown variant `{s}`, expected `active` or `inactive`"
  match j with
  | .text s => named s
  | .object [(s, value)] => do
      let status ← named s
      match value with
      | .null => .ok status
      | other => .error (Json.wrongType other "unit")
  | .object _ => .error (Json.wrongValue j "map with a single key")
  | other => .error (Json.wrongType other "string or map")

end ProjectStatus

/-- A tracked source tree. -/
structure Project where
  projectId : Uuid
  name : String
  path : String
  stack : String
  status : ProjectStatus
  lastIndexed : Option Instant
deriving DecidableEq, Repr

namespace Project

/-- The fields of a project, in order. -/
def toFields (p : Project) : List (String × Json) :=
  [("project_id", .text (toString p.projectId)), ("name", .text p.name), ("path", .text p.path),
    ("stack", .text p.stack), ("status", p.status.toJson),
    ("last_indexed", .optText (p.lastIndexed.map Instant.toZulu))]

/-- A project as an object. -/
def toJson (p : Project) : Json := .object p.toFields

/-- The fields of the record. -/
def layout : Json.Layout where
  name := "Project"
  fields :=
    [("project_id", Json.check Json.decodeUuid), ("name", Json.check Json.decodeText),
      ("path", Json.check Json.decodePath), ("stack", Json.check Json.decodeText),
      ("status", Json.check ProjectStatus.decode),
      ("last_indexed", Json.check (Json.decodeOption Json.decodeInstant))]

/-- Reads a project. -/
def decode : Json.Decoder Project := fun j => do
  let found ← layout.read j
  let projectId ← layout.required found "project_id" Json.decodeUuid
  let name ← layout.required found "name" Json.decodeText
  let path ← layout.required found "path" Json.decodePath
  let stack ← layout.required found "stack" Json.decodeText
  let status ← layout.required found "status" ProjectStatus.decode
  let lastIndexed ← layout.optional found "last_indexed" (Json.decodeOption Json.decodeInstant)
  layout.finish j
  .ok ⟨projectId, name, path, stack, status, lastIndexed⟩

end Project

/-- What is given to register a project. -/
structure NewProject where
  name : String
  path : String
  stack : String
deriving DecidableEq, Repr

namespace NewProject

/-- A registration as an object. -/
def toJson (p : NewProject) : Json :=
  .object [("name", .text p.name), ("path", .text p.path), ("stack", .text p.stack)]

/-- The fields of the record. -/
def layout : Json.Layout where
  name := "NewProject"
  fields :=
    [("name", Json.check Json.decodeText), ("path", Json.check Json.decodePath),
      ("stack", Json.check Json.decodeText)]

/-- Reads a registration; the stack may be left out. -/
def decode : Json.Decoder NewProject := fun j => do
  let found ← layout.read j
  let name ← layout.required found "name" Json.decodeText
  let path ← layout.required found "path" Json.decodePath
  let stack ← Json.Layout.withDefault found "stack" Json.decodeText ""
  layout.finish j
  .ok ⟨name, path, stack⟩

end NewProject

/-- A project with the number of its fossils and of the symbols of the latest one. -/
structure ProjectSummary where
  project : Project
  fossilCount : Int
  symbolCount : Int
deriving DecidableEq, Repr

/-- A summary as one flat object. -/
def ProjectSummary.toJson (s : ProjectSummary) : Json :=
  .object (s.project.toFields ++
    [("fossil_count", .int s.fossilCount), ("symbol_count", .int s.symbolCount)])

/-- How forgiving a lookup by name is: strict by the name itself or without regard to case, of any
status; fuzzy also by a part of the name, of active projects only. -/
inductive ProjectLookup where
  | strict
  | fuzzy
deriving DecidableEq, Repr

end FossilRecord
