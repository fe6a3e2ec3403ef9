import FossilRecord.Json.Decode

/-!
# Fossils

A fossil is an immutable snapshot of what is known about a project, with a version that counts from
one.
-/

namespace FossilRecord

/-- Something that a project depends on. -/
structure Dependency where
  name : String
  version : Option String
  purpose : Option String
deriving DecidableEq, Repr

namespace Dependency

/-- A dependency as an object. -/
def toJson (d : Dependency) : Json :=
  .object [("name", .text d.name), ("version", .optText d.version), ("purpose", .optText d.purpose)]

/-- The fields of the record. -/
def layout : Json.Layout where
  name := "Dependency"
  fields :=
    [("name", Json.check Json.decodeText),
      ("version", Json.check (Json.decodeOption Json.decodeText)),
      ("purpose", Json.check (Json.decodeOption Json.decodeText))]

/-- Reads a dependency. -/
def decode : Json.Decoder Dependency := fun j => do
  let found ← layout.read j
  let name ← layout.required found "name" Json.decodeText
  let version ← layout.optional found "version" (Json.decodeOption Json.decodeText)
  let purpose ← layout.optional found "purpose" (Json.decodeOption Json.decodeText)
  layout.finish j
  .ok ⟨name, version, purpose⟩

/-- The fields as a text holds them. -/
def shape : Json.Triple String String String where
  name := "Dependency"
  first := ("name", Json.readScalar "a string" Json.decodeText)
  second := ("version", Json.readOption (Json.readScalar "a string" Json.decodeText))
  third := ("purpose", Json.readOption (Json.readScalar "a string" Json.decodeText))

/-- Reads a dependency from a text. -/
def read : Json.Reader Dependency := fun cs => do
  let ((name, version, purpose), rest) ← shape.read cs
  .ok (⟨name, version, purpose⟩, rest)

end Dependency

/-- A file worth naming. -/
structure FileTreeEntry where
  path : String
  description : Option String
  lineCount : Option Nat
deriving DecidableEq, Repr

namespace FileTreeEntry

/-- An entry as an object. -/
def toJson (e : FileTreeEntry) : Json :=
  .object [("path", .text e.path), ("description", .optText e.description),
    ("line_count", .optNat e.lineCount)]

/-- The fields of the record. -/
def layout : Json.Layout where
  name := "FileTreeEntry"
  fields :=
    [("path", Json.check Json.decodeText),
      ("description", Json.check (Json.decodeOption Json.decodeText)),
      ("line_count", Json.check (Json.decodeOption (Json.natAs "u64")))]

/-- Reads an entry. -/
def decode : Json.Decoder FileTreeEntry := fun j => do
  let found ← layout.read j
  let path ← layout.required found "path" Json.decodeText
  let description ← layout.optional found "description" (Json.decodeOption Json.decodeText)
  let lineCount ← layout.optional found "line_count" (Json.decodeOption (Json.natAs "u64"))
  layout.finish j
  .ok ⟨path, description, lineCount⟩

/-- The fields as a text holds them. -/
def shape : Json.Triple String String Nat where
  name := "FileTreeEntry"
  first := ("path", Json.readScalar "a string" Json.decodeText)
  second := ("description", Json.readOption (Json.readScalar "a string" Json.decodeText))
  third := ("line_count", Json.readOption (Json.readScalar "u64" (Json.natAs "u64")))

/-- Reads an entry from a text. -/
def read : Json.Reader FileTreeEntry := fun cs => do
  let ((path, description, lineCount), rest) ← shape.read cs
  .ok (⟨path, description, lineCount⟩, rest)

end FileTreeEntry

/-- The sum of the line counts that are known, added up in 64 bits: beyond the largest number that
they hold it starts again from zero. -/
def totalLines (entries : List FileTreeEntry) : Nat :=
  ((entries.filterMap FileTreeEntry.lineCount).foldl
    (fun total count => total + UInt64.ofNat count) 0).toNat

/-- A snapshot of what is known about a project. -/
structure Fossil where
  fossilId : Uuid
  projectId : Uuid
  version : Int
  createdAt : Instant
  summary : String
  architecture : String
  recentChanges : String
  knownIssues : String
  dependencies : List Dependency
  fileTree : List FileTreeEntry
  promptUsed : String
deriving DecidableEq, Repr

namespace Fossil

/-- A fossil as an object. -/
def toJson (f : Fossil) : Json :=
  .object [("fossil_id", .text (toString f.fossilId)), ("project_id", .text (toString f.projectId)),
    ("version", .int f.version), ("created_at", .text f.createdAt.toZulu),
    ("summary", .text f.summary), ("architecture", .text f.architecture),
    ("recent_changes", .text f.recentChanges), ("known_issues", .text f.knownIssues),
    ("dependencies", .list (f.dependencies.map Dependency.toJson)),
    ("file_tree", .list (f.fileTree.map FileTreeEntry.toJson)),
    ("prompt_used", .text f.promptUsed)]

/-- The fields of the record. -/
def layout : Json.Layout where
  name := "Fossil"
  fields :=
    [("fossil_id", Json.check Json.decodeUuid), ("project_id", Json.check Json.decodeUuid),
      ("version", Json.check Json.decodeInt), ("created_at", Json.check Json.decodeInstant),
      ("summary", Json.check Json.decodeText), ("architecture", Json.check Json.decodeText),
      ("recent_changes", Json.check Json.decodeText), ("known_issues", Json.check Json.decodeText),
      ("dependencies", Json.check (Json.decodeList Dependency.decode)),
      ("file_tree", Json.check (Json.decodeList FileTreeEntry.decode)),
      ("prompt_used", Json.check Json.decodeText)]

/-- Reads a fossil. -/
def decode : Json.Decoder Fossil := fun j => do
  let found ← layout.read j
  let fossilId ← layout.required found "fossil_id" Json.decodeUuid
  let projectId ← layout.required found "project_id" Json.decodeUuid
  let version ← layout.required found "version" Json.decodeInt
  let createdAt ← layout.required found "created_at" Json.decodeInstant
  let summary ← layout.required found "summary" Json.decodeText
  let architecture ← layout.required found "architecture" Json.decodeText
  let recentChanges ← layout.required found "recent_changes" Json.decodeText
  let knownIssues ← layout.required found "known_issues" Json.decodeText
  let dependencies ← layout.required found "dependencies" (Json.decodeList Dependency.decode)
  let fileTree ← layout.required found "file_tree" (Json.decodeList FileTreeEntry.decode)
  let promptUsed ← layout.required found "prompt_used" Json.decodeText
  layout.finish j
  .ok ⟨fossilId, projectId, version, createdAt, summary, architecture, recentChanges, knownIssues,
    dependencies, fileTree, promptUsed⟩

end Fossil

/-- What an ingestion that was stored has written. -/
structure FossilReceipt where
  fossilId : Uuid
  projectId : Uuid
  projectName : String
  version : Int
  symbolCount : Nat
deriving DecidableEq, Repr

/-- The fields of a receipt, in order. -/
def FossilReceipt.toFields (r : FossilReceipt) : List (String × Json) :=
  [("fossil_id", .text (toString r.fossilId)), ("project_id", .text (toString r.projectId)),
    ("project_name", .text r.projectName), ("version", .int r.version),
    ("symbol_count", .nat r.symbolCount)]

/-- What became of a text handed in for a project. -/
inductive IngestOutcome where
  | stored (receipt : FossilReceipt)
  | projectNotFound (name : String)
  | malformed (reason : String)
deriving DecidableEq, Repr

/-- An outcome as an object with its name in the field `outcome`. -/
def IngestOutcome.toJson : IngestOutcome → Json
  | .stored receipt => .object (("outcome", .text "stored") :: receipt.toFields)
  | .projectNotFound name =>
      .object [("outcome", .text "project_not_found"), ("name", .text name)]
  | .malformed reason => .object [("outcome", .text "malformed"), ("reason", .text reason)]

end FossilRecord
