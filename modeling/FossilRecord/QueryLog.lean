import FossilRecord.Json.Decode

/-!
# The query log

Who asked what of which project, and the counts that are drawn from it.
-/

namespace FossilRecord

/-- One question that was asked. -/
structure QueryLogEntry where
  entryId : Uuid
  toolName : String
  projectName : Option String
  queryParams : Option Json
  timestamp : Instant
deriving Repr

namespace QueryLogEntry

/-- An entry as an object. -/
def toJson (e : QueryLogEntry) : Json :=
  .object [("entry_id", .text (toString e.entryId)), ("tool_name", .text e.toolName),
    ("project_name", .optText e.projectName), ("query_params", e.queryParams.getD .null),
    ("timestamp", .text e.timestamp.toZulu)]

/-- The fields of the record. -/
def layout : Json.Layout where
  name := "QueryLogEntry"
  fields :=
    [("entry_id", Json.check Json.decodeUuid), ("tool_name", Json.check Json.decodeText),
      ("project_name", Json.check (Json.decodeOption Json.decodeText)),
      ("query_params", Json.check Json.decodeAny),
      ("timestamp", Json.check Json.decodeInstant)]

/-- Reads an entry. -/
def decode : Json.Decoder QueryLogEntry := fun j => do
  let found ← layout.read j
  let entryId ← layout.required found "entry_id" Json.decodeUuid
  let toolName ← layout.required found "tool_name" Json.decodeText
  let projectName ← layout.optional found "project_name" (Json.decodeOption Json.decodeText)
  let queryParams ← layout.optional found "query_params" Json.decodeAny
  let timestamp ← layout.required found "timestamp" Json.decodeInstant
  layout.finish j
  .ok ⟨entryId, toolName, projectName, queryParams, timestamp⟩

end QueryLogEntry

/-- What is given to log a question. -/
structure NewQueryLogEntry where
  toolName : String
  projectName : Option String
  queryParams : Option Json
deriving Repr

/-- How often a tool was used on a project, or on none. -/
structure QueryUsage where
  toolName : String
  projectName : Option String
  count : Nat
deriving DecidableEq, Repr

/-- A count as an object. -/
def QueryUsage.toJson (u : QueryUsage) : Json :=
  .object [("tool_name", .text u.toolName), ("project_name", .optText u.projectName),
    ("count", .nat u.count)]

/-- How often a tool was used with the same parameters, given as they are stored. -/
structure ParamUsage where
  toolName : String
  queryParams : Option String
  count : Nat
deriving DecidableEq, Repr

/-- A count as an object. -/
def ParamUsage.toJson (u : ParamUsage) : Json :=
  .object [("tool_name", .text u.toolName), ("query_params", .optText u.queryParams),
    ("count", .nat u.count)]

end FossilRecord
