import FossilRecord.Store.Fossils

/-!
# The query log in the store

Every question to the tools is logged.  The log is counted and read back, newest first.
-/

namespace FossilRecord.Store

/-- The rows of the query log. -/
def logRows (s : Store) : Except Failure (List QueryRow) :=
  match s.queryLog with
  | some rows => .ok rows
  | none => .error (.table (.missingTable "query_log"))

/-- The row of a logged question. -/
def queryRow (e : QueryLogEntry) : QueryRow where
  entryId := Cell.uuid e.entryId
  toolName := .text e.toolName
  projectName := .optText e.projectName
  queryParams := .optText (e.queryParams.map Json.compact)
  timestamp := Cell.instant e.timestamp

/-- Logs a question. -/
def logQuery (s : Store) (fresh : Fresh) (input : NewQueryLogEntry) : Change QueryLogEntry :=
  let entry : QueryLogEntry :=
    ⟨fresh.id 0, input.toolName, input.projectName, input.queryParams, fresh.now⟩
  match s.queryLog with
  | some rows =>
      if rows.any (·.entryId = Cell.uuid entry.entryId) then
        (.error (.table (.duplicateKey "query_log.entry_id")), s)
      else (.ok entry, { s with queryLog := some (rows ++ [queryRow entry]) })
  | none => (.error (.table (.missingTable "query_log")), s)

/-- Logs a question if that can be done. -/
def logQuietly (s : Store) (fresh : Fresh) (input : NewQueryLogEntry) : Store :=
  (s.logQuery fresh input).2

/-- How often each pair of values occurs in the log, the most frequent pair first and pairs of equal
number in ascending order. -/
def usageBy (key : QueryRow → Cell × Cell) (rows : List QueryRow) : List ((Cell × Cell) × Nat) :=
  orderedTally (fun pair => [pair.1, pair.2]) (rows.map key)

/-- How often each tool was used on each project. -/
def queryUsage (s : Store) (limit : Nat) : Except Failure (List QueryUsage) := do
  let rows ← s.logRows
  (limited limit (usageBy (fun r => (r.toolName, r.projectName)) rows)).mapM
    fun ((tool, project), count) => do
      let toolName ← tool.asText 0 "tool_name"
      let projectName ← project.asOption (Cell.asText 1 "project_name")
      .ok ⟨toolName, projectName, count⟩

/-- How often each tool was used with the same parameters. -/
def paramUsage (s : Store) (limit : Nat) : Except Failure (List ParamUsage) := do
  let rows ← s.logRows
  (limited limit (usageBy (fun r => (r.toolName, r.queryParams)) rows)).mapM
    fun ((tool, params), count) => do
      let toolName ← tool.asText 0 "tool_name"
      let queryParams ← params.asOption (Cell.asText 1 "query_params")
      .ok ⟨toolName, queryParams, count⟩

/-- The latest questions, of one tool or of all. -/
def recentQueries (s : Store) (tool : Option String) (limit : Nat) :
    Except Failure (List QueryLogEntry) := do
  let rows ← s.logRows
  let wanted := rows.filter fun r =>
    match tool with
    | some name => r.toolName = .text name
    | none => true
  let typed ← (limited limit (newestFirst QueryRow.timestamp wanted)).mapM QueryRow.typed
  typed.mapM TypedQuery.decode

end FossilRecord.Store
