import FossilRecord.Store.Basic
import FossilRecord.Store.Column

/-!
# Edits from outside

What a program other than this one may do to the tables: set one value of one row, forbid that
values repeat, or drop the query log.  Rows that were edited may be unreadable.
-/

namespace FossilRecord.Store

/-- The tables. -/
inductive Table where
  | projects
  | fossils
  | symbols
  | queryLog
  | insights
  | prompts
deriving DecidableEq, Repr

/-- Sets a value of a row. -/
def ProjectRow.set (r : ProjectRow) (column : String) (c : Cell) : ProjectRow :=
  match column with
  | "project_id" => { r with projectId := c }
  | "name" => { r with name := c }
  | "path" => { r with path := c }
  | "stack" => { r with stack := c }
  | "status" => { r with status := c }
  | "last_indexed" => { r with lastIndexed := c }
  | _ => r

/-- Sets a value of a row. -/
def FossilRow.set (r : FossilRow) (column : String) (c : Cell) : FossilRow :=
  match column with
  | "fossil_id" => { r with fossilId := c }
  | "project_id" => { r with projectId := c }
  | "version" => { r with version := c }
  | "created_at" => { r with createdAt := c }
  | "summary" => { r with summary := c }
  | "architecture" => { r with architecture := c }
  | "recent_changes" => { r with recentChanges := c }
  | "known_issues" => { r with knownIssues := c }
  | "dependencies" => { r with dependencies := c }
  | "file_tree" => { r with fileTree := c }
  | "prompt_used" => { r with promptUsed := c }
  | _ => r

/-- Sets a value of a row. -/
def SymbolRow.set (r : SymbolRow) (column : String) (c : Cell) : SymbolRow :=
  match column with
  | "symbol_id" => { r with symbolId := c }
  | "fossil_id" => { r with fossilId := c }
  | "project_id" => { r with projectId := c }
  | "seq" => { r with seq := c }
  | "file_path" => { r with filePath := c }
  | "line_number" => { r with lineNumber := c }
  | "type" => { r with kind := c }
  | "name" => { r with name := c }
  | "signature" => { r with signature := c }
  | "description" => { r with description := c }
  | "relationships" => { r with relationships := c }
  | _ => r

/-- Sets a value of a row. -/
def QueryRow.set (r : QueryRow) (column : String) (c : Cell) : QueryRow :=
  match column with
  | "entry_id" => { r with entryId := c }
  | "tool_name" => { r with toolName := c }
  | "project_name" => { r with projectName := c }
  | "query_params" => { r with queryParams := c }
  | "timestamp" => { r with timestamp := c }
  | _ => r

/-- Sets a value of a row. -/
def InsightRow.set (r : InsightRow) (column : String) (c : Cell) : InsightRow :=
  match column with
  | "insight_id" => { r with insightId := c }
  | "project_id" => { r with projectId := c }
  | "fossil_id" => { r with fossilId := c }
  | "insight_type" => { r with insightType := c }
  | "content" => { r with content := c }
  | "model_used" => { r with modelUsed := c }
  | "projects_involved" => { r with projectsInvolved := c }
  | "created_at" => { r with createdAt := c }
  | _ => r

/-- Sets a value of a row. -/
def PromptRow.set (r : PromptRow) (column : String) (c : Cell) : PromptRow :=
  match column with
  | "prompt_id" => { r with promptId := c }
  | "project_id" => { r with projectId := c }
  | "prompt" => { r with prompt := c }
  | "created_by" => { r with createdBy := c }
  | "notes" => { r with notes := c }
  | "created_at" => { r with createdAt := c }
  | _ => r

/-- Sets a value of the row at an index of a table, in a column that is named. -/
def edit (s : Store) (table : Table) (index : Nat) (column : String) (c : Cell) : Store :=
  let c := fit column c
  match table with
  | .projects => { s with projects := s.projects.modify index fun r => r.set column c }
  | .fossils => { s with fossils := s.fossils.modify index fun r => r.set column c }
  | .symbols => { s with symbols := s.symbols.modify index fun r => r.set column c }
  | .queryLog =>
      { s with queryLog := s.queryLog.map fun rows => rows.modify index fun r => r.set column c }
  | .insights => { s with insights := s.insights.modify index fun r => r.set column c }
  | .prompts => { s with prompts := s.prompts.modify index fun r => r.set column c }

/-- The identifiers of the rows of a table, as they are stored. -/
def ids (s : Store) : Table → List Cell
  | .projects => s.projects.map ProjectRow.projectId
  | .fossils => s.fossils.map FossilRow.fossilId
  | .symbols => s.symbols.map SymbolRow.symbolId
  | .queryLog => (s.queryLog.getD []).map QueryRow.entryId
  | .insights => s.insights.map InsightRow.insightId
  | .prompts => s.prompts.map PromptRow.promptId

/-- Forbids that two fossils have the same summary, unless some do. -/
def forbidSameSummaries (s : Store) : Store :=
  if (s.fossils.map FossilRow.summary).Nodup then { s with uniqueSummaries := true } else s

/-- Forbids that two symbols have the same name, unless some do. -/
def forbidSameSymbolNames (s : Store) : Store :=
  if (s.symbols.map SymbolRow.name).Nodup then { s with uniqueSymbolNames := true } else s

/-- Drops the query log. -/
def dropQueryLog (s : Store) : Store :=
  { s with queryLog := none }

end FossilRecord.Store
