import FossilRecord.Fossil
import FossilRecord.Insight
import FossilRecord.Project
import FossilRecord.Prompt
import FossilRecord.QueryLog
import FossilRecord.Store.Cell
import FossilRecord.Symbol

/-!
# Rows

The rows of the six tables.  For each there is the row as it is stored, its typed form, in which
every value has the kind that its column calls for, and what the typed form is decoded to.
-/

namespace FossilRecord.Store

/-! ## Projects -/

/-- A row of the table of projects. -/
structure ProjectRow where
  projectId : Cell
  name : Cell
  path : Cell
  stack : Cell
  status : Cell
  lastIndexed : Cell
deriving DecidableEq, Repr

/-- A project with its values as texts. -/
structure TypedProject where
  projectId : String
  name : String
  path : String
  stack : String
  status : String
  lastIndexed : Option String
deriving DecidableEq, Repr

/-- Reads the kinds of a row. -/
def ProjectRow.typed (r : ProjectRow) : Except Failure TypedProject := do
  let projectId ← r.projectId.asText 0 "project_id"
  let name ← r.name.asText 1 "name"
  let path ← r.path.asText 2 "path"
  let stack ← r.stack.asText 3 "stack"
  let status ← r.status.asText 4 "status"
  let lastIndexed ← r.lastIndexed.asOption (Cell.asText 5 "last_indexed")
  .ok ⟨projectId, name, path, stack, status, lastIndexed⟩

/-- Reads the texts of a project. -/
def TypedProject.decode (p : TypedProject) : Except Failure Project := do
  let projectId ← readUuid p.projectId
  let status ←
    match ProjectStatus.ofLabel? p.status with
    | some status => .ok status
    | none => .error (.unknownStatus p.status)
  let lastIndexed ← readOption readInstant p.lastIndexed
  .ok ⟨projectId, p.name, p.path, p.stack, status, lastIndexed⟩

/-- Reads a row. -/
def ProjectRow.decode (r : ProjectRow) : Except Failure Project := do
  let typed ← r.typed
  typed.decode

/-! ## Fossils -/

/-- A row of the table of fossils. -/
structure FossilRow where
  fossilId : Cell
  projectId : Cell
  version : Cell
  createdAt : Cell
  summary : Cell
  architecture : Cell
  recentChanges : Cell
  knownIssues : Cell
  dependencies : Cell
  fileTree : Cell
  promptUsed : Cell
deriving DecidableEq, Repr

/-- A fossil with its values as texts. -/
structure TypedFossil where
  fossilId : String
  projectId : String
  version : Int
  createdAt : String
  summary : String
  architecture : String
  recentChanges : String
  knownIssues : String
  dependencies : String
  fileTree : String
  promptUsed : String
deriving DecidableEq, Repr

/-- Reads the kinds of a row. -/
def FossilRow.typed (r : FossilRow) : Except Failure TypedFossil := do
  let fossilId ← r.fossilId.asText 0 "fossil_id"
  let projectId ← r.projectId.asText 1 "project_id"
  let version ← r.version.asInteger 2 "version"
  let createdAt ← r.createdAt.asText 3 "created_at"
  let summary ← r.summary.asText 4 "summary"
  let architecture ← r.architecture.asText 5 "architecture"
  let recentChanges ← r.recentChanges.asText 6 "recent_changes"
  let knownIssues ← r.knownIssues.asText 7 "known_issues"
  let dependencies ← r.dependencies.asText 8 "dependencies"
  let fileTree ← r.fileTree.asText 9 "file_tree"
  let promptUsed ← r.promptUsed.asText 10 "prompt_used"
  .ok ⟨fossilId, projectId, version, createdAt, summary, architecture, recentChanges, knownIssues,
    dependencies, fileTree, promptUsed⟩

/-- Reads the texts of a fossil. -/
def TypedFossil.decode (f : TypedFossil) : Except Failure Fossil := do
  let fossilId ← readUuid f.fossilId
  let projectId ← readUuid f.projectId
  let createdAt ← readInstant f.createdAt
  let dependencies ← readJson (Json.parseWith (Json.readList Dependency.read)) f.dependencies
  let fileTree ← readJson (Json.parseWith (Json.readList FileTreeEntry.read)) f.fileTree
  .ok
    { fossilId, projectId, version := f.version, createdAt, summary := f.summary
      architecture := f.architecture, recentChanges := f.recentChanges
      knownIssues := f.knownIssues, dependencies, fileTree, promptUsed := f.promptUsed }

/-- Reads a row. -/
def FossilRow.decode (r : FossilRow) : Except Failure Fossil := do
  let typed ← r.typed
  typed.decode

/-! ## Symbols -/

/-- A row of the table of symbols. -/
structure SymbolRow where
  symbolId : Cell
  fossilId : Cell
  projectId : Cell
  /-- The place among the symbols of the fossil. -/
  seq : Cell
  filePath : Cell
  lineNumber : Cell
  kind : Cell
  name : Cell
  signature : Cell
  description : Cell
  relationships : Cell
deriving DecidableEq, Repr

/-- A symbol and the version of its fossil, with the values as texts. -/
structure TypedSymbol where
  symbolId : String
  fossilId : String
  projectId : String
  version : Int
  filePath : String
  lineNumber : Option Int
  kind : String
  name : String
  signature : Option String
  description : Option String
  relationships : Option String
deriving DecidableEq, Repr

/-- A symbol with the row of its fossil. -/
structure JoinedSymbol where
  symbol : SymbolRow
  fossil : FossilRow
deriving DecidableEq, Repr

/-- Reads the kinds of a row. -/
def JoinedSymbol.typed (r : JoinedSymbol) : Except Failure TypedSymbol := do
  let symbolId ← r.symbol.symbolId.asText 0 "symbol_id"
  let fossilId ← r.symbol.fossilId.asText 1 "fossil_id"
  let projectId ← r.symbol.projectId.asText 2 "project_id"
  let version ← r.fossil.version.asInteger 3 "version"
  let filePath ← r.symbol.filePath.asText 4 "file_path"
  let lineNumber ← r.symbol.lineNumber.asOption (Cell.asInteger 5 "line_number")
  let kind ← r.symbol.kind.asText 6 "type"
  let name ← r.symbol.name.asText 7 "name"
  let signature ← r.symbol.signature.asOption (Cell.asText 8 "signature")
  let description ← r.symbol.description.asOption (Cell.asText 9 "description")
  let relationships ← r.symbol.relationships.asOption (Cell.asText 10 "relationships")
  .ok ⟨symbolId, fossilId, projectId, version, filePath, lineNumber, kind, name, signature,
    description, relationships⟩

/-- Reads the texts of a symbol. -/
def TypedSymbol.decode (s : TypedSymbol) : Except Failure Symbol := do
  let symbolId ← readUuid s.symbolId
  let fossilId ← readUuid s.fossilId
  let projectId ← readUuid s.projectId
  let relationships ← readOption (readJson Json.parse) s.relationships
  .ok
    { symbolId, fossilId, projectId, version := s.version, filePath := s.filePath
      lineNumber := s.lineNumber, kind := SymbolType.ofLabel s.kind, name := s.name
      signature := s.signature, description := s.description, relationships }

/-! ## The query log -/

/-- A row of the query log. -/
structure QueryRow where
  entryId : Cell
  toolName : Cell
  projectName : Cell
  queryParams : Cell
  timestamp : Cell
deriving DecidableEq, Repr

/-- A logged question with its values as texts. -/
structure TypedQuery where
  entryId : String
  toolName : String
  projectName : Option String
  queryParams : Option String
  timestamp : String
deriving DecidableEq, Repr

/-- Reads the kinds of a row. -/
def QueryRow.typed (r : QueryRow) : Except Failure TypedQuery := do
  let entryId ← r.entryId.asText 0 "entry_id"
  let toolName ← r.toolName.asText 1 "tool_name"
  let projectName ← r.projectName.asOption (Cell.asText 2 "project_name")
  let queryParams ← r.queryParams.asOption (Cell.asText 3 "query_params")
  let timestamp ← r.timestamp.asText 4 "timestamp"
  .ok ⟨entryId, toolName, projectName, queryParams, timestamp⟩

/-- Reads the texts of a logged question. -/
def TypedQuery.decode (q : TypedQuery) : Except Failure QueryLogEntry := do
  let entryId ← readUuid q.entryId
  let queryParams ← readOption (readJson Json.parse) q.queryParams
  let timestamp ← readInstant q.timestamp
  .ok ⟨entryId, q.toolName, q.projectName, queryParams, timestamp⟩

/-! ## Insights -/

/-- A row of the table of insights. -/
structure InsightRow where
  insightId : Cell
  projectId : Cell
  fossilId : Cell
  insightType : Cell
  content : Cell
  modelUsed : Cell
  projectsInvolved : Cell
  createdAt : Cell
deriving DecidableEq, Repr

/-- An insight with its values as texts. -/
structure TypedInsight where
  insightId : String
  projectId : Option String
  fossilId : Option String
  insightType : String
  content : String
  modelUsed : Option String
  projectsInvolved : String
  createdAt : String
deriving DecidableEq, Repr

/-- Reads the kinds of a row. -/
def InsightRow.typed (r : InsightRow) : Except Failure TypedInsight := do
  let insightId ← r.insightId.asText 0 "insight_id"
  let projectId ← r.projectId.asOption (Cell.asText 1 "project_id")
  let fossilId ← r.fossilId.asOption (Cell.asText 2 "fossil_id")
  let insightType ← r.insightType.asText 3 "insight_type"
  let content ← r.content.asText 4 "content"
  let modelUsed ← r.modelUsed.asOption (Cell.asText 5 "model_used")
  let projectsInvolved ← r.projectsInvolved.asText 6 "projects_involved"
  let createdAt ← r.createdAt.asText 7 "created_at"
  .ok ⟨insightId, projectId, fossilId, insightType, content, modelUsed, projectsInvolved, createdAt⟩

/-- Reads a text that a list of texts was written to. -/
def readTexts : String → Except String (List String) :=
  Json.parseWith (Json.readList (Json.readScalar "a string" Json.decodeText))

/-- Reads the texts of an insight. -/
def TypedInsight.decode (i : TypedInsight) : Except Failure Insight := do
  let insightId ← readUuid i.insightId
  let projectId ← readOption readUuid i.projectId
  let fossilId ← readOption readUuid i.fossilId
  let projectsInvolved ← readJson readTexts i.projectsInvolved
  let createdAt ← readInstant i.createdAt
  .ok ⟨insightId, projectId, fossilId, i.insightType, i.content, i.modelUsed, projectsInvolved,
    createdAt⟩

/-! ## Prompts -/

/-- A row of the table of prompts. -/
structure PromptRow where
  promptId : Cell
  projectId : Cell
  prompt : Cell
  createdBy : Cell
  notes : Cell
  createdAt : Cell
deriving DecidableEq, Repr

/-- A prompt with its values as texts. -/
structure TypedPrompt where
  promptId : String
  projectId : Option String
  prompt : String
  createdBy : String
  notes : Option String
  createdAt : String
deriving DecidableEq, Repr

/-- Reads the kinds of a row. -/
def PromptRow.typed (r : PromptRow) : Except Failure TypedPrompt := do
  let promptId ← r.promptId.asText 0 "prompt_id"
  let projectId ← r.projectId.asOption (Cell.asText 1 "project_id")
  let prompt ← r.prompt.asText 2 "prompt"
  let createdBy ← r.createdBy.asText 3 "created_by"
  let notes ← r.notes.asOption (Cell.asText 4 "notes")
  let createdAt ← r.createdAt.asText 5 "created_at"
  .ok ⟨promptId, projectId, prompt, createdBy, notes, createdAt⟩

/-- Reads the texts of a prompt. -/
def TypedPrompt.decode (p : TypedPrompt) : Except Failure CustodianPrompt := do
  let promptId ← readUuid p.promptId
  let projectId ← readOption readUuid p.projectId
  let createdAt ← readInstant p.createdAt
  .ok ⟨promptId, projectId, p.prompt, p.createdBy, p.notes, createdAt⟩

/-- Reads a row. -/
def PromptRow.decode (r : PromptRow) : Except Failure CustodianPrompt := do
  let typed ← r.typed
  typed.decode

end FossilRecord.Store
