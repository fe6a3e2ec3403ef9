import FossilRecord.Store.Log
import FossilRecord.Store.Prompts

/-!
# Texts for analysis

Two texts that are handed to whoever looks for patterns: the corpus, with a section for each project
and what the query log tells, and the context for refining the global prompt.
-/

namespace FossilRecord

namespace Corpus

/-- The number of characters that each text of a fossil may take. -/
def fieldBudget : Nat := 500

/-- The number of counts of tools and projects. -/
def usageRows : Nat := 30

/-- The number of the latest questions. -/
def recentRows : Nat := 50

/-- The number of counts of tools and parameters. -/
def paramRows : Nat := 50

/-- The number of the latest lookups of symbols. -/
def lookupRows : Nat := 30

/-- A line. -/
def line (s : String) : String := s ++ "\n"

/-- A line with a text of a fossil, unless that is empty. -/
def optionalLine (label text : String) : String :=
  if text = "" then "" else line (label ++ ": " ++ Text.truncate text fieldBudget)

/-- The part of a section about one fossil. -/
def fossilPart (f : Fossil) : String :=
  line s!"\n--- Fossil v{f.version} ({f.createdAt.toOffset}) ---" ++
    line ("Summary: " ++ Text.truncate f.summary fieldBudget) ++
    optionalLine "Architecture" f.architecture ++
    optionalLine "Known issues" f.knownIssues ++
    optionalLine "Changes" f.recentChanges ++
    line s!"Total files: {f.fileTree.length}, Total lines: {totalLines f.fileTree}"

/-- The line with the number of symbols of each type. -/
def tallyLine (counts : List (SymbolType × Nat)) : String :=
  if counts.isEmpty then ""
  else
    line ("Latest symbols: " ++
      ", ".intercalate (counts.map fun c => s!"{c.1.label}: {c.2}"))

/-- The section of a project with its fossils, oldest first, and the counts of the latest one. -/
def section_ (p : Project) (history : List Fossil) (counts : List (SymbolType × Nat)) : String :=
  line s!"\n=== PROJECT: {p.name} ===" ++ line ("Path: " ++ p.path) ++
    line ("Stack: " ++ p.stack) ++
    if history.isEmpty then ""
    else
      line s!"\nFossil history ({history.length} versions):" ++
        String.join (history.map fossilPart) ++ tallyLine counts

/-- The section of a stored project. -/
def sectionOf (s : Store) (p : Project) : Except Store.Failure String := do
  let found ← s.fossilHistory p.name
  let history := found.value?.getD []
  let counts ←
    match history.getLast? with
    | some latest => s.symbolTypeCounts latest.fossilId
    | none => .ok []
  .ok (section_ p history counts)

/-- The part about the use of tools. -/
def usagePart (usage : List QueryUsage) : String :=
  if usage.isEmpty then ""
  else
    line "\n=== QUERY PATTERNS ===" ++
      String.join (usage.map fun u =>
        let project := u.projectName.getD "*"
        line s!"  {u.toolName} on {project}: {u.count} calls")

/-- Parameters as they are shown. -/
def paramsText (params : Option Json) : String :=
  match params with
  | some j => j.compact
  | none => ""

/-- The part about the latest questions. -/
def recentPart (entries : List QueryLogEntry) : String :=
  line s!"\n=== RECENT QUERY DETAILS (last {recentRows}) ===" ++
    String.join (entries.map fun e =>
      line s!"  [{e.timestamp.toOffset}] {e.toolName}({paramsText e.queryParams})")

end Corpus

/-- A corpus, and the project that it is about if that is a single one. -/
structure Corpus where
  text : String
  projectId : Option Uuid
deriving DecidableEq, Repr

namespace Corpus

/-- A corpus as an object. -/
def toJson (c : Corpus) : Json :=
  .object [("corpus", .text c.text), ("project_id", .optText (c.projectId.map toString))]

/-- The corpus of some projects. -/
def ofProjects (s : Store) (projects : List Project) : Except Store.Failure Corpus := do
  let sections ← projects.mapM (sectionOf s)
  let usage ← s.queryUsage usageRows
  let recent ← s.recentQueries none recentRows
  .ok
    { text := String.join sections ++ usagePart usage ++ recentPart recent
      projectId :=
        match projects with
        | [only] => some only.projectId
        | _ => none }

/-- The corpus of a project, or of all active ones. -/
def build (s : Store) : Option String → Except Store.Failure (Lookup Corpus)
  | some name => do
      match ← s.findProject name .strict with
      | some p => (ofProjects s [p]).map .found
      | none => .ok (.projectNotFound name)
  | none => do
      let summaries ← s.listProjects
      let active := (summaries.map ProjectSummary.project).filter (·.status = .active)
      (ofProjects s active).map .found

/-- The context for refining the global prompt, if there is one. -/
def refinement (s : Store) : Except Store.Failure (Option String) := do
  match ← s.latestPrompt none with
  | none => .ok none
  | some current => do
      let usage ← s.paramUsage paramRows
      let lookups ← s.recentQueries (some "lookup_symbol") lookupRows
      .ok (some
        (line ("Current custodian prompt:\n" ++ current.prompt ++ "\n") ++
          line "Query patterns:" ++
          String.join (usage.map fun u =>
            let params := u.queryParams.getD ""
            line s!"  {u.toolName}: {params} (x{u.count})") ++
          line "\nSymbol searches:" ++
          String.join (lookups.map fun e => line ("  " ++ paramsText e.queryParams))))

end Corpus

end FossilRecord
