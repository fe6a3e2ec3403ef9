import FossilRecord.Corpus
import FossilRecord.Related
import FossilRecord.Source.Scan
import FossilRecord.Store.Ingest

/-!
# The tools that are asked over HTTP

Each tool reads the store, or adds to it, and every question to a tool is logged under its name.
Projects are looked up fuzzily, except where something is stored or analysed.
-/

namespace FossilRecord.Http

open Store (Failure)

/-- Why a question is not answered. -/
inductive Refusal where
  | notFound (message : String)
  | badRequest (message : String)
  | unprocessable (message : String)
  | failed (failure : Failure)

/-- A result or a refusal. -/
abbrev Outcome (α : Type) := Except Refusal α

/-- The files that relative paths and project paths lead to. -/
structure Surroundings where
  disk : Disk
  folder : Disk.Place

/-- The words for a project that is not there. -/
def noProject (name : String) : Refusal :=
  .notFound s!"project '{name}' not found"

/-- Takes the result of reading the store. -/
def fromStore {α : Type} : Except Failure α → Outcome α
  | .ok x => .ok x
  | .error failure => .error (.failed failure)

/-- Takes an answer about a project; a missing project or fossil is a refusal. -/
def found {α : Type} (l : Lookup α) : Outcome α :=
  match l with
  | .found value => .ok value
  | other => .error (.notFound (other.missing?.getD ""))

/-- The active project that a name leads to fuzzily. -/
def resolveProject (s : Store) (name : String) : Outcome Project := do
  match ← fromStore (s.findProject name .fuzzy) with
  | some project => .ok project
  | none => .error (noProject name)

/-! ## Projects and fossils -/

/-- All projects. -/
def listProjects (s : Store) : Outcome Json := do
  let summaries ← fromStore s.listProjects
  .ok (.list (summaries.map ProjectSummary.toJson))

/-- The latest fossil of a project, with its file tree and symbols if they are wanted. -/
def latestFossil (s : Store) (name : String) (withTree withSymbols : Bool) : Outcome Json := do
  let project ← resolveProject s name
  let fossil ← found (← fromStore (s.latestFossil project.name))
  let symbols ←
    if withSymbols then fromStore (s.symbolsForFossil fossil.fossilId) else .ok none
  let tree : List (String × Json) :=
    if withTree then [("file_tree", .list (fossil.fileTree.map FileTreeEntry.toJson))] else []
  let listed : List (String × Json) :=
    match symbols with
    | some symbols => [("symbols", .list (symbols.map Symbol.toJson))]
    | none => []
  .ok (.object
    ([("project", .text project.name), ("path", .text project.path), ("stack", .text project.stack),
      ("fossil_version", .int fossil.version), ("fossil_date", .text fossil.createdAt.toZulu),
      ("summary", .text fossil.summary), ("architecture", .text fossil.architecture),
      ("known_issues", .text fossil.knownIssues),
      ("dependencies", .list (fossil.dependencies.map Dependency.toJson))] ++ tree ++ listed))

/-- All fossils of a project. -/
def fossilHistory (s : Store) (name : String) : Outcome Json := do
  let project ← resolveProject s name
  let fossils ← found (← fromStore (s.fossilHistory project.name))
  .ok (.list (fossils.map Fossil.toJson))

/-- What the latest fossil of a project says has changed. -/
def recentChanges (s : Store) (name : String) : Outcome Json := do
  let project ← resolveProject s name
  let fossil ← found (← fromStore (s.latestFossil project.name))
  .ok (.object
    [("project", .text project.name), ("fossil_version", .int fossil.version),
      ("fossil_date", .text fossil.createdAt.toZulu),
      ("recent_changes", .text fossil.recentChanges)])

/-- Stores a text as the next fossil of a project, or as an insight if it is no payload. -/
def storeFossil (s : Store) (fresh : Fresh) (name body : String) (promptUsed : Option String) :
    Outcome Json × Store :=
  match s.ingest fresh name body promptUsed with
  | (.error failure, s) => (.error (.failed failure), s)
  | (.ok (.stored receipt), s) => (.ok (.object receipt.toFields), s)
  | (.ok (.projectNotFound name), s) => (.error (noProject name), s)
  | (.ok (.malformed reason), s) =>
      match s.keepRawFossil fresh name body with
      | (.error failure, s) => (.error (.failed failure), s)
      | (.ok none, s) => (.error (noProject name), s)
      | (.ok (some _), s) => (.error (.unprocessable reason), s)

/-! ## Symbols -/

/-- The number of symbols that a lookup in the sources gives. -/
def lookupLimit : Nat := 50

/-- The number of symbols that a search of the latest fossil gives. -/
def contextLimit : Nat := 20

/-- The symbols in the sources of a project, as they are now. -/
def lookupSymbol (s : Store) (around : Surroundings) (name symbol : String) (exact : Bool) :
    Outcome Json := do
  if Text.isBlankText symbol then .error (.badRequest "symbol must not be empty")
  else
    let project ← resolveProject s name
    match Source.findSymbol around.disk around.folder project.path symbol exact with
    | .error _ => .error (.notFound s!"project path not found: {project.path}")
    | .ok symbols =>
        let shown := symbols.take lookupLimit
        let note : List (String × Json) :=
          if lookupLimit < symbols.length then
            [("note", .text
              s!"Results truncated to {lookupLimit}. Use exact=true for precise matches.")]
          else []
        .ok (.object
          ([("matches", .list (shown.map Source.LiveSymbol.toJson)),
              ("count", .nat shown.length)] ++
            note))

/-- The symbols of the latest fossil of a project. -/
def symbolContext (s : Store) (name symbol : String) : Outcome Json := do
  let project ← resolveProject s name
  let symbols ← found (← fromStore (s.searchSymbols project.name symbol))
  .ok (.list ((symbols.take contextLimit).map Symbol.toJson))

/-- The files related to symbols of a project. -/
def relatedFiles (s : Store) (name symbol : String) : Outcome Json := do
  let project ← resolveProject s name
  let files ← found (← fromStore (RelatedFiles.resolve s project.name symbol))
  .ok files.toJson

/-! ## Analysis -/

/-- The number of insights that are given. -/
def insightLimit : Nat := 20

/-- The latest insights: those of a project beside the global ones, or the global ones alone. -/
def insights (s : Store) (name insightType : Option String) : Outcome Json := do
  let projectId ←
    match name with
    | some name => (resolveProject s name).map fun p => some p.projectId
    | none => .ok none
  let found ← fromStore (s.listInsights ⟨projectId, insightType, some insightLimit⟩)
  .ok (.list (found.map Insight.toJson))

/-- The corpus of a project or of all active ones. -/
def corpus (s : Store) (name : Option String) : Outcome String := do
  let corpus ← found (← fromStore (Corpus.build s name))
  .ok corpus.text

end FossilRecord.Http
