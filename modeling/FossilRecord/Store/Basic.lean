import FossilRecord.Lookup
import FossilRecord.Store.Row
import FossilRecord.Text.Case
import FossilRecord.Text.Search

/-!
# The store and its projects

The store is six tables of rows in the order in which they were written.  A write is given what it
takes from outside, and gives its result and the store that it leaves; it may fail and still have
changed the store, when what it wrote cannot be read back.
-/

namespace FossilRecord

open Store (Cell Failure TableFault ProjectRow TypedProject)

/-- The tables of a store, and the constraints beyond its own that it was given. -/
structure Store where
  projects : List ProjectRow
  fossils : List Store.FossilRow
  symbols : List Store.SymbolRow
  /-- The query log, unless its table was dropped. -/
  queryLog : Option (List Store.QueryRow)
  insights : List Store.InsightRow
  prompts : List Store.PromptRow
  /-- Whether no two fossils may have the same summary. -/
  uniqueSummaries : Bool
  /-- Whether no two symbols may have the same name. -/
  uniqueSymbolNames : Bool
deriving DecidableEq, Repr

/-- What a write takes from outside: identifiers drawn at random, and the time.  A write whose
identifier some row of the table has already is refused. -/
structure Fresh where
  id : Nat → Uuid
  now : Instant

/-- The identifiers that are left when `count` of them are used. -/
def Fresh.after (count : Nat) (fresh : Fresh) : Fresh :=
  { fresh with id := fun k => fresh.id (k + count) }

namespace Store

/-- The result of a write, and the store that it leaves. -/
abbrev Change (α : Type) := Except Failure α × Store

/-- A store without rows. -/
def empty : Store where
  projects := []
  fossils := []
  symbols := []
  queryLog := some []
  insights := []
  prompts := []
  uniqueSummaries := false
  uniqueSymbolNames := false

/-! ## Finding a project -/

/-- Whether a lookup may give a project. -/
def isVisible (mode : ProjectLookup) (r : ProjectRow) : Bool :=
  match mode with
  | .strict => true
  | .fuzzy => r.status = .text "active"

/-- Whether a test holds of the text of a value. -/
def textSatisfies (test : String → Bool) (c : Cell) : Bool :=
  match c.text? with
  | some s => test s
  | none => false

/-- The number of characters of a name; one with number zero ends it. -/
def nameLength (name : String) : Nat :=
  (name.toList.takeWhile (· ≠ '\x00')).length

/-- The length of a name and the name, by which the shortest name comes first. -/
def lengthAndName (r : ProjectRow) : List Cell :=
  [match r.name with | .text s => .integer (nameLength s) | _ => .null, r.name]

/-- The row that a name leads to: the one with exactly that name, else the first one with that name
in any case, else, if the lookup is fuzzy, the one with the shortest name that contains it in any
case.  Case here is that of the letters A to Z. -/
def projectRow? (s : Store) (name : String) (mode : ProjectLookup) : Option ProjectRow :=
  let rows := s.projects.filter (isVisible mode)
  let folded := Text.foldAscii name
  let exact := rows.find? fun r => r.name = .text name
  let anyCase :=
    (orderBy (fun r => [r.name])
      (rows.filter fun r => textSatisfies (fun n => Text.foldAscii n = folded) r.name)).head?
  let part :=
    match mode with
    | .strict => none
    | .fuzzy =>
        (orderBy lengthAndName
          (rows.filter fun r =>
            textSatisfies (fun n => Text.contains (Text.foldAscii n) folded) r.name)).head?
  exact.orElse fun _ => anyCase.orElse fun _ => part

/-- The project that a name leads to; blanks around the name do not count. -/
def findProject (s : Store) (name : String) (mode : ProjectLookup) :
    Except Failure (Option Project) :=
  let name := Text.trim name
  if name = "" then .ok none
  else
    match s.projectRow? name mode with
    | some row => row.decode.map some
    | none => .ok none

/-- Goes on with the project that a name strictly leads to, or says that there is none. -/
def withProject {α : Type} (s : Store) (name : String)
    (go : Project → Except Failure (Lookup α)) : Except Failure (Lookup α) := do
  match ← s.findProject name .strict with
  | some project => go project
  | none => .ok (.projectNotFound name)

/-! ## Registering projects -/

/-- Changes the rows of an identifier. -/
def alterProjects (s : Store) (id : Uuid) (change : ProjectRow → ProjectRow) : Store :=
  { s with
    projects := s.projects.map fun r => if r.projectId = Cell.uuid id then change r else r }

/-- The row of a project that is registered for the first time. -/
def newProjectRow (fresh : Fresh) (input : NewProject) : ProjectRow where
  projectId := Cell.uuid (fresh.id 0)
  name := .text input.name
  path := .text input.path
  stack := .text input.stack
  status := .text ProjectStatus.active.label
  lastIndexed := .null

/-- Registers a project, or gives the project of that name another path and stack. -/
def registerProject (s : Store) (fresh : Fresh) (input : NewProject) : Change Project :=
  match s.projects.find? fun r => r.name = .text input.name with
  | some old =>
      let row := { old with path := .text input.path, stack := .text input.stack }
      (row.decode,
        { s with projects := s.projects.map fun r => if r.name = old.name then row else r })
  | none =>
      let row := newProjectRow fresh input
      if s.projects.any (·.projectId = row.projectId) then
        (.error (.table (.duplicateKey "projects.project_id")), s)
      else (row.decode, { s with projects := s.projects ++ [row] })

/-- Makes a project active or inactive. -/
def setProjectStatus (s : Store) (name : String) (status : ProjectStatus) :
    Change (Lookup Project) :=
  match s.findProject name .strict with
  | .error failure => (.error failure, s)
  | .ok none => (.ok (.projectNotFound name), s)
  | .ok (some project) =>
      (.ok (.found { project with status := status }),
        s.alterProjects project.projectId fun r => { r with status := .text status.label })

/-! ## Listing projects -/

/-- The fossils of a project by their stored identifier, those with the highest version first. -/
def fossilsOf (s : Store) (projectId : Cell) : List FossilRow :=
  newestFirst FossilRow.version (s.fossils.filter fun f => f.projectId = projectId)

/-- The number of symbols of the fossil with the highest version. -/
def latestSymbolCount (s : Store) (projectId : Cell) : Nat :=
  match s.fossilsOf projectId with
  | [] => 0
  | f :: _ => (s.symbols.filter fun r => r.fossilId = f.fossilId).length

/-- Every project in the order of the names, with the number of its fossils and of the symbols of
the latest one. -/
def listProjects (s : Store) : Except Failure (List ProjectSummary) := do
  let rows := orderBy (fun r => [r.name]) s.projects
  let typed ← rows.mapM fun r => do
    let t ← r.typed
    .ok (t, (s.fossilsOf r.projectId).length, s.latestSymbolCount r.projectId)
  typed.mapM fun (t, fossils, symbols) => do
    let project ← t.decode
    .ok ⟨project, fossils, symbols⟩

end Store

end FossilRecord
