import FossilRecord.Command.Arguments
import FossilRecord.Config.Settings
import FossilRecord.Corpus
import FossilRecord.Source.Scan
import FossilRecord.Store.Ingest
import FossilRecord.Store.Opening

/-!
# Running commands

A run is a function of the arguments, the files, the environment and the input; it gives a report
and the files that it leaves.  Only the file of the store is ever changed.
-/

namespace FossilRecord.Command

/-- What a run is surrounded by. -/
structure Environment where
  disk : Disk
  /-- The working folder. -/
  folder : Disk.Place
  env : List (String × String)
  input : List UInt8

/-- What a command prints, or why it failed. -/
abbrev Outcome := Except Complaint String

/-! ## Complaints -/

/-- What lies behind a failure of the store. -/
def failureCauses : Store.Failure → List String
  | .unknownStatus word => [ProjectStatus.unknown word]
  | .table fault => ["Rusqlite(\"" ++ fault.message ++ "\")", fault.message]
  | .json message => [message]
  | .uuid flaw => [flaw.message]
  | .instant flaw => [flaw.message]
  | .versionTaken _ _ => []

/-- The complaint of a failure of the store. -/
def ofFailure (f : Store.Failure) : Complaint := ⟨f.message, failureCauses f⟩

/-- The complaint of a project that is not there. -/
def noProject (name : String) : Complaint := .plain s!"project '{name}' not found"

/-- The complaint of a store that cannot be opened. -/
def ofOpenFlaw (path : String) (f : Store.OpenFlaw) : Complaint where
  message := "failed to open store at " ++ Text.quoted path
  causes :=
    let word := "Rusqlite(" ++ Text.quoted f.message ++ ")"
    ["database error: " ++ word, word, f.message, f.cause]

/-- The complaint of settings that cannot be read. -/
def ofSettingsFlaw : SettingsFlaw → Complaint
  | .unreadable report => ⟨"failed to read config file", [report]⟩
  | .mismatch report => ⟨"failed to deserialise CustodianConfig", [report]⟩

/-- Takes the result of reading the store. -/
def fromStore {α : Type} : Except Store.Failure α → Except Complaint α
  | .ok x => .ok x
  | .error f => .error (ofFailure f)

/-! ## Inputs -/

/-- What lies behind an input that is no text. -/
def noText : String := "stream did not contain valid UTF-8"

/-- Reads octets as a text. -/
def textOf (what : String) (octets : List UInt8) : Except Complaint String :=
  match Text.strict octets with
  | .ok text => .ok text
  | .error _ => .error ⟨"failed to read " ++ what, [noText]⟩

/-- Whether a path stands for the standard input. -/
def isStandardInput (path : String) : Bool :=
  !Path.isAbsolute path && Path.parts path == ["-"]

/-- Reads the file that a path leads to, or the standard input. -/
def readInput (e : Environment) (path : String) : Except Complaint String :=
  if isStandardInput path then textOf "stdin" e.input
  else
    match e.disk.read e.folder path with
    | .ok octets => textOf path octets
    | .error flaw => .error ⟨"failed to read " ++ path, [flaw.message]⟩

/-- A value, indented and with a line end. -/
def printed (j : Json) : String := j.pretty ++ "\n"

/-- The project that a name leads to. -/
def requireProject (s : Store) (name : String) (mode : ProjectLookup) :
    Except Complaint Project := do
  match ← fromStore (s.findProject name mode) with
  | some project => .ok project
  | none => .error (noProject name)

/-! ## Commands -/

/-- Registers a project under the absolute form of its path. -/
def registerProject (e : Environment) (s : Store) (fresh : Fresh) (name path stack : String) :
    Outcome × Store :=
  let absolute := Path.absolute ("/" ++ "/".intercalate e.folder) path
  let (result, s) := s.registerProject fresh ⟨name, absolute, stack⟩
  ((fromStore result).map fun project => printed project.toJson, s)

/-- Makes a project active or inactive. -/
def setStatus (s : Store) (name : String) (status : ProjectStatus) : Outcome × Store :=
  match s.setProjectStatus name status with
  | (.error f, s) => (.error (ofFailure f), s)
  | (.ok found, s) =>
      match found.missing? with
      | some missing => (.error (.plain missing), s)
      | none => (.ok (name ++ ": " ++ status.label ++ "\n"), s)

/-- Stores a text as the next fossil of a project, or as an insight if it is no payload. -/
def ingestText (s : Store) (fresh : Fresh) (project raw : String) (promptUsed : Option String) :
    Outcome × Store :=
  match s.ingest fresh project raw promptUsed with
  | (.error f, s) => (.error (ofFailure f), s)
  | (.ok (.stored receipt), s) => (.ok (printed (.object receipt.toFields)), s)
  | (.ok (.projectNotFound name), s) => (.error (noProject name), s)
  | (.ok (.malformed reason), s) =>
      match s.keepRawFossil fresh project raw with
      | (.error f, s) => (.error (ofFailure f), s)
      | (.ok none, s) => (.error (noProject project), s)
      | (.ok (some _), s) =>
          (.error (.plain
            (s!"malformed fossil output ({reason}); raw text kept as a {Insight.rawFossil}" ++
              " insight")), s)

/-- The symbols below a folder. -/
def scanFolder (e : Environment) (root : String) (extensions : List String) : Outcome :=
  let wanted := if extensions.isEmpty then none else some extensions
  match Source.scan e.disk e.folder root wanted with
  | .error f => .error (.plain f.message)
  | .ok symbols => .ok (printed (.list (symbols.map Source.LiveSymbol.toJson)))

/-- The symbols in the sources of a project, as they are now. -/
def lookupSymbol (e : Environment) (s : Store) (project symbol : String) (exact : Bool) :
    Outcome := do
  let found ← requireProject s project .fuzzy
  match Source.findSymbol e.disk e.folder found.path symbol exact with
  | .error f => .error (.plain f.message)
  | .ok symbols => .ok (printed (.list (symbols.map Source.LiveSymbol.toJson)))

/-- The corpus of a project or of all active ones. -/
def analysisText (s : Store) (project : Option String) : Outcome := do
  let found ← fromStore (Corpus.build s project)
  match found.missing? with
  | some missing => .error (.plain missing)
  | none => .ok ((found.value?.map Corpus.text).getD "")

/-- The context for refining the global prompt. -/
def refinementText (s : Store) : Outcome := do
  match ← fromStore (Corpus.refinement s) with
  | some text => .ok text
  | none => .error (.plain "no custodian prompt recorded yet")

/-- The identifier of a project that is named. -/
def projectId (s : Store) : Option String → Except Complaint (Option Uuid)
  | none => .ok none
  | some name => (requireProject s name .strict).map fun p => some p.projectId

/-- Records the insights that a text gives. -/
def recordInsights (s : Store) (fresh : Fresh) (raw : String) (project model : Option String) :
    Outcome × Store :=
  match projectId s project with
  | .error c => (.error c, s)
  | .ok id =>
      match s.recordInsights fresh (NewInsight.ofAnalysis raw id project model) with
      | (.error f, s) => (.error (ofFailure f), s)
      | (.ok _, s) => (.ok "", s)

/-- Records a prompt. -/
def recordPrompt (s : Store) (fresh : Fresh) (raw : String) (project : Option String)
    (createdBy : String) (notes : Option String) : Outcome × Store :=
  let text := Text.trim raw
  if text = "" then (.error (.plain "prompt text is empty"), s)
  else
    match projectId s project with
    | .error c => (.error c, s)
    | .ok id =>
        let (result, s) := s.recordPrompt fresh ⟨id, text, createdBy, notes⟩
        ((fromStore result).map fun p => printed p.toJson, s)

/-- Goes on with an input, if it can be read. -/
def withInput (e : Environment) (s : Store) (path : String) (go : String → Outcome × Store) :
    Outcome × Store :=
  match readInput e path with
  | .ok text => go text
  | .error c => (.error c, s)

/-- Carries out a command on a store. -/
def perform (c : Command) (e : Environment) (s : Store) (fresh : Fresh) : Outcome × Store :=
  match c with
  | .serve => (.error (.plain "this program answers requests only in process"), s)
  | .register name path stack => registerProject e s fresh name path stack
  | .status name word => setStatus s name word
  | .ingest project input promptUsed =>
      withInput e s input fun raw => ingestText s fresh project raw promptUsed
  | .scan root extensions => (scanFolder e root extensions, s)
  | .lookup project symbol exact => (lookupSymbol e s project symbol exact, s)
  | .analysis project => (analysisText s project, s)
  | .refineContext => (refinementText s, s)
  | .insights input project model =>
      withInput e s input fun raw => recordInsights s fresh raw project model
  | .prompt input project createdBy notes =>
      withInput e s input fun raw => recordPrompt s fresh raw project createdBy notes

/-! ## What a run looks at -/

/-- The paths that the settings may be read from. -/
def Invocation.settingsPaths (i : Invocation) : List String :=
  (Settings.candidates i.config).map (·.1)

/-- The paths of the files that a command reads, beside the store. -/
def inputPaths : Command → List String
  | .ingest _ input _ => [input]
  | .insights input _ _ => [input]
  | .prompt input _ _ _ => [input]
  | _ => []

/-- The folder whose sources a command looks at, if it does. -/
def sourceFolder? (c : Command) (e : Environment) (settings : Settings) : Option String :=
  match c with
  | .scan root _ => some root
  | .lookup project _ _ =>
      match Store.ofPath e.disk e.folder settings.storePath with
      | .ok opened =>
          match opened.store.findProject project .fuzzy with
          | .ok found => found.map Project.path
          | .error _ => none
      | .error _ => none
  | _ => none

/-! ## Runs -/

/-- The report of an outcome. -/
def Report.ofOutcome : Outcome → Report
  | .ok output => .done output
  | .error c => .failed c

/-- Carries out a command on the store that the settings name; a scan needs no store. -/
def performWith (c : Command) (e : Environment) (settings : Settings) (fresh : Fresh) :
    Report × Disk :=
  match c with
  | .scan root extensions => (.ofOutcome (scanFolder e root extensions), e.disk)
  | c =>
      match Store.ofPath e.disk e.folder settings.storePath with
      | .error f => (.failed (ofOpenFlaw settings.storePath f), e.disk)
      | .ok opened =>
          let e := { e with disk := Store.keep e.disk opened.place? opened.store }
          let (outcome, s) := c.perform e opened.store fresh
          (.ofOutcome outcome, Store.keep e.disk opened.place? s)

/-- Runs the program. -/
def run (e : Environment) (fresh : Fresh) (arguments : List String) : Report × Disk :=
  match Invocation.ofArguments arguments with
  | .error stop => (stop.report, e.disk)
  | .ok invocation =>
      match Settings.load e.disk e.folder e.env invocation.config with
      | .error f => (.failed (ofSettingsFlaw f), e.disk)
      | .ok settings => performWith invocation.command e settings fresh

end FossilRecord.Command
