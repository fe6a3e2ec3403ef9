import FossilRecord.Command.Basic

/-!
# How the commands are used

For each command the values that it takes in order and the options that it knows, and the texts that
explain them.
-/

namespace FossilRecord.Command

/-- What a value must be. -/
inductive ValueKind where
  | text
  /-- A text that is not empty. -/
  | path
  | status
deriving DecidableEq, Repr

/-- A value that a command takes in its place. -/
structure Positional where
  name : String
  kind : ValueKind
  about : String
deriving DecidableEq, Repr

/-- An option; without a value it is a switch. -/
structure Opt where
  long : String
  short? : Option Char
  /-- The name and kind of its value. -/
  value? : Option (String × ValueKind)
  /-- Whether it may be given more than once. -/
  repeats : Bool
  default? : Option String
  about : String
deriving DecidableEq, Repr

/-- How a command is used. -/
structure Usage where
  name : String
  about : String
  values : List Positional
  options : List Opt
deriving DecidableEq, Repr

/-- The name of the program. -/
def programName : String := "custodian"

/-- The name of the program and its version. -/
def versionText : String := programName ++ " 0.1.0"

/-- What the program is. -/
def programAbout : String := "Versioned project knowledge store"

/-- The option that names the file with the settings. -/
def configOption : Opt where
  long := "config"
  short? := some 'c'
  value? := some ("CONFIG", .path)
  repeats := false
  default? := some "custodian.toml"
  about := "Path to the TOML configuration file"

/-- An option with a text that may be given once. -/
def textOption (long valueName about : String) (default? : Option String) : Opt :=
  ⟨long, none, some (valueName, .text), false, default?, about⟩

/-- The commands. -/
def usages : List Usage :=
  [{ name := "serve"
     about := "Serve the JSON query API over HTTP"
     values := []
     options := [] },
   { name := "register"
     about := "Register a project, or update the path and stack of an existing one"
     values := [⟨"NAME", .text, ""⟩, ⟨"PATH", .path, ""⟩]
     options := [textOption "stack" "STACK" "" (some "")] },
   { name := "status"
     about := "Mark a project active or inactive"
     values := [⟨"NAME", .text, ""⟩, ⟨"STATUS", .status, ""⟩]
     options := [] },
   { name := "ingest"
     about := "Store synthesis output as the next fossil of a project"
     values :=
       [⟨"PROJECT", .text, ""⟩,
        ⟨"INPUT", .path, "File holding the raw output, or `-` for stdin"⟩]
     options :=
       [textOption "prompt-used" "PROMPT_USED" "Instruction text that produced the output" none] },
   { name := "scan"
     about := "Extract symbols from a directory and print them as JSON"
     values := [⟨"ROOT", .path, ""⟩]
     options :=
       [⟨"ext", none, some ("EXTENSIONS", .text), true, none,
         "Only scan files with these extensions (e.g. `.py`)"⟩] },
   { name := "lookup"
     about := "Find symbols in a project's current source"
     values := [⟨"PROJECT", .text, ""⟩, ⟨"SYMBOL", .text, ""⟩]
     options := [⟨"exact", none, none, false, none, ""⟩] },
   { name := "analysis"
     about := "Print the analysis corpus for one project or all active projects"
     values := []
     options := [textOption "project" "PROJECT" "" none] },
   { name := "refine-context"
     about := "Print the prompt-refinement corpus"
     values := []
     options := [] },
   { name := "insights"
     about := "Store analysis output as insights"
     values := [⟨"INPUT", .path, "File holding the raw output, or `-` for stdin"⟩]
     options := [textOption "project" "PROJECT" "" none, textOption "model" "MODEL" "" none] },
   { name := "prompt"
     about := "Record a new custodian prompt"
     values := [⟨"INPUT", .path, "File holding the prompt text, or `-` for stdin"⟩]
     options :=
       [textOption "project" "PROJECT" "Scope the prompt to one project; global otherwise" none,
        textOption "created-by" "CREATED_BY" "" (some "cli"),
        textOption "notes" "NOTES" "" none] }]

/-- How the command with a name is used. -/
def usageOf? (name : String) : Option Usage :=
  usages.find? (·.name = name)

/-- A value as a usage line names it. -/
def Positional.label (p : Positional) : String :=
  "<" ++ p.name ++ ">"

/-- An option as a message names it. -/
def Opt.label (o : Opt) : String :=
  match o.value? with
  | some (name, _) => "--" ++ o.long ++ " <" ++ name ++ ">"
  | none => "--" ++ o.long

/-! ## Usage lines -/

/-- The usage line of the program. -/
def programLine : String := "Usage: " ++ programName ++ " [OPTIONS] <COMMAND>"

/-- The usage line of a command. -/
def Usage.line (u : Usage) : String :=
  "Usage: " ++ programName ++ " " ++ u.name ++ (if u.options.isEmpty then "" else " [OPTIONS]") ++
    String.join (u.values.map fun p => " " ++ p.label)

/-! ## Help -/

/-- Rows of two columns, the second of which is aligned. -/
def columns (rows : List (String × String)) : String :=
  let width := (rows.map fun r => r.1.length).foldl max 0
  String.join (rows.map fun (left, right) =>
    "  " ++ left ++ String.ofList (List.replicate (width - left.length + 2) ' ') ++ right ++ "\n")

/-- What is said about an option. -/
def Opt.aboutText (o : Opt) : String :=
  match o.default? with
  | none => o.about
  | some value => (if o.about = "" then "" else o.about ++ " ") ++ "[default: " ++ value ++ "]"

/-- The row of an option. -/
def Opt.row (o : Opt) : String × String :=
  let short :=
    match o.short? with
    | some c => String.ofList ['-', c, ',', ' ']
    | none => "    "
  (short ++ o.label, o.aboutText)

/-- The row of the option that asks for help. -/
def helpRow : String × String := ("-h, --help", "Print help")

/-- The row of the option that asks for the version. -/
def versionRow : String × String := ("-V, --version", "Print version")

/-- What is said about the command that asks for help. -/
def helpAbout : String := "Print this message or the help of the given subcommand(s)"

/-- The help of the program. -/
def programHelp : String :=
  programAbout ++ "\n\n" ++ programLine ++ "\n\nCommands:\n" ++
    columns ((usages.map fun u => (u.name, u.about)) ++ [("help", helpAbout)]) ++ "\nOptions:\n" ++
    columns [configOption.row, helpRow, versionRow]

/-- The help of a command. -/
def Usage.help (u : Usage) : String :=
  u.about ++ "\n\n" ++ u.line ++ "\n\n" ++
    (if u.values.isEmpty then ""
    else "Arguments:\n" ++ columns (u.values.map fun p => (p.label, p.about)) ++ "\n") ++
    "Options:\n" ++ columns (u.options.map Opt.row ++ [helpRow])

/-- The help of the command that asks for help. -/
def helpHelp : String :=
  helpAbout ++ "\n\nUsage: " ++ programName ++ " help [COMMAND]...\n\nArguments:\n" ++
    columns [("[COMMAND]...", "Print help for the subcommand(s)")]

end FossilRecord.Command
