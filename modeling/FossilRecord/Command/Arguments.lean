import FossilRecord.Command.Usage

/-!
# Reading arguments

Arguments are read from left to right.  A value that was given is checked when the next one is met
or none is left, so that a word that means nothing is reported before the value in front of it.
-/

namespace FossilRecord.Command

/-- Why the reading of arguments ends without a command. -/
inductive Stop where
  | help (text : String)
  | version
  /-- The arguments make no command; the usage line is that of the command that was begun. -/
  | misuse (message usage : String)
  /-- There is nothing but the name of the program. -/
  | nothing
deriving DecidableEq, Repr

/-- The report of a stop. -/
def Stop.report : Stop → Report
  | .help text => .done text
  | .version => .done (versionText ++ "\n")
  | .misuse message usage =>
      .misused ("error: " ++ message ++ "\n\n" ++ usage ++
        "\n\nFor more information, try '--help'.\n")
  | .nothing => .misused programHelp

/-- The values and options that were read; a switch is an option with an empty text. -/
structure Gathered where
  values : List String
  options : List (String × String)
deriving DecidableEq, Repr

namespace Gathered

/-- Nothing read. -/
def empty : Gathered := ⟨[], []⟩

/-- The text of an option. -/
def option? (g : Gathered) (long : String) : Option String :=
  (g.options.find? (·.1 = long)).map (·.2)

/-- The texts of an option that may be given more than once. -/
def all (g : Gathered) (long : String) : List String :=
  (g.options.filter (·.1 = long)).map (·.2)

end Gathered

/-- What was met last and is not checked yet. -/
inductive Pending where
  | nothing
  | value (p : Positional) (text : String)
  /-- An option that still waits for its value. -/
  | waiting (o : Opt)
  | option (o : Opt) (text : String)
deriving DecidableEq, Repr

/-- A command line, or a part of it, that is being read. -/
structure Shape where
  values : List Positional
  options : List Opt
  usage : String
  help : String
  /-- Whether the version can be asked for. -/
  hasVersion : Bool

/-- A misuse. -/
def Shape.misuse {α : Type} (sh : Shape) (message : String) : Except Stop α :=
  .error (.misuse message sh.usage)

/-- The message for a value that is not there. -/
def valueMissing (label : String) : String :=
  s!"a value is required for '{label}' but none was supplied"

/-- The message for a word that means nothing. -/
def unexpected (word : String) : String :=
  s!"unexpected argument '{word}' found"

/-- The message for a word that is no command. -/
def unrecognized (word : String) : String :=
  s!"unrecognized subcommand '{word}'"

/-- What is wrong with a value. -/
def ValueKind.refusal? (kind : ValueKind) (label text : String) : Option String :=
  match kind with
  | .text => none
  | .path => if text = "" then some (valueMissing label) else none
  | .status =>
      match ProjectStatus.ofLabel? text with
      | some _ => none
      | none => some (s!"invalid value '{text}' for '{label}': " ++ ProjectStatus.unknown text)

/-- Takes an option that is given in full. -/
def Shape.take (sh : Shape) (g : Gathered) (o : Opt) (text : String) : Except Stop Gathered :=
  if !o.repeats && (g.option? o.long).isSome then
    sh.misuse s!"the argument '{o.label}' cannot be used multiple times"
  else
    match o.value?.bind fun v => v.2.refusal? o.label text with
    | some message => sh.misuse message
    | none => .ok { g with options := g.options ++ [(o.long, text)] }

/-- Checks what was met last. -/
def Shape.settle (sh : Shape) (g : Gathered) : Pending → Except Stop Gathered
  | .nothing => .ok g
  | .value p text =>
      match p.kind.refusal? p.label text with
      | some message => sh.misuse message
      | none => .ok { g with values := g.values ++ [text] }
  | .waiting o => sh.misuse (valueMissing o.label)
  | .option o text => sh.take g o text

/-- Reads an option by its long name, perhaps with a value behind an equals sign. -/
def Shape.readLong (sh : Shape) (g : Gathered) (pending : Pending) (word : List Char) :
    Except Stop (Gathered × Pending) :=
  let name := String.ofList (word.takeWhile (· ≠ '='))
  let attached? :=
    if word.contains '=' then some (String.ofList ((word.dropWhile (· ≠ '=')).drop 1)) else none
  let special? : Option Stop :=
    if name = "help" then some (.help sh.help)
    else if name = "version" && sh.hasVersion then some .version
    else none
  let tooMany (value label : String) : String :=
    s!"unexpected value '{value}' for '{label}' found; no more were expected"
  match special?, sh.options.find? (·.long = name), attached? with
  | some _, _, some value => sh.misuse (tooMany value ("--" ++ name))
  | some stop, _, none => do
      let _ ← sh.settle g pending
      .error stop
  | none, none, _ => sh.misuse (unexpected ("--" ++ name))
  | none, some o, some value =>
      if o.value?.isSome then do
        let g ← sh.settle g pending
        let g ← sh.take g o value
        .ok (g, .nothing)
      else sh.misuse (tooMany value ("--" ++ name))
  | none, some o, none => do
      let g ← sh.settle g pending
      if o.value?.isSome then .ok (g, .waiting o)
      else
        let g ← sh.take g o ""
        .ok (g, .nothing)

/-- Reads options by their letters. -/
def Shape.readShort (sh : Shape) (g : Gathered) (pending : Pending) :
    List Char → Except Stop (Gathered × Pending)
  | [] => .ok (g, pending)
  | c :: rest =>
      match sh.options.find? (·.short? = some c) with
      | some o => do
          let g ← sh.settle g pending
          if o.value?.isNone then
            let g ← sh.take g o ""
            sh.readShort g .nothing rest
          else
            match rest with
            | [] => .ok (g, .waiting o)
            | '=' :: value => do
                let g ← sh.take g o (String.ofList value)
                .ok (g, .nothing)
            | value => do
                let g ← sh.take g o (String.ofList value)
                .ok (g, .nothing)
      | none =>
          if c = 'h' then do
            let _ ← sh.settle g pending
            .error (.help sh.help)
          else if c = 'V' && sh.hasVersion then do
            let _ ← sh.settle g pending
            .error .version
          else sh.misuse (unexpected (String.ofList ['-', c]))

/-- The number of values that were met. -/
def countValues (g : Gathered) : Pending → Nat
  | .value _ _ => g.values.length + 1
  | _ => g.values.length

/-- What a word is, where options are looked for. -/
inductive Word where
  /-- Two hyphens: no option follows. -/
  | endOfOptions
  | long (rest : List Char)
  | short (rest : List Char)
  | plain

/-- What a word is. -/
def Word.of (word : String) : Word :=
  match word.toList with
  | ['-', '-'] => .endOfOptions
  | '-' :: '-' :: rest => .long rest
  | '-' :: c :: rest => .short (c :: rest)
  | _ => .plain

/-- Reads a word that stands for a value. -/
def Shape.readValue (sh : Shape) (g : Gathered) (pending : Pending) (word : String) :
    Except Stop (Gathered × Pending) :=
  match sh.values[countValues g pending]? with
  | some p => do
      let g ← sh.settle g pending
      .ok (g, .value p word)
  | none => sh.misuse (unexpected word)

/-! ## Commands -/

/-- Reads the words behind the name of a command; `open_` says whether options are looked for. -/
def Shape.readWords (sh : Shape) (open_ : Bool) (g : Gathered) (pending : Pending) :
    List String → Except Stop Gathered
  | [] => sh.settle g pending
  | word :: rest =>
      match open_, Word.of word, pending with
      | true, .endOfOptions, _ => sh.readWords false g pending rest
      | true, .long cs, _ => do
          let (g, pending) ← sh.readLong g pending cs
          sh.readWords true g pending rest
      | true, .short cs, _ => do
          let (g, pending) ← sh.readShort g pending cs
          sh.readWords true g pending rest
      | true, .plain, .waiting o => sh.readWords true g (.option o word) rest
      | _, _, _ => do
          let (g, pending) ← sh.readValue g pending word
          sh.readWords open_ g pending rest

/-- The shape of a command. -/
def Usage.shape (u : Usage) : Shape := ⟨u.values, u.options, u.line, u.help, false⟩

/-- The message for values that are not there. -/
def required (missing : List Positional) : String :=
  "the following required arguments were not provided:" ++
    String.join (missing.map fun p => "\n  " ++ p.label)

/-- Reads the words behind the name of a command. -/
def Usage.read (u : Usage) (words : List String) : Except Stop Gathered := do
  let g ← u.shape.readWords true .empty .nothing words
  let missing := u.values.drop g.values.length
  if missing.isEmpty then .ok g else u.shape.misuse (required missing)

/-- The command that a name and what follows it make. -/
def ofGathered? (name : String) (g : Gathered) : Option Command :=
  match name, g.values with
  | "serve", _ => some .serve
  | "register", [name, path] => some (.register name path ((g.option? "stack").getD ""))
  | "status", [name, word] => (ProjectStatus.ofLabel? word).map (.status name)
  | "ingest", [project, input] => some (.ingest project input (g.option? "prompt-used"))
  | "scan", [root] => some (.scan root (g.all "ext"))
  | "lookup", [project, symbol] => some (.lookup project symbol (g.option? "exact").isSome)
  | "analysis", _ => some (.analysis (g.option? "project"))
  | "refine-context", _ => some .refineContext
  | "insights", [input] => some (.insights input (g.option? "project") (g.option? "model"))
  | "prompt", [input] =>
      some (.prompt input (g.option? "project") ((g.option? "created-by").getD "cli")
        (g.option? "notes"))
  | _, _ => none

/-! ## The program -/

/-- The shape of what stands before the name of a command. -/
def programShape : Shape := ⟨[], [configOption], programLine, programHelp, true⟩

/-- What the words behind `help` ask for. -/
def helpStop : List String → Stop
  | [] => .help programHelp
  | name :: rest =>
      let next? : Option String :=
        if name = "help" then some helpHelp else (usageOf? name).map Usage.help
      match next?, rest with
      | none, _ => .misuse (unrecognized name) programLine
      | some text, [] => .help text
      | some _, word :: _ => .misuse (unrecognized word) programLine

/-- The command line that ends with a command. -/
def readCommand (u : Usage) (g : Gathered) (pending : Pending) (words : List String) :
    Except Stop Invocation := do
  let sub ← u.read words
  let g ← programShape.settle g pending
  let config := (g.option? configOption.long).getD (configOption.default?.getD "")
  match ofGathered? u.name sub with
  | some command => .ok ⟨config, command⟩
  | none => programShape.misuse (unrecognized u.name)

/-- Reads the words of the command line up to the name of a command, and that command. -/
def readProgram (open_ : Bool) (g : Gathered) (pending : Pending) :
    List String → Except Stop Invocation
  | [] => do
      let g ← programShape.settle g pending
      if g.options.isEmpty then .error .nothing
      else programShape.misuse s!"'{programName}' requires a subcommand but one was not provided"
  | word :: rest =>
      match open_, Word.of word, pending with
      | true, .endOfOptions, _ => readProgram false g pending rest
      | true, .long cs, _ => do
          let (g, pending) ← programShape.readLong g pending cs
          readProgram true g pending rest
      | true, .short cs, _ => do
          let (g, pending) ← programShape.readShort g pending cs
          readProgram true g pending rest
      | true, .plain, .waiting o => readProgram true g (.option o word) rest
      | true, .plain, _ =>
          match usageOf? word with
          | some u => readCommand u g pending rest
          | none =>
              if word = "help" then .error (helpStop rest)
              else programShape.misuse (unrecognized word)
      | false, _, _ =>
          if (usageOf? word).isSome || word = "help" then programShape.misuse (unexpected word)
          else programShape.misuse (unrecognized word)

/-- Reads arguments. -/
def Invocation.ofArguments (words : List String) : Except Stop Invocation :=
  readProgram true .empty .nothing words

end FossilRecord.Command
