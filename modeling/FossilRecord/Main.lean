import FossilRecord.Command.Run
import Std.Time.DateTime.Timestamp

/-!
# The program

What a run looks at is read into a value, the run is carried out on it, and what has changed is
written back.  Where the sources below a folder are looked at, the standard input lists the paths of
the files from that folder, one a line.
-/

namespace FossilRecord.Program

/-- Reads what stands at a path into a tree of files; what cannot be found is left out. -/
def fetch (folder : Disk.Place) (d : Disk) (path : String) : IO Disk := do
  match ← (IO.FS.readBinFile path).toBaseIO with
  | .ok octets => return d.graft folder path (.file octets.toList)
  | .error (.inappropriateType ..) => return d.graft folder path .folder
  | .error (.permissionDenied ..) => return d.graft folder path .closed
  | .error _ => return d

/-- Reads what stands at some paths. -/
def fetchAll (folder : Disk.Place) (d : Disk) (paths : List String) : IO Disk :=
  paths.foldlM (fetch folder) d

/-- The variables of the environment that count. -/
def variableNames : List String :=
  ["CUSTODIAN_HOST", "CUSTODIAN_PORT", "CUSTODIAN_STORE_PATH", Settings.homeVariable]

/-- Reads the environment. -/
def readVariables : IO (List (String × String)) := do
  let found ← variableNames.mapM fun name => do
    return (← IO.getEnv name).map fun value => (name, value)
  return found.filterMap id

/-- Draws identifiers and reads the clock. -/
def fresh : IO Fresh := do
  let drawn ← IO.getRandomBytes 16
  let seed := drawn.toList.foldl (fun n (b : UInt8) => n * 256 + b.toNat) 0
  let nanos := (← Std.Time.Timestamp.now).toNanosecondsSinceUnixEpoch.val
  return ⟨fun k => .ofRandom (seed + k), .ofUnix (nanos / 1000000000) (nanos % 1000000000).toNat⟩

/-- Reads what a command looks at. -/
def prepare (e : Command.Environment) (i : Command.Invocation) : IO Command.Environment := do
  let disk ← fetchAll e.folder e.disk ("." :: i.settingsPaths)
  let e := { e with disk := disk }
  match Settings.load e.disk e.folder e.env i.config with
  | .error _ => return e
  | .ok settings =>
      let path := settings.storePath
      let disk ← fetchAll e.folder e.disk
        ((Store.folderAndName path).1 :: path :: i.command.inputPaths)
      let e := { e with disk := disk }
      match i.command.sourceFolder? e settings with
      | none => return e
      | some root =>
          let names := (Config.Flat.linesOf (String.ofList (Text.lenient e.input))).filter (· ≠ [])
          let paths := names.map fun name => Path.join root (String.ofList name)
          let disk ← fetchAll e.folder e.disk (root :: paths)
          return { e with disk := disk }

/-- Writes the files that differ. -/
def writeBack (before after : Disk) : IO Unit :=
  after.entries.forM fun (place, entry) => do
    match entry with
    | .file octets =>
        if before.at? place ≠ some entry then
          IO.FS.writeBinFile ("/" ++ "/".intercalate place) (ByteArray.mk octets.toArray)
    | _ => return

/-- Whether a command reads the standard input. -/
def readsInput (c : Command) : Bool :=
  c.inputPaths.any Command.isStandardInput ||
    match c with
    | .scan _ _ => true
    | .lookup _ _ _ => true
    | _ => false

/-- Reads the standard input, if the arguments call for it. -/
def readInput (arguments : List String) : IO (List UInt8) := do
  match Command.Invocation.ofArguments arguments with
  | .ok i =>
      if readsInput i.command then return (← (← IO.getStdin).readBinToEnd).toList else return []
  | .error _ => return []

/-- Runs the program on some arguments. -/
def run (arguments : List String) : IO UInt32 := do
  let folder := Path.parts (toString (← IO.currentDir))
  let e : Command.Environment := ⟨.empty, folder, ← readVariables, ← readInput arguments⟩
  let e ←
    match Command.Invocation.ofArguments arguments with
    | .ok i => prepare e i
    | .error _ => pure e
  let (report, disk) := Command.run e (← fresh) arguments
  writeBack e.disk disk
  (← IO.getStdout).putStr report.output
  (← IO.getStderr).putStr report.errors
  return report.code.toUInt32

end FossilRecord.Program

/-- Runs the program. -/
def main (arguments : List String) : IO UInt32 :=
  FossilRecord.Program.run arguments
