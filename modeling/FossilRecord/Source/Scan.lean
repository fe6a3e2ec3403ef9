import FossilRecord.Disk
import FossilRecord.Source.Extract

/-!
# Scanning a folder

The symbols of all source files below a folder, in the order of the files' paths.  Folders that hold
what tools have made or fetched are left out.
-/

namespace FossilRecord.Source

/-- Names of folders that are not looked into. -/
def skippedFolders : List String :=
  ["node_modules", ".git", "dist", "build", ".next", "__pycache__", ".venv", "venv", ".tox",
    ".mypy_cache", ".pytest_cache", "target", "vendor", ".turbo", "coverage", ".nyc_output"]

/-- What cannot be scanned. -/
structure NotFolder where
  path : String
deriving DecidableEq, Repr

/-- The words for it. -/
def NotFolder.message (f : NotFolder) : String :=
  s!"not a directory: {f.path}"

/-- An extension without points at its front. -/
def withoutPoints (ext : String) : String :=
  String.ofList (ext.toList.dropWhile (· == '.'))

/-- Whether files with an extension are wanted, when some extensions are given or none. -/
def isWanted (extensions? : Option (List String)) (ext : String) : Bool :=
  match extensions? with
  | some wanted => wanted.any fun w => withoutPoints w = ext
  | none => extensions.any (·.1 = ext)

/-- The extension of the last of some names. -/
def extensionOf? (names : Disk.Place) : Option String :=
  names.getLast?.bind Path.extensionOf?

/-- The kind of file that the last of some names tells. -/
def kindOf? (names : Disk.Place) : Option FileKind :=
  (extensionOf? names).bind FileKind.ofExtension?

/-- Whether a file is a source file and its extension is wanted. -/
def isSource (extensions? : Option (List String)) (names : Disk.Place) : Bool :=
  (extensionOf? names).any fun ext =>
    isWanted extensions? ext && (FileKind.ofExtension? ext).isSome

/-- What a walk finds with one thing in a folder: itself, if it is a file, or what is below it, if it
is a folder that is looked into.  Links are not followed. -/
def filesFrom (below : Disk.Place → List Disk.Place) (names : Disk.Place)
    (child : String × Disk.Entry) : List Disk.Place :=
  if child.2.isFile then [names ++ [child.1]]
  else if child.2 = .folder ∧ child.1 ∉ skippedFolders then below (names ++ [child.1])
  else []

/-- The files below a folder, each with the names that lead to it from there, in the order of the
walk: what is listed first comes first, with all below it.  The walk has come down by `names` and
goes down so many levels further. -/
def filesBelow (d : Disk) (root : Disk.Place) :
    (levels : Nat) → (names : Disk.Place) → List Disk.Place
  | 0, _ => []
  | levels + 1, names =>
      (d.children (root ++ names)).flatMap (filesFrom (filesBelow d root levels) names)

/-- The source files below a folder in the order of their paths. -/
def sourceFiles (d : Disk) (root : Disk.Place) (extensions? : Option (List String)) :
    List Disk.Place :=
  ((filesBelow d root d.levels []).filter (isSource extensions?)).mergeSort
    fun a b => decide (Path.ofNames a ≤ Path.ofNames b)

/-- The symbols of the file at a place; what cannot be read has none. -/
def extractAt (d : Disk) (place : Disk.Place) (label : String) : List LiveSymbol :=
  match kindOf? place, d.readAt place with
  | some kind, .ok octets => extract kind label octets
  | _, _ => []

/-- The symbols of the source files below the folder that a path leads to from another one. -/
def scan (d : Disk) (folder : Disk.Place) (path : String) (extensions? : Option (List String)) :
    Except NotFolder (List LiveSymbol) :=
  match d.folder? folder path with
  | none => .error ⟨path⟩
  | some root =>
      .ok ((sourceFiles d root extensions?).flatMap fun names =>
        extractAt d (root ++ names) (Path.ofNames names))

/-- Whether a symbol is looked for: by its name, or by a part of it in any case. -/
def isSought (name : String) (exact : Bool) (s : LiveSymbol) : Bool :=
  if exact then s.name = name else Text.contains (Text.lower s.name) (Text.lower name)

/-- The symbols below a folder that are looked for. -/
def findSymbol (d : Disk) (folder : Disk.Place) (path name : String) (exact : Bool) :
    Except NotFolder (List LiveSymbol) := do
  let symbols ← scan d folder path none
  .ok (symbols.filter (isSought name exact))

/-- The symbols of one file; what cannot be read has none. -/
def extractFile (d : Disk) (folder : Disk.Place) (path label : String) : List LiveSymbol :=
  match FileKind.ofPath? path, d.read folder path with
  | some kind, .ok octets => extract kind label octets
  | _, _ => []

end FossilRecord.Source
