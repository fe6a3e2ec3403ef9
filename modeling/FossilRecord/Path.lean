import FossilRecord.Text.Search

/-!
# File paths

Paths are texts whose parts stand between slashes.  Empty parts, and the part `.` except at the
front, do not count.
-/

namespace FossilRecord.Path

/-- The parts of a path that count. -/
def parts (path : String) : List String :=
  let pieces := (Text.splitAt '/' path.toList).map String.ofList
  match pieces with
  | [] => []
  | first :: rest =>
      (if first = "" then [] else [first]) ++ rest.filter fun p => p ≠ "" ∧ p ≠ "."

/-- The path of some names. -/
def ofNames (names : List String) : String :=
  "/".intercalate names

/-- The last part, unless it leads upwards or stays in place. -/
def fileName? (path : String) : Option String :=
  match (parts path).getLast? with
  | some name => if name = ".." ∨ name = "." then none else some name
  | none => none

/-- What follows the last point of a file name, unless the point is at its front. -/
def extensionOf? (name : String) : Option String :=
  let backwards := name.toList.reverse
  let after := backwards.takeWhile (· ≠ '.')
  let before := (backwards.drop after.length).drop 1
  if before.isEmpty then none else some (String.ofList after.reverse)

/-- The extension of the last part. -/
def extension? (path : String) : Option String :=
  (fileName? path).bind extensionOf?

/-- Whether a path starts at the root. -/
def isAbsolute (path : String) : Bool :=
  path.toList.head? == some '/'

/-- A path made absolute: parts that do not count are left out, but a slash at the end stays. -/
def absolute (directory path : String) : String :=
  let ps := (parts path).filter (· ≠ ".")
  let base := if isAbsolute path then "" else directory
  let body := base ++ String.join (ps.map ("/" ++ ·))
  let body := if body = "" then "/" else body
  if path.toList.getLast? = some '/' ∧ body ≠ "/" then body ++ "/" else body

/-- A path below a directory. -/
def join (directory path : String) : String :=
  if isAbsolute path then path
  else if directory = "" then path
  else if directory.toList.getLast? = some '/' then directory ++ path
  else directory ++ "/" ++ path

end FossilRecord.Path
