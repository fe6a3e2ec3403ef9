import FossilRecord.Store.Fossils

/-!
# Related files

Which files a change to some symbols would touch: the files of the symbols that are looked for, and
the files of the symbols that those name as related.  Relations are followed one step, so that
relations in a circle do no harm.
-/

namespace FossilRecord

namespace Symbol

/-- A table of versions with that of one more symbol.  A name that is in the table keeps its
version. -/
def noteVersion (noted : List (String × Int)) (s : Symbol) : List (String × Int) :=
  match noted.lookup s.name with
  | some _ => noted
  | none => (s.name, s.version) :: noted

/-- The version of the first symbol of every name. -/
def firstVersions (symbols : List Symbol) : List (String × Int) :=
  symbols.foldl noteVersion []

/-- The symbols whose version is that of the first one of their name.  When the versions never
increase along the list, these are the newest ones of each name. -/
def mostRecentPerName (symbols : List Symbol) : List Symbol :=
  let noted := firstVersions symbols
  symbols.filter fun s => noted.lookup s.name = some s.version

end Symbol

/-- Files in ascending order, each once. -/
structure RelatedFiles where
  /-- The files of the symbols that match. -/
  direct : List String
  /-- The other files of symbols that a matching one names as related. -/
  related : List String
  /-- All of them. -/
  all : List String
deriving DecidableEq, Repr

namespace RelatedFiles

/-- The three lists as an object. -/
def toJson (r : RelatedFiles) : Json :=
  .object [("direct", .texts r.direct), ("related", .texts r.related), ("all", .texts r.all)]

/-- The files of the newest symbols among some. -/
def filesOf (symbols : List Symbol) : List String :=
  (Symbol.mostRecentPerName symbols).map Symbol.filePath

/-- The files of the newest symbols of a name. -/
def reachedBy (s : Store) (project name : String) : Except Store.Failure (List String) := do
  let found ← s.findSymbols project (.exact name) .allFossils
  .ok (filesOf (found.value?.getD []))

/-- The files of matching symbols and those reached from them. -/
def ofFiles (direct reached : List String) : RelatedFiles where
  direct := Relationships.sortedNames direct
  related := Relationships.sortedNames (reached.filter fun file => !direct.contains file)
  all := Relationships.sortedNames (direct ++ reached)

/-- The files related to the symbols of a project whose names contain a part. -/
def resolve (s : Store) (project part : String) :
    Except Store.Failure (Lookup RelatedFiles) := do
  match ← s.findSymbols project (.contains part) .allFossils with
  | .projectNotFound name => .ok (.projectNotFound name)
  | .noFossil name => .ok (.noFossil name)
  | .found symbols => do
      let matching := Symbol.mostRecentPerName symbols
      let names := Relationships.sortedNames (matching.flatMap fun m => m.edges.referencedNames)
      let reached ← names.mapM (reachedBy s project)
      .ok (.found (ofFiles (matching.map Symbol.filePath) reached.flatten))

end RelatedFiles

end FossilRecord
