import FossilRecord.Json.Decode

/-!
# Symbols

A symbol is a named piece of source code as a fossil describes it: where it stands, of what kind it
is, and which other names it is related to.
-/

namespace FossilRecord

/-- The kind of a symbol. -/
inductive SymbolType where
  | function
  | class_
  | component
  | hook
  | store
  | route
  | type
  | interface
  | enum
  | constant
  /-- Any other label, kept as it is. -/
  | other (label : String)
deriving DecidableEq, Repr

namespace SymbolType

/-- The label of a kind. -/
def label : SymbolType → String
  | .function => "function"
  | .class_ => "class"
  | .component => "component"
  | .hook => "hook"
  | .store => "store"
  | .route => "route"
  | .type => "type"
  | .interface => "interface"
  | .enum => "enum"
  | .constant => "constant"
  | .other label => label

/-- The kind that a trimmed label names. -/
def ofTrimmed (label : String) : SymbolType :=
  if label = "" then .function
  else if label = "function" then .function
  else if label = "class" then .class_
  else if label = "component" then .component
  else if label = "hook" then .hook
  else if label = "store" then .store
  else if label = "route" then .route
  else if label = "type" then .type
  else if label = "interface" then .interface
  else if label = "enum" then .enum
  else if label = "constant" then .constant
  else .other label

/-- The kind that a label names, blanks around it aside; the empty label means a function. -/
def ofLabel (label : String) : SymbolType :=
  ofTrimmed (Text.trim label)

/-- Whether a kind is none of the known ones. -/
def isOther : SymbolType → Bool
  | .other _ => true
  | _ => false

/-- A kind as its label. -/
def toJson (t : SymbolType) : Json := .text t.label

/-- Reads a kind from its label. -/
def decode : Json.Decoder SymbolType := fun j =>
  (Json.decodeText j).map ofLabel

end SymbolType

/-- The names that a symbol is related to, by the direction of the relation. -/
structure Relationships where
  calls : List String
  calledBy : List String
  dependsOn : List String
deriving DecidableEq, Repr, Inhabited

namespace Relationships

/-- No related names. -/
def none : Relationships := ⟨[], [], []⟩

/-- The names of the three lists. -/
def keys : List String := ["calls", "called_by", "depends_on"]

/-- The names under one key: the texts of a list that are not empty. -/
def namesUnder (fields : List (String × Json)) (key : String) : List String :=
  match (Json.lookup key fields).bind Json.items? with
  | some items => (items.filterMap Json.text?).filter (· ≠ "")
  | Option.none => []

/-- The relations that the fields of an object give. -/
def ofFields (fields : List (String × Json)) : Relationships :=
  ⟨namesUnder fields "calls", namesUnder fields "called_by", namesUnder fields "depends_on"⟩

/-- The fields of an object, or of the object that a text holds. -/
def fieldsOf? : Json → Option (List (String × Json))
  | .object fields => some fields
  | .text s =>
      match Json.parse s with
      | .ok (.object fields) => some fields
      | _ => Option.none
  | _ => Option.none

/-- The relations that a value gives; whatever is no list of names gives none. -/
def ofValue (j : Json) : Relationships :=
  match fieldsOf? j with
  | some fields => ofFields fields
  | Option.none => none

/-- All names that occur, in the order of the lists. -/
def allNames (r : Relationships) : List String :=
  r.calls ++ r.calledBy ++ r.dependsOn

/-- Inserts a text into an ascending list that holds each text once. -/
def insertName (name : String) : List String → List String
  | [] => [name]
  | n :: rest =>
      if name = n then n :: rest
      else if name < n then name :: n :: rest
      else n :: insertName name rest

/-- Texts in ascending order, each once. -/
def sortedNames (names : List String) : List String :=
  names.foldl (fun acc n => insertName n acc) []

/-- The names that occur, in ascending order and each once. -/
def referencedNames (r : Relationships) : List String :=
  sortedNames r.allNames

/-- The three lists as an object. -/
def toJson (r : Relationships) : Json :=
  .object [("calls", .texts r.calls), ("called_by", .texts r.calledBy),
    ("depends_on", .texts r.dependsOn)]

/-- The fields of the record. -/
def layout : Json.Layout where
  name := "Relationships"
  fields := keys.map fun k => (k, Json.check (Json.decodeList Json.decodeText))

/-- Reads the three lists; a missing one is empty. -/
def decode : Json.Decoder Relationships := fun j => do
  let found ← layout.read j
  let names (key : String) : Except String (List String) :=
    Json.Layout.withDefault found key (Json.decodeList Json.decodeText) []
  let calls ← names "calls"
  let calledBy ← names "called_by"
  let dependsOn ← names "depends_on"
  layout.finish j
  .ok ⟨calls, calledBy, dependsOn⟩

end Relationships

/-- A symbol of a fossil.  The relationships are kept as they were received. -/
structure Symbol where
  symbolId : Uuid
  fossilId : Uuid
  projectId : Uuid
  version : Int
  filePath : String
  lineNumber : Option Int
  kind : SymbolType
  name : String
  signature : Option String
  description : Option String
  relationships : Option Json
deriving Repr

namespace Symbol

/-- The related names of a symbol. -/
def edges (s : Symbol) : Relationships :=
  match s.relationships with
  | some j => .ofValue j
  | none => .none

/-- A symbol as an object. -/
def toJson (s : Symbol) : Json :=
  .object [("symbol_id", .text (toString s.symbolId)), ("fossil_id", .text (toString s.fossilId)),
    ("project_id", .text (toString s.projectId)), ("version", .int s.version),
    ("file_path", .text s.filePath), ("line_number", .optInt s.lineNumber),
    ("type", s.kind.toJson), ("name", .text s.name), ("signature", .optText s.signature),
    ("description", .optText s.description), ("relationships", s.relationships.getD .null)]

/-- The fields of the record. -/
def layout : Json.Layout where
  name := "Symbol"
  fields :=
    [("symbol_id", Json.check Json.decodeUuid), ("fossil_id", Json.check Json.decodeUuid),
      ("project_id", Json.check Json.decodeUuid), ("version", Json.check Json.decodeInt),
      ("file_path", Json.check Json.decodeText),
      ("line_number", Json.check (Json.decodeOption Json.decodeInt)),
      ("type", Json.check SymbolType.decode), ("name", Json.check Json.decodeText),
      ("signature", Json.check (Json.decodeOption Json.decodeText)),
      ("description", Json.check (Json.decodeOption Json.decodeText)),
      ("relationships", Json.check Json.decodeAny)]

/-- Reads a symbol. -/
def decode : Json.Decoder Symbol := fun j => do
  let found ← layout.read j
  let symbolId ← layout.required found "symbol_id" Json.decodeUuid
  let fossilId ← layout.required found "fossil_id" Json.decodeUuid
  let projectId ← layout.required found "project_id" Json.decodeUuid
  let version ← layout.required found "version" Json.decodeInt
  let filePath ← layout.required found "file_path" Json.decodeText
  let lineNumber ← layout.optional found "line_number" (Json.decodeOption Json.decodeInt)
  let kind ← layout.required found "type" SymbolType.decode
  let name ← layout.required found "name" Json.decodeText
  let signature ← layout.optional found "signature" (Json.decodeOption Json.decodeText)
  let description ← layout.optional found "description" (Json.decodeOption Json.decodeText)
  let relationships ← layout.optional found "relationships" Json.decodeAny
  layout.finish j
  .ok ⟨symbolId, fossilId, projectId, version, filePath, lineNumber, kind, name, signature,
    description, relationships⟩

end Symbol

end FossilRecord
