import FossilRecord.Path
import FossilRecord.Symbol

/-!
# Source languages

Which file names belong to which language, and what the nodes of its syntax trees stand for: kinds
that declare a symbol, kinds that wrap a declaration, and kinds that hold a name.
-/

namespace FossilRecord.Source

/-- A language that source files are read in. -/
inductive Language where
  | typescript
  | tsx
  | javascript
  | python
  | bash
  | rust
  | go
deriving DecidableEq, Repr

namespace Language

/-- The name of a language. -/
def label : Language → String
  | .typescript => "typescript"
  | .tsx => "tsx"
  | .javascript => "javascript"
  | .python => "python"
  | .bash => "bash"
  | .rust => "rust"
  | .go => "go"

/-- All languages. -/
def all : List Language := [.typescript, .tsx, .javascript, .python, .bash, .rust, .go]

/-- The language of a name. -/
def ofLabel? (s : String) : Option Language :=
  all.find? (·.label = s)

end Language

/-- A language with what the file name tells about the file. -/
structure FileKind where
  language : Language
  /-- Whether markup may stand in the code. -/
  markup : Bool
  /-- Whether the file is a script of the web. -/
  script : Bool
deriving DecidableEq, Repr

/-- The languages by file name extension. -/
def extensions : List (String × Language) :=
  [("ts", .typescript), ("tsx", .tsx), ("js", .javascript), ("jsx", .javascript), ("py", .python),
    ("sh", .bash), ("rs", .rust), ("go", .go)]

/-- The kind of file that an extension names, a point at its front aside. -/
def FileKind.ofExtension? (ext : String) : Option FileKind :=
  let ext :=
    match ext.toList with
    | '.' :: rest => String.ofList rest
    | _ => ext
  match extensions.find? (·.1 = ext) with
  | some (_, language) =>
      some
        { language := language
          markup := ext = "tsx" || ext = "jsx"
          script := ext = "ts" || ext = "tsx" || ext = "js" || ext = "jsx" }
  | none => none

/-- The kind of file that a path names. -/
def FileKind.ofPath? (path : String) : Option FileKind :=
  (Path.extension? path).bind FileKind.ofExtension?

/-- What a node of a syntax tree stands for. -/
inductive Role where
  /-- It declares a symbol of a kind. -/
  | declares (kind : SymbolType)
  /-- It wraps a declaration, whose symbol is reported at the line of the wrapper. -/
  | wraps
deriving DecidableEq, Repr

namespace Language

/-- What a node of a kind stands for in scripts of the web; `typed` adds the kinds that only typed
ones have. -/
def scriptRole? (typed : Bool) (kind : String) : Option Role :=
  if kind = "function_declaration" ∨ kind = "generator_function_declaration" ∨
      kind = "method_definition" then some (.declares .function)
  else if kind = "class_declaration" then some (.declares .class_)
  else if kind = "lexical_declaration" then some (.declares .constant)
  else if kind = "export_statement" then some .wraps
  else if typed then
    if kind = "abstract_class_declaration" then some (.declares .class_)
    else if kind = "interface_declaration" then some (.declares .interface)
    else if kind = "type_alias_declaration" then some (.declares .type)
    else if kind = "enum_declaration" then some (.declares .enum)
    else none
  else none

/-- What a node of a kind stands for. -/
def role? : Language → String → Option Role
  | .typescript, kind => scriptRole? true kind
  | .tsx, kind => scriptRole? true kind
  | .javascript, kind => scriptRole? false kind
  | .python, kind =>
      if kind = "function_definition" then some (.declares .function)
      else if kind = "class_definition" then some (.declares .class_)
      else if kind = "decorated_definition" then some .wraps
      else none
  | .bash, kind => if kind = "function_definition" then some (.declares .function) else none
  | .rust, kind =>
      if kind = "function_item" then some (.declares .function)
      else if kind = "struct_item" ∨ kind = "impl_item" then some (.declares .class_)
      else if kind = "enum_item" then some (.declares .enum)
      else if kind = "trait_item" then some (.declares .interface)
      else if kind = "type_item" then some (.declares .type)
      else if kind = "const_item" ∨ kind = "static_item" then some (.declares .constant)
      else none
  | .go, kind =>
      if kind = "function_declaration" ∨ kind = "method_declaration" then
        some (.declares .function)
      else if kind = "type_declaration" then some (.declares .type)
      else none

/-- The kinds of nodes that hold a name. -/
def nameKinds : Language → List String
  | .bash => ["word"]
  | .go => ["identifier", "type_identifier", "field_identifier"]
  | _ => ["identifier", "type_identifier", "property_identifier", "name"]

end Language

end FossilRecord.Source
