import FossilRecord.Source.Naming
import FossilRecord.Source.Tree
import FossilRecord.Text.Blank

/-!
# Outlines

The symbols that a source file declares, in the order of the text.  The syntax tree is walked from
the root down to a fixed depth; a node that declares a symbol is reported once it yields a usable
name, and a node that wraps a declaration is reported instead of the first one in it.
-/

namespace FossilRecord.Source

/-- A symbol found in a source file. -/
structure LiveSymbol where
  file : String
  line : Nat
  kind : SymbolType
  name : String
  signature : Option String
deriving DecidableEq, Repr

namespace LiveSymbol

/-- A symbol as an object. -/
def toJson (s : LiveSymbol) : Json :=
  .object [("file", .text s.file), ("line", .nat s.line), ("type", s.kind.toJson),
    ("name", .text s.name), ("signature", .optText s.signature)]

/-- The fields of the record. -/
def layout : Json.Layout where
  name := "LiveSymbol"
  fields :=
    [("file", Json.check Json.decodeText), ("line", Json.check (Json.natAs "usize")),
      ("type", Json.check SymbolType.decode), ("name", Json.check Json.decodeText),
      ("signature", Json.check (Json.decodeOption Json.decodeText))]

/-- Reads a symbol. -/
def decode : Json.Decoder LiveSymbol := fun j => do
  let found ← layout.read j
  let file ← layout.required found "file" Json.decodeText
  let line ← layout.required found "line" (Json.natAs "usize")
  let kind ← layout.required found "type" SymbolType.decode
  let name ← layout.required found "name" Json.decodeText
  let signature ← layout.optional found "signature" (Json.decodeOption Json.decodeText)
  layout.finish j
  .ok ⟨file, line, kind, name, signature⟩

end LiveSymbol

/-- The deepest level of a tree that is looked at; the root is at level zero. -/
def maxDepth : Nat := 20

/-- Children whose own children hold the name of a declaration. -/
def declaratorKinds : List String := ["variable_declarator", "type_spec"]

/-- Kinds of parameter lists. -/
def parameterKinds : List String := ["formal_parameters", "parameters", "parameter_list"]

/-- Kinds of values that have a parameter list. -/
def functionValueKinds : List String := ["arrow_function", "function_expression", "function"]

/-- The node that a language has a rule of its own for: an implementation is named after the type it
is for, without its arguments. -/
def ownNameNode? (language : Language) (n : Node) : Option Node :=
  match language with
  | .rust =>
      if n.kind = "impl_item" then
        (n.childByField? "type").bind fun t =>
          if t.kind = "generic_type" then t.childByField? "type" else some t
      else none
  | _ => none

/-- The node that holds the name of a declaration. -/
def nameNode? (language : Language) (n : Node) : Option Node :=
  match ownNameNode? language n with
  | some own => some own
  | none =>
      match n.childOfKind? language.nameKinds with
      | some direct => some direct
      | none =>
          (n.children.filter fun c => declaratorKinds.contains c.kind).findSome?
            (·.childOfKind? language.nameKinds)

/-- Whether a name is long enough and not marked as private by an underscore. -/
def isUsableName (name : List Char) : Bool :=
  1 < name.length && name.head? != some '_'

/-- The parameter list of a declaration: the first after its name, else the first. -/
def parameterList? (language : Language) (n : Node) : Option Node :=
  let lists := n.children.filter fun c => parameterKinds.contains c.kind
  let afterName : Option Node :=
    match n.childOfKind? language.nameKinds with
    | some name => lists.find? fun (p : Node) => name.stop ≤ p.start
    | none => lists.head?
  afterName.orElse fun _ => lists.head?

/-- The signature of a node that has a parameter list: the list and what the node says it returns,
with blanks collapsed. -/
def signatureFrom (src : Chars) (n parameters : Node) : String :=
  let list := parameters.chars src
  let result :=
    match (n.childByField? "return_type").orElse fun _ => n.childByField? "result" with
    | none => []
    | some r =>
        if r.kind = "type_annotation" then r.chars src
        else if (n.childByField? "result").isSome then ' ' :: r.chars src
        else " -> ".toList ++ r.chars src
  String.ofList (Text.collapse (list ++ result))

/-- The function that the first declarator with a value gives as its value. -/
def functionValue? (n : Node) : Option Node :=
  match
    (n.children.filter fun c => c.kind = "variable_declarator").findSome?
      (·.childByField? "value") with
  | some value => if functionValueKinds.contains value.kind then some value else none
  | none => none

/-- The signature of a declaration, or of the function that it names. -/
def signature? (language : Language) (src : Chars) (n : Node) : Option String :=
  match parameterList? language n with
  | some parameters => some (signatureFrom src n parameters)
  | none =>
      (functionValue? n).bind fun value =>
        (parameterList? language value).map (signatureFrom src value)

/-- Whether a node declares a symbol. -/
def declared? (language : Language) (n : Node) : Option SymbolType :=
  match language.role? n.kind with
  | some (.declares kind) => some kind
  | _ => none

/-- The first child that declares a symbol. -/
def wrapped? (language : Language) (n : Node) : Option (Node × SymbolType) :=
  n.children.findSome? fun c => (declared? language c).map fun kind => (c, kind)

/-- A source file that is being outlined. -/
structure Sheet where
  kind : FileKind
  src : Chars
  label : String

/-- The symbol that a declaration gives, at the line of `anchor`. -/
def report (sheet : Sheet) (anchor declaration : Node) (base : SymbolType) : List LiveSymbol :=
  match nameNode? sheet.kind.language declaration with
  | none => []
  | some n =>
      let name := n.chars sheet.src
      if isUsableName name then
        let text := String.ofList name
        [{ file := sheet.label
           line := rowOf sheet.src anchor.start + 1
           kind := classify text base sheet.kind.markup sheet.kind.script
           name := text
           signature := signature? sheet.kind.language sheet.src declaration }]
      else []

/-- The symbols of a node itself. -/
def reportNode (sheet : Sheet) (n : Node) : List LiveSymbol :=
  match sheet.kind.language.role? n.kind with
  | some (.declares base) => report sheet n n base
  | some .wraps =>
      match wrapped? sheet.kind.language n with
      | some (inner, base) => report sheet n inner base
      | none => []
  | none => []

/-- Whether the first declaration among the children of a node is reported with the node. -/
def coversChild (language : Language) (n : Node) : Bool :=
  match language.role? n.kind with
  | some .wraps => true
  | _ => false

mutual

/-- The symbols of a node and of all below it; `covered` says that the node itself is reported
already, and `room` counts the levels left. -/
def walk (sheet : Sheet) (room : Nat) (covered : Bool) : Node → List LiveSymbol
  | .mk kind field start stop children =>
      match room with
      | 0 => []
      | room + 1 =>
          let n : Node := .mk kind field start stop children
          (if covered then [] else reportNode sheet n) ++
            walkAll sheet room (!covered && coversChild sheet.kind.language n) children

/-- The symbols of nodes in a row; `pending` says that the first declaration among them is reported
already. -/
def walkAll (sheet : Sheet) (room : Nat) (pending : Bool) : List Node → List LiveSymbol
  | [] => []
  | n :: rest =>
      let covered := pending && (declared? sheet.kind.language n).isSome
      walk sheet room covered n ++ walkAll sheet room (pending && !covered) rest

end

/-- The symbols of a source text whose tree is known. -/
def outlineTree (sheet : Sheet) (tree : Node) : List LiveSymbol :=
  walk sheet (maxDepth + 1) false tree

end FossilRecord.Source
