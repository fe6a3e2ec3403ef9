import FossilRecord.Fossil
import FossilRecord.Symbol

/-!
# Payloads

A payload is the text from which a fossil is made: one JSON object, perhaps between the lines of a
code fence.  It is checked as a whole before anything is stored.  Fields of the wrong kind are
refused where a list or an object is needed, and kept as JSON text where a text is.
-/

namespace FossilRecord

/-! ## Code fences -/

namespace Fence

/-- The three characters that open and close a fence. -/
def mark : List Char := ['`', '`', '`']

/-- The text after the first line. -/
def afterLine (cs : List Char) : List Char :=
  (cs.dropWhile (· ≠ '\n')).drop 1

/-- The text before a closing mark that stands alone on the last line, if there is one. -/
def beforeMark? (body : List Char) : Option (List Char) :=
  if mark.isSuffixOf body then
    let inner := body.take (body.length - 3)
    if inner.isEmpty || inner.getLast? = some '\n' then some inner else none
  else none

/-- The text inside a fence, trimmed; a text that opens no fence is only trimmed. -/
def stripChars (raw : List Char) : List Char :=
  let text := Text.trimChars raw
  if mark.isPrefixOf text then
    let body := Text.dropBlanksEnd (afterLine (text.drop 3))
    match beforeMark? body with
    | some inner => Text.trimChars inner
    | none => Text.trimChars body
  else text

/-- The text inside a fence, trimmed. -/
def strip (raw : String) : String :=
  String.ofList (stripChars raw.toList)

end Fence

/-! ## Payloads -/

/-- A symbol of a payload.  The relationships are kept as they were received. -/
structure PayloadSymbol where
  filePath : String
  lineNumber : Option Int
  kind : SymbolType
  name : String
  signature : Option String
  description : Option String
  relationships : Option Json
deriving Repr

/-- A payload that was read. -/
structure Payload where
  summary : String
  architecture : String
  recentChanges : String
  knownIssues : String
  dependencies : List Dependency
  fileTree : List FileTreeEntry
  symbols : List PayloadSymbol
deriving Repr

/-- Why relationships are refused. -/
inductive RelationshipsFlaw where
  | textWithoutObject
  | notObject
  | notNames (key : String)
deriving DecidableEq, Repr

/-- Why a text is no payload. -/
inductive PayloadFlaw where
  | notJson (message : String)
  | notObject
  | notList (key : String)
  | dependencyShape
  | fileShape
  | symbolShape (index : Nat)
  | relationships (name : String) (flaw : RelationshipsFlaw)
deriving DecidableEq, Repr

/-- The words for a flaw. -/
def RelationshipsFlaw.message : RelationshipsFlaw → String
  | .textWithoutObject => "relationships string does not hold an object"
  | .notObject => "relationships is not an object"
  | .notNames key => s!"`relationships.{key}` is not a list of names"

/-- The words for a flaw. -/
def PayloadFlaw.message : PayloadFlaw → String
  | .notJson message => s!"invalid JSON: {message}"
  | .notObject => "top-level value is not an object"
  | .notList key => s!"`{key}` is not an array"
  | .dependencyShape => "dependency entry is neither an object nor a string"
  | .fileShape => "file_tree entry is neither an object nor a string"
  | .symbolShape index => s!"symbol #{index} is not an object"
  | .relationships name flaw => s!"symbol `{name}`: {flaw.message}"

namespace Payload

/-- A text field: nothing when absent or null, and JSON text when not a text. -/
def textField (root : List (String × Json)) (key : String) : String :=
  match Json.lookup key root with
  | none => ""
  | some .null => ""
  | some (.text s) => s
  | some other => other.pretty

/-- A list field: empty when absent or null. -/
def listField (root : List (String × Json)) (key : String) : Except PayloadFlaw (List Json) :=
  match Json.lookup key root with
  | none => .ok []
  | some .null => .ok []
  | some (.list items) => .ok items
  | some _ => .error (.notList key)

/-- An optional text: absent when null or empty, and compact JSON when not a text. -/
def optText : Option Json → Option String
  | none => none
  | some .null => none
  | some (.text s) => if s = "" then none else some s
  | some other => some other.compact

/-- The nearest whole number that 64 bits with a sign hold. -/
def clampInt64 (n : Int) : Int :=
  if n < Json.minInt64 then Json.minInt64 else if Json.maxInt64 < n then Json.maxInt64 else n

/-- The value of digits; `none` when there are none or other characters among them. -/
def digitsValue? (cs : List Char) : Option Nat :=
  if cs.isEmpty then none
  else
    cs.foldl (fun acc c =>
      match acc, Json.digit? c with
      | some n, some d => some (n * 10 + d)
      | _, _ => none) (some 0)

/-- A whole number of 64 bits written in decimal, perhaps after a sign. -/
def intOfChars? (cs : List Char) : Option Int :=
  let signed : Option Int :=
    match cs with
    | '-' :: rest => (digitsValue? rest).map fun n => -(n : Int)
    | '+' :: rest => (digitsValue? rest).map fun n => (n : Int)
    | _ => (digitsValue? cs).map fun n => (n : Int)
  signed.bind fun n => if Json.minInt64 ≤ n ∧ n ≤ Json.maxInt64 then some n else none

/-- An optional whole number: a number without a fraction, brought into range, or a text that holds
one in decimal. -/
def optInt : Option Json → Option Int
  | some (.number (.whole n)) => some (clampInt64 n)
  | some (.number (.real x)) => if x.isWhole then some (clampInt64 x.truncated) else none
  | some (.text s) => intOfChars? (Text.trimChars s.toList)
  | _ => none

/-- The value under the first of two keys that is there, even if it is null. -/
def either (fields : List (String × Json)) (key alias_ : String) : Option Json :=
  match Json.lookup key fields with
  | some j => some j
  | none => Json.lookup alias_ fields

/-- Reads a dependency: an object, or a text that is its name. -/
def dependency : Json → Except PayloadFlaw Dependency
  | .text name => .ok ⟨name, none, none⟩
  | .object fields =>
      .ok ⟨(optText (Json.lookup "name" fields)).getD "", optText (Json.lookup "version" fields),
        optText (Json.lookup "purpose" fields)⟩
  | _ => .error .dependencyShape

/-- Reads a file: an object, or a text that is its path. -/
def fileEntry : Json → Except PayloadFlaw FileTreeEntry
  | .text path => .ok ⟨path, none, none⟩
  | .object fields =>
      let count := optInt (either fields "line_count" "lines")
      .ok ⟨(optText (Json.lookup "path" fields)).getD "",
        optText (Json.lookup "description" fields),
        count.bind fun n => if 0 ≤ n then some n.toNat else none⟩
  | _ => .error .fileShape

/-- The first key of an object of relationships whose value is no list of names. -/
def badKey? (fields : List (String × Json)) : Option String :=
  Relationships.keys.find? fun key =>
    match Json.lookup key fields with
    | none => false
    | some .null => false
    | some (.list items) => !items.all fun j => (Json.text? j).isSome
    | some _ => true

/-- Refuses relationships that are neither an object of lists of names nor a text that holds one. -/
def checkRelationships (j : Json) : Except RelationshipsFlaw Unit :=
  let checkFields (fields : List (String × Json)) : Except RelationshipsFlaw Unit :=
    match badKey? fields with
    | some key => .error (.notNames key)
    | none => .ok ()
  match j with
  | .object fields => checkFields fields
  | .text s =>
      match Json.parse s with
      | .ok (.object fields) => checkFields fields
      | _ => .error .textWithoutObject
  | _ => .error .notObject

/-- The name of a symbol entry, if it is a text that is not blank. -/
def symbolName? (fields : List (String × Json)) : Option String :=
  match Json.lookup "name" fields with
  | some (.text s) => if Text.isBlankText s then none else some s
  | _ => none

/-- The relationships of a symbol entry. -/
def symbolRelationships (name : String) (fields : List (String × Json)) :
    Except PayloadFlaw (Option Json) :=
  match Json.lookup "relationships" fields with
  | none => .ok none
  | some .null => .ok none
  | some j =>
      match checkRelationships j with
      | .ok _ => .ok (some j)
      | .error flaw => .error (.relationships name flaw)

/-- Reads a symbol entry; one without a usable name gives no symbol. -/
def symbol (index : Nat) : Json → Except PayloadFlaw (Option PayloadSymbol)
  | .object fields =>
      match symbolName? fields with
      | none => .ok none
      | some name => do
          let relationships ← symbolRelationships name fields
          .ok (some
            { filePath := (optText (either fields "file_path" "file")).getD ""
              lineNumber := optInt (either fields "line_number" "line")
              kind :=
                match (Json.lookup "type" fields).bind Json.text? with
                | some label => .ofLabel label
                | none => .function
              name := name
              signature := optText (Json.lookup "signature" fields)
              description := optText (Json.lookup "description" fields)
              relationships := relationships })
  | _ => .error (.symbolShape index)

/-- Reads symbol entries, the first of which has an index. -/
def symbolEntries : (index : Nat) → List Json → Except PayloadFlaw (List PayloadSymbol)
  | _, [] => .ok []
  | index, j :: rest => do
      let first ← symbol index j
      let more ← symbolEntries (index + 1) rest
      .ok (first.toList ++ more)

/-- Reads the fields of a payload. -/
def ofFields (root : List (String × Json)) : Except PayloadFlaw Payload := do
  let symbols ← symbolEntries 0 (← listField root "symbols")
  let dependencies ← (← listField root "dependencies").mapM dependency
  let fileTree ← (← listField root "file_tree").mapM fileEntry
  .ok
    { summary := textField root "summary"
      architecture := textField root "architecture"
      recentChanges := textField root "recent_changes"
      knownIssues := textField root "known_issues"
      dependencies := dependencies
      fileTree := fileTree
      symbols := symbols }

/-- Reads a text as a payload. -/
def parse (raw : String) : Except PayloadFlaw Payload :=
  match Json.parse (Fence.strip raw) with
  | .error message => .error (.notJson message)
  | .ok (.object root) => ofFields root
  | .ok _ => .error .notObject

end Payload

end FossilRecord
