import FossilRecord.Json.Decode
import FossilRecord.Text.Blank
import FossilRecord.Text.Search

/-!
# Flat documents

Two notations for names with values, one pair a line.  Of YAML this is the block mapping of scalars;
what is indented below a name counts as a table or a list, whatever it holds.  In an INI document
all values are texts.
-/

namespace FossilRecord.Config.Flat

/-- Named values in the order in which they were given. -/
abbrev Table := List (String × Json)

/-- Gives a name a value, instead of the one that it had. -/
def assign (name : String) (value : Json) (table : Table) : Table :=
  table.filter (·.1 ≠ name) ++ [(name, value)]

/-- The lines of a text. -/
def linesOf (text : String) : List (List Char) :=
  (Text.splitAt '\n' text.toList).map Text.dropBlanksEnd

/-- The text between two quotes at the ends of a piece. -/
def unquoted? (cs : List Char) : Option (List Char) :=
  match cs with
  | '"' :: rest => if rest.getLast? = some '"' then some rest.dropLast else none
  | '\'' :: rest => if rest.getLast? = some '\'' then some rest.dropLast else none
  | _ => none

/-! ## YAML -/

/-- A line up to a comment; a comment follows a blank. -/
def beforeComment (before : Char) : List Char → List Char
  | [] => []
  | c :: rest => if c == '#' && before == ' ' then [] else c :: beforeComment c rest

/-- The number that decimal digits with a sign write. -/
def wholeNumber? (cs : List Char) : Option Int :=
  let (negative, digits) :=
    match cs with
    | '-' :: rest => (true, rest)
    | '+' :: rest => (false, rest)
    | rest => (false, rest)
  if digits.isEmpty || !digits.all Char.isDigit then none
  else
    let n : Int := (digits.foldl (fun n c => n * 10 + (c.toNat - 48)) 0 : Nat)
    let n := if negative then -n else n
    if Json.minInt64 ≤ n ∧ n ≤ Json.maxInt64 then some n else none

/-- The value that a scalar without quotes writes. -/
def plainScalar (cs : List Char) : Json :=
  let s := String.ofList cs
  if s = "" ∨ s = "~" ∨ s = "null" then .null
  else if s = "true" ∨ s = "True" ∨ s = "TRUE" then .bool true
  else if s = "false" ∨ s = "False" ∨ s = "FALSE" then .bool false
  else
    match wholeNumber? cs, Json.parse s with
    | some n, _ => .int n
    | none, .ok (.number n) => .number n
    | none, _ => .text s

/-- The value that stands after a name. -/
def scalar (cs : List Char) : Json :=
  match unquoted? cs with
  | some text => .text (String.ofList text)
  | none =>
      match cs, Json.parse (String.ofList cs) with
      | '[' :: _, .ok value => value
      | '[' :: _, .error _ => .list []
      | '\x7b' :: _, .ok value => value
      | '\x7b' :: _, .error _ => .object []
      | _, _ => plainScalar cs

/-- A line taken apart at the colon that ends its name. -/
def pair? : List Char → Option (List Char × List Char)
  | [] => none
  | [c] => if c == ':' then some ([], []) else none
  | c :: d :: rest =>
      if c == ':' && d == ' ' then some ([], rest)
      else (pair? (d :: rest)).map fun (name, value) => (c :: name, value)

/-- The value of a name without one, when a line is indented below it. -/
def withBlock (line : List Char) (table : Table) : Table :=
  let block : Json :=
    match Text.dropBlanks line with
    | '-' :: _ => .list []
    | _ => .object []
  match table.getLast? with
  | some (name, .null) => table.dropLast ++ [(name, block)]
  | _ => table

/-- Reads the lines of a mapping. -/
def readMapping (table : Table) : List (List Char) → Except Json Table
  | [] => .ok table
  | line :: rest =>
      let line := Text.dropBlanksEnd (beforeComment ' ' line)
      match line with
      | [] => readMapping table rest
      | ['-', '-', '-'] => readMapping table rest
      | ['.', '.', '.'] => .ok table
      | ' ' :: _ => readMapping (withBlock line table) rest
      | '-' :: ' ' :: _ =>
          if table.isEmpty then .error (.list []) else readMapping (withBlock line table) rest
      | _ =>
          match pair? line with
          | some (name, value) =>
              let name := Text.dropBlanksEnd name
              let name := String.ofList ((unquoted? name).getD name)
              readMapping (assign name (scalar (Text.trimChars value)) table) rest
          | none => .error (scalar line)

/-- Reads a mapping, or gives what stands in its place. -/
def parseYaml (text : String) : Except Json Table :=
  match Text.dropBlanks text.toList with
  | '\x7b' :: _ =>
      match Json.parse text with
      | .ok (.object fields) => .ok fields
      | _ => readMapping [] (linesOf text)
  | _ => readMapping [] (linesOf text)

/-! ## INI -/

/-- Reads the lines of a document; `part` is the name of the section that they are in. -/
def readPairs (part : Option String) (table : Table) : List (List Char) → Table
  | [] => table
  | line :: rest =>
      match Text.trimChars line with
      | [] => readPairs part table rest
      | '#' :: _ => readPairs part table rest
      | ';' :: _ => readPairs part table rest
      | '[' :: header =>
          let name := String.ofList (Text.trimChars (header.takeWhile (· ≠ ']')))
          readPairs (some name) (assign name (.object []) table) rest
      | line =>
          let name := String.ofList (Text.trimChars (line.takeWhile fun c => c ≠ '=' ∧ c ≠ ':'))
          let value := Text.trimChars ((line.dropWhile fun c => c ≠ '=' ∧ c ≠ ':').drop 1)
          match part with
          | none =>
              let text := String.ofList ((unquoted? value).getD value)
              readPairs part (assign name (.text text) table) rest
          | some _ => readPairs part table rest

/-- Reads the pairs before the first section, and the names of the sections. -/
def parseIni (text : String) : Table :=
  readPairs none [] (linesOf text)

end FossilRecord.Config.Flat
