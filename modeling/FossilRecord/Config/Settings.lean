import FossilRecord.Config.Flat
import FossilRecord.Config.Toml
import FossilRecord.Disk
import FossilRecord.Json.Printer
import FossilRecord.Text.Case
import FossilRecord.Text.Octets
import FossilRecord.Text.Quoted

/-!
# Settings

Settings come from a file, which need not be there, and from the environment, which goes before the
file; what neither gives has a default.  A value of another kind is taken where it can be read as
one of the right kind.
-/

namespace FossilRecord

/-- What can be set. -/
structure Settings where
  host : String
  port : Nat
  storePath : String
deriving DecidableEq, Repr

/-- Why there are no settings. -/
inductive SettingsFlaw where
  /-- The file is no document of its kind. -/
  | unreadable (report : String)
  /-- A value cannot be taken for what it sets. -/
  | mismatch (report : String)
deriving DecidableEq, Repr

namespace Settings

open Decimal (Binary64)

/-- What holds where nothing is set. -/
def default_ : Settings := ⟨"127.0.0.1", 5317, "custodian.db"⟩

/-- A value and where it comes from. -/
structure Given where
  value : Json
  origin : String

/-! ## Values of another kind -/

/-- A number that is not whole, without an exponent. -/
def plainReal (x : Binary64) : String :=
  let sign := if x.isNegative then "-" else ""
  if x.exponentBits = 2047 then
    if x.fractionBits = 0 then sign ++ "inf" else "NaN"
  else
    let found := x.shortest
    let digits := Nat.toDigits 10 found.value
    let behind := (-found.scale).toNat
    let body :=
      if behind = 0 then digits ++ List.replicate found.scale.toNat '0'
      else if behind < digits.length then
        digits.take (digits.length - behind) ++ '.' :: digits.drop (digits.length - behind)
      else '0' :: '.' :: List.replicate (behind - digits.length) '0' ++ digits
    sign ++ String.ofList body

/-- What a value is, in words. -/
def describe : Json → String
  | .null => "unit value"
  | .bool b => if b then "boolean `true`" else "boolean `false`"
  | .number (.whole n) => s!"64-bit integer `{n}`"
  | .number (.real x) => "floating point `" ++ plainReal x ++ "`"
  | .text s => "string " ++ Text.quoted s
  | .list _ => "sequence"
  | .object _ => "map"

/-- The report of a value that cannot be taken. -/
def mismatch (found expected key : String) (origin : Option String) : String :=
  let place :=
    match origin with
    | some origin => " in " ++ origin
    | none => ""
  s!"invalid type: {found}, expected {expected} for key `{key}`" ++ place

/-- Takes a value as a text. -/
def textOf (key : String) (g : Given) : Except String String :=
  match g.value with
  | .text s => .ok s
  | .bool b => .ok (if b then "true" else "false")
  | .number (.whole n) => .ok (toString n)
  | .number (.real x) => .ok (plainReal x)
  | other => .error (mismatch (describe other) "a string" key (some g.origin))

/-- The greatest whole number of 64 bits without a sign. -/
def maxNat64 : Nat := Nat.pow 2 64 - 1

/-- The whole number that digits after an optional plus sign write, if it fits. -/
def naturalOf? (s : String) : Option Nat :=
  let digits :=
    match s.toList with
    | '+' :: rest => rest
    | cs => cs
  if digits.isEmpty || !digits.all Char.isDigit then none
  else
    let n := digits.foldl (fun n c => n * 10 + (c.toNat - 48)) 0
    if n ≤ maxNat64 then some n else none

/-- The nearest whole number that is not negative and fits; a half counts as one more. -/
def rounded (x : Binary64) : Nat :=
  if x.exponentBits = 2047 ∧ x.fractionBits ≠ 0 then 0
  else if x.isNegative then 0
  else min maxNat64 ((2 * x.ratio.1 + x.ratio.2) / (2 * x.ratio.2))

/-- Takes a value as a whole number that is not negative. -/
def naturalOf (key : String) (g : Given) : Except String Nat :=
  let refuse (expected : String) : Except String Nat :=
    .error (mismatch (describe g.value) expected key (some g.origin))
  match g.value with
  | .number (.whole n) =>
      if n < 0 then refuse "an unsigned 64 bit or less integer" else .ok n.toNat
  | .number (.real x) => .ok (rounded x)
  | .bool b => .ok (if b then 1 else 0)
  | .text s =>
      let word := Text.lower s
      if word = "true" ∨ word = "on" ∨ word = "yes" then .ok 1
      else if word = "false" ∨ word = "off" ∨ word = "no" then .ok 0
      else
        match naturalOf? s with
        | some n => .ok n
        | none => refuse "an integer"
  | _ => refuse "an integer"

/-- Takes a value as the number of a port. -/
def portOf (key : String) (g : Given) : Except String Nat := do
  let n ← naturalOf key g
  if n < 65536 then .ok n
  else
    .error (mismatch s!"64-bit unsigned integer `{n}`" "an unsigned 16 bit integer" key none)

/-! ## The file -/

/-- The kinds of documents, by the extensions of their files. -/
def extensions : List String := ["toml", "json", "yaml", "yml", "ini"]

/-- The report of a document that is no table. -/
def noTable (value : Json) (origin : String) : String :=
  "invalid type: " ++ describe value ++ ", expected a map in " ++ origin

/-- Reads a document of the kind that an extension stands for. -/
def readDocument (extension origin text : String) : Except String (List (String × Json)) :=
  if extension = "toml" then Config.Toml.parse text
  else if extension = "json" then
    match Json.parse text with
    | .ok (.object fields) => .ok fields
    | .ok other => .error (noTable other origin)
    | .error message => .error message
  else if extension = "ini" then .ok (Config.Flat.parseIni text)
  else
    match Config.Flat.parseYaml text with
    | .ok table => .ok table
    | .error other => .error (noTable other origin)

/-- A text without a byte order mark at its front. -/
def withoutMark (octets : List UInt8) : List UInt8 :=
  match octets with
  | 0xEF :: 0xBB :: 0xBF :: rest => rest
  | other => other

/-- The files that a path may mean, in order, each with its extension: the path itself, or the path
with another extension behind it. -/
def candidates (path : String) : List (String × String) :=
  let bare := String.ofList (path.toList.reverse.dropWhile (· == '/')).reverse
  (path, (Path.extension? path).getD "") :: extensions.map fun e => (bare ++ "." ++ e, e)

/-- The file that a path means, with its extension and its octets. -/
def find? (d : Disk) (folder : Disk.Place) (path : String) :
    Option (String × String × List UInt8) :=
  (candidates path).findSome? fun (file, extension) =>
    match d.read folder file with
    | .ok octets => some (file, extension, octets)
    | .error _ => none

/-- The way from a folder to a place, both by names from the root. -/
def wayTo : (folder place : List String) → List String
  | f :: fs, p :: ps => if f = p then wayTo fs ps else (f :: fs).map (fun _ => "..") ++ p :: ps
  | fs, ps => fs.map (fun _ => "..") ++ ps

/-- A path as it is shown from a folder. -/
def shownPath (folder : Disk.Place) (path : String) : String :=
  let names := (Path.parts path).filter (· ≠ ".")
  "/".intercalate (if Path.isAbsolute path then wayTo folder names else names)

/-- What the file gives, if there is one of a known kind. -/
def fromFile (d : Disk) (folder : Disk.Place) (path : String) :
    Except SettingsFlaw (List (String × Given)) :=
  match find? d folder path with
  | none => .ok []
  | some (file, extension, octets) =>
      if extensions.contains extension then
        let origin := shownPath folder file
        match readDocument extension origin (String.ofList (Text.lenient (withoutMark octets))) with
        | .ok table => .ok (table.map fun f => (Text.lower f.1, ⟨f.2, origin⟩))
        | .error report => .error (.unreadable (report ++ " in " ++ origin))
      else .ok []

/-! ## The environment -/

/-- What a variable of the environment starts with, in lower case. -/
def variablePrefix : List Char := "custodian_".toList

/-- What the environment gives. -/
def fromVariables (env : List (String × String)) : List (String × Given) :=
  env.filterMap fun (name, value) =>
    let name := Text.lowerChars name.toList
    if variablePrefix.isPrefixOf name then
      some
        (String.ofList (name.drop variablePrefix.length), ⟨.text value, "the environment"⟩)
    else none

/-! ## Settings -/

/-- What is given for a name. -/
def given? (all : List (String × Given)) (key : String) : Option Given :=
  (all.find? (·.1 = key)).map (·.2)

/-- The value of a setting. -/
def setting {α : Type} (all : List (String × Given)) (key : String)
    (take : String → Given → Except String α) (otherwise : α) : Except SettingsFlaw α :=
  match given? all key with
  | none => .ok otherwise
  | some g =>
      match take key g with
      | .ok value => .ok value
      | .error report => .error (.mismatch report)

/-- The variable that names the home folder. -/
def homeVariable : String := "HOME"

/-- A path with a tilde at its front replaced by the home folder. -/
def expandTilde (env : List (String × String)) (path : String) : String :=
  match path.toList, env.find? (·.1 = homeVariable) with
  | '~' :: '/' :: rest, some (_, home) => Path.join home (String.ofList rest)
  | _, _ => path

/-- The settings that a file and the environment give. -/
def load (d : Disk) (folder : Disk.Place) (env : List (String × String)) (path : String) :
    Except SettingsFlaw Settings := do
  let file ← fromFile d folder path
  let all := fromVariables env ++ file.reverse
  let host ← setting all "host" textOf default_.host
  let port ← setting all "port" portOf default_.port
  let storePath ← setting all "store_path" textOf default_.storePath
  .ok ⟨host, port, expandTilde env storePath⟩

end Settings

end FossilRecord
