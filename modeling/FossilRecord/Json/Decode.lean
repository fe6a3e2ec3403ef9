import FossilRecord.Instant
import FossilRecord.Json.Printer
import FossilRecord.Json.Reader
import FossilRecord.Text.Quoted
import FossilRecord.Uuid

/-!
# Reading records from JSON

A decoder takes a JSON value to a value of some type or says why not.  A record is read from an
object, whose fields are checked in ascending order of their names before a missing one is noticed,
or from a list that holds the fields in their order.  The last part reads the same shapes straight
from a text, where a fault has a place.
-/

namespace FossilRecord.Json

/-- Reads a value of a type from a JSON value. -/
abbrev Decoder (α : Type) := Json → Except String α

/-- How a message names a value. -/
def describe : Json → String
  | .null => "null"
  | .bool true => "boolean `true`"
  | .bool false => "boolean `false`"
  | .number (.whole n) => s!"integer `{n}`"
  | .number (.real x) => "floating point `" ++ String.ofList (renderReal x) ++ "`"
  | .text s => "string " ++ Text.quoted s
  | .list _ => "sequence"
  | .object _ => "map"

/-- The message for a value of the wrong kind. -/
def wrongType (j : Json) (expected : String) : String :=
  s!"invalid type: {describe j}, expected {expected}"

/-- The message for a value of the right kind that is out of range. -/
def wrongValue (j : Json) (expected : String) : String :=
  s!"invalid value: {describe j}, expected {expected}"

/-- Reads a text; `expected` is the word for it in a message. -/
def textAs (expected : String) : Decoder String
  | .text s => .ok s
  | j => .error (wrongType j expected)

/-- Reads a text. -/
def decodeText : Decoder String := textAs "a string"

/-- Reads a file path. -/
def decodePath : Decoder String := textAs "path string"

/-- The smallest whole number of 64 bits with a sign. -/
def minInt64 : Int := -9223372036854775808

/-- The largest whole number of 64 bits with a sign. -/
def maxInt64 : Int := 9223372036854775807

/-- Reads a whole number of 64 bits with a sign. -/
def decodeInt : Decoder Int
  | .number (.whole n) =>
      if minInt64 ≤ n ∧ n ≤ maxInt64 then .ok n
      else .error (wrongValue (.number (.whole n)) "i64")
  | j => .error (wrongType j "i64")

/-- Reads a natural number; `expected` is the word for it in a message. -/
def natAs (expected : String) : Decoder Nat
  | .number (.whole n) =>
      if 0 ≤ n then .ok n.toNat else .error (wrongValue (.number (.whole n)) expected)
  | j => .error (wrongType j expected)

/-- Reads an identifier. -/
def decodeUuid : Decoder Uuid
  | .text s =>
      match Uuid.parse s with
      | .ok u => .ok u
      | .error f => .error s!"UUID parsing failed: {f.message}"
  | j => .error (wrongType j "a formatted UUID string")

/-- Reads an instant. -/
def decodeInstant : Decoder Instant
  | .text s => (Instant.parseRelaxed s).mapError InstantFlaw.message
  | j => .error (wrongType j "an RFC 3339 formatted date and time string")

/-- Reads null as absent. -/
def decodeOption {α : Type} (d : Decoder α) : Decoder (Option α)
  | .null => .ok none
  | j => (d j).map some

/-- Reads any value; null counts as absent. -/
def decodeAny : Decoder (Option Json)
  | .null => .ok none
  | j => .ok (some j)

/-- Reads a list. -/
def decodeList {α : Type} (d : Decoder α) : Decoder (List α)
  | .list items => items.mapM d
  | j => .error (wrongType j "a sequence")

/-- Whether a value can be read. -/
def check {α : Type} (d : Decoder α) (j : Json) : Except String Unit :=
  (d j).map fun _ => ()

/-- The fields of a record in their order, each with a check of its value. -/
structure Layout where
  name : String
  fields : List (String × (Json → Except String Unit))

/-- The fields found, and whether they were given by place. -/
structure Found where
  byPlace : Bool
  fields : List (String × Json)

/-- The check of a field; a field that the record does not have is passed over. -/
def Layout.checkField (l : Layout) (f : String × Json) : Except String Unit :=
  match l.fields.find? (·.1 = f.1) with
  | some c => c.2 f.2
  | none => .ok ()

/-- The message for a list that is too short for the record. -/
def Layout.tooFew (l : Layout) (found : Nat) : String :=
  let n := l.fields.length
  let noun := if n = 1 then "element" else "elements"
  s!"invalid length {found}, expected struct {l.name} with {n} {noun}"

/-- Checks the fields given and refuses anything that is no record. -/
def Layout.read (l : Layout) : Json → Except String Found
  | .object fields => do
      for f in fields do
        l.checkField f
      .ok ⟨false, fields⟩
  | .list items =>
      .ok ⟨true, (l.fields.map (·.1)).zip items⟩
  | j => .error (wrongType j s!"struct {l.name}")

/-- Refuses a list with more items than the record has fields. -/
def Layout.finish (l : Layout) : Json → Except String Unit
  | .list items =>
      if l.fields.length < items.length then
        .error s!"invalid length {items.length}, expected fewer elements in array"
      else .ok ()
  | _ => .ok ()

/-- The value of a field that has to be there. -/
def Layout.required {α : Type} (l : Layout) (found : Found) (name : String) (d : Decoder α) :
    Except String α :=
  match lookup name found.fields with
  | some j => d j
  | none =>
      if found.byPlace then .error (l.tooFew found.fields.length)
      else .error s!"missing field `{name}`"

/-- The value of a field that may be left out of an object. -/
def Layout.optional {α : Type} (l : Layout) (found : Found) (name : String)
    (d : Decoder (Option α)) : Except String (Option α) :=
  match lookup name found.fields with
  | some j => d j
  | none => if found.byPlace then .error (l.tooFew found.fields.length) else .ok none

/-- The value of a field that has a value of its own when it is left out. -/
def Layout.withDefault {α : Type} (found : Found) (name : String) (d : Decoder α) (absent : α) :
    Except String α :=
  match lookup name found.fields with
  | some j => d j
  | none => .ok absent

/-! ## The same shapes read from a text -/

/-- A fault for a value that is not of the expected kind; `rest` is the text after a scalar and the
text from the bracket on for a list or an object. -/
def mismatchAt {α : Type} (j : Json) (expected : String) (rest : List Char) : Except Fault α :=
  failHere (.mismatch (wrongType j expected)) rest

/-- Refuses the value at the front of a text, whatever it is. -/
def refuse {α : Type} (expected : String) : Reader α := fun cs =>
  match skipSpaces cs with
  | '[' :: rest => mismatchAt (.list []) expected ('[' :: rest)
  | '\x7b' :: rest => mismatchAt (.object []) expected ('\x7b' :: rest)
  | _ => do
      let (j, rest) ← readValue depthLimit cs
      mismatchAt j expected rest

/-- Reads a scalar with a decoder. -/
def readScalar {α : Type} (expected : String) (d : Decoder α) : Reader α := fun cs =>
  match skipSpaces cs with
  | '[' :: _ => refuse expected cs
  | '\x7b' :: _ => refuse expected cs
  | _ => do
      let (j, rest) ← readValue depthLimit cs
      match d j with
      | .ok x => .ok (x, rest)
      | .error message => failHere (.mismatch message) rest

/-- Reads null as absent. -/
def readOption {α : Type} (r : Reader α) : Reader (Option α) := fun cs =>
  match skipSpaces cs with
  | 'n' :: rest => do
      let rest ← readLetters ['u', 'l', 'l'] rest
      .ok (none, rest)
  | _ => do
      let (x, rest) ← r cs
      .ok (some x, rest)

/-- Reads a list. -/
def readList {α : Type} (r : Reader α) : Reader (List α) := fun cs =>
  match skipSpaces cs with
  | '[' :: rest => readItems r (rest.length + 1) true rest
  | _ => refuse "a sequence" cs

/-- A record of one required and two optional fields, as a text holds it. -/
structure Triple (α β γ : Type) where
  name : String
  first : String × Reader α
  second : String × Reader (Option β)
  third : String × Reader (Option γ)

/-- What of a triple has been read. -/
structure Triple.Seen (α β γ : Type) where
  first : Option α := none
  second : Option (Option β) := none
  third : Option (Option γ) := none

/-- Reads the fields of a triple whose brace is read; a field may not come twice. -/
def Triple.readFields {α β γ : Type} (t : Triple α β γ) :
    (fuel : Nat) → (first : Bool) → Triple.Seen α β γ → Reader (Triple.Seen α β γ)
  | 0, _, _, cs => failHere .endInObject cs
  | fuel + 1, first, seen, cs => do
      let (more, cs) ← nextField first cs
      if more then
        let (name, cs) ← readText cs
        let twice : Except Fault (Triple.Seen α β γ × List Char) :=
          failHere (.mismatch s!"duplicate field `{name}`") (skipSpaces cs)
        if name = t.first.1 then
          if seen.first.isSome then twice
          else
            let cs ← skipColon cs
            let (x, cs) ← t.first.2 cs
            t.readFields fuel false { seen with first := some x } cs
        else if name = t.second.1 then
          if seen.second.isSome then twice
          else
            let cs ← skipColon cs
            let (x, cs) ← t.second.2 cs
            t.readFields fuel false { seen with second := some x } cs
        else if name = t.third.1 then
          if seen.third.isSome then twice
          else
            let cs ← skipColon cs
            let (x, cs) ← t.third.2 cs
            t.readFields fuel false { seen with third := some x } cs
        else
          let cs ← skipColon cs
          let (_, cs) ← readValue depthLimit cs
          t.readFields fuel false seen cs
      else .ok (seen, cs)

/-- Reads a triple given by place, whose bracket is read. -/
def Triple.readPlaces {α β γ : Type} (t : Triple α β γ) : Reader (α × Option β × Option γ) :=
  fun cs => do
    let short (n : Nat) (cs : List Char) : Except Fault (List Char) :=
      failHere (.mismatch s!"invalid length {n}, expected struct {t.name} with 3 elements") cs
    let (more, cs) ← nextItem true cs
    let cs ← if more then .ok cs else short 0 cs
    let (a, cs) ← t.first.2 cs
    let (more, cs) ← nextItem false cs
    let cs ← if more then .ok cs else short 1 cs
    let (b, cs) ← t.second.2 cs
    let (more, cs) ← nextItem false cs
    let cs ← if more then .ok cs else short 2 cs
    let (c, cs) ← t.third.2 cs
    let (more, cs) ← nextItem false cs
    if more then failNext .trailingChars cs else .ok ((a, b, c), cs)

/-- Reads a triple. -/
def Triple.read {α β γ : Type} (t : Triple α β γ) : Reader (α × Option β × Option γ) := fun cs =>
  match skipSpaces cs with
  | '[' :: rest => t.readPlaces rest
  | '\x7b' :: rest => do
      let (seen, cs) ← t.readFields (rest.length + 1) true {} rest
      match seen.first with
      | some a => .ok ((a, seen.second.join, seen.third.join), cs)
      | none => failHere (.mismatch s!"missing field `{t.first.1}`") cs
  | _ => refuse s!"struct {t.name}" cs

/-- Reads a whole text with a reader; the error is the message of the fault. -/
def parseWith {α : Type} (reader : Reader α) (s : String) : Except String α :=
  match readWhole reader s.toList with
  | .ok x => .ok x
  | .error f => .error (f.message s.toList)

end FossilRecord.Json
