import FossilRecord.Decimal.Binary64

/-!
# JSON values

A number is a whole number when it was written as one and fits 64 bits, and a binary floating-point
number otherwise.  An object that was read has its fields in ascending order of their names, each
name once; a record that is written has them in an order of its own.
-/

namespace FossilRecord

open Decimal (Binary64)

/-- A number of a JSON document. -/
inductive Json.Number where
  | whole (n : Int)
  | real (x : Binary64)
deriving DecidableEq, Repr

/-- A JSON value. -/
inductive Json where
  | null
  | bool (b : Bool)
  | number (n : Json.Number)
  | text (s : String)
  | list (items : List Json)
  | object (fields : List (String × Json))
deriving Repr, Inhabited

namespace Json

/-- A whole number. -/
def int (n : Int) : Json := .number (.whole n)

/-- A natural number. -/
def nat (n : Nat) : Json := .number (.whole n)

/-- A text or null. -/
def optText : Option String → Json
  | none => .null
  | some s => .text s

/-- A whole number or null. -/
def optInt : Option Int → Json
  | none => .null
  | some n => .int n

/-- A natural number or null. -/
def optNat : Option Nat → Json
  | none => .null
  | some n => .nat n

/-- A list of texts. -/
def texts (items : List String) : Json := .list (items.map .text)

/-- Sets a field, keeping the names in ascending order and each name once. -/
def setField (name : String) (value : Json) : List (String × Json) → List (String × Json)
  | [] => [(name, value)]
  | (n, v) :: rest =>
      if name = n then (n, value) :: rest
      else if name < n then (name, value) :: (n, v) :: rest
      else (n, v) :: setField name value rest

/-- The fields in ascending order of their names; of equal names the last one counts. -/
def sortFields (fields : List (String × Json)) : List (String × Json) :=
  fields.foldl (fun acc f => setField f.1 f.2 acc) []

/-- An object from fields in any order. -/
def ofFields (fields : List (String × Json)) : Json := .object (sortFields fields)

/-- The value of a field among fields. -/
def lookup (name : String) : List (String × Json) → Option Json
  | [] => none
  | (n, v) :: rest => if n = name then some v else lookup name rest

/-- The value of a field of an object. -/
def field? (name : String) : Json → Option Json
  | .object fields => lookup name fields
  | _ => none

/-- The fields of an object. -/
def fields? : Json → Option (List (String × Json))
  | .object fields => some fields
  | _ => none

/-- The items of a list. -/
def items? : Json → Option (List Json)
  | .list items => some items
  | _ => none

/-- The text of a text. -/
def text? : Json → Option String
  | .text s => some s
  | _ => none

/-- Whether a value is null. -/
def isNull : Json → Bool
  | .null => true
  | _ => false

end Json

end FossilRecord
