import FossilRecord.Json.Reader
import FossilRecord.Text.Octets
import FossilRecord.Text.Search

/-!
# Request targets

A target is a path and, after a question mark, a query of names with values.  Both are written with
percent signs for octets; in a query a plus sign stands for a blank.
-/

namespace FossilRecord.Http

/-- The octets that a text with percent signs stands for; a percent sign that two hexadecimal digits
do not follow stands for itself. -/
def percentDecode : List UInt8 → List UInt8
  | [] => []
  | 37 :: a :: b :: rest =>
      match Json.hexValue? (Char.ofNat a.toNat), Json.hexValue? (Char.ofNat b.toNat) with
      | some x, some y => UInt8.ofNat (x * 16 + y) :: percentDecode rest
      | _, _ => 37 :: percentDecode (a :: b :: rest)
  | c :: rest => c :: percentDecode rest

/-- The text of a part of a path, if its octets are one. -/
def decodePart (part : String) : Option String :=
  (Text.strict (percentDecode (Text.octets part))).toOption

/-- The text of a name or value of a query. -/
def decodeForm (cs : List Char) : String :=
  let spaced := cs.map fun c => if c == '+' then ' ' else c
  String.ofList (Text.lenient (percentDecode (Text.octets (String.ofList spaced))))

/-- A target that was taken apart. -/
structure Target where
  /-- The parts of the path between slashes, as they were written. -/
  path : List String
  query : List (String × String)

/-- The names and values of a query. -/
def queryPairs (cs : List Char) : List (String × String) :=
  ((Text.splitAt '&' cs).filter fun piece => !piece.isEmpty).map fun piece =>
    (decodeForm (piece.takeWhile (· ≠ '=')), decodeForm ((piece.dropWhile (· ≠ '=')).drop 1))

/-- Takes a target apart; what follows a number sign does not count. -/
def Target.ofString (s : String) : Target :=
  let cs := s.toList.takeWhile (· ≠ '#')
  { path := (Text.splitAt '/' (cs.takeWhile (· ≠ '?'))).map String.ofList
    query := queryPairs ((cs.dropWhile (· ≠ '?')).drop 1) }

/-! ## Queries -/

/-- Why a query is refused. -/
inductive QueryFlaw where
  | missing (name : String)
  | repeated (name : String)
  /-- A value is neither `true` nor `false`. -/
  | notFlag (name : String)
deriving DecidableEq, Repr

/-- The words for a flaw. -/
def QueryFlaw.message : QueryFlaw → String
  | .missing name => s!"missing field `{name}`"
  | .repeated name => s!"duplicate field `{name}`"
  | .notFlag name => s!"{name}: provided string was not `true` or `false`"

/-- The names that a query may give: texts that it must give, texts that it may give, and flags. -/
structure QueryShape where
  required : List String
  optional : List String
  flags : List String

namespace QueryShape

/-- Checks the names and values in order; `seen` are the names so far. -/
def checkPairs (shape : QueryShape) (seen : List String) :
    List (String × String) → Except QueryFlaw (List String)
  | [] => .ok seen
  | (name, value) :: rest =>
      if !(shape.required ++ shape.optional ++ shape.flags).contains name then
        checkPairs shape seen rest
      else if seen.contains name then .error (.repeated name)
      else if shape.flags.contains name && value != "true" && value != "false" then
        .error (.notFlag name)
      else checkPairs shape (name :: seen) rest

/-- Checks a query. -/
def check (shape : QueryShape) (query : List (String × String)) : Except QueryFlaw Unit := do
  let seen ← shape.checkPairs [] query
  match shape.required.find? fun name => !seen.contains name with
  | some name => .error (.missing name)
  | none => .ok ()

end QueryShape

/-- The value of a name in a query. -/
def value? (query : List (String × String)) (name : String) : Option String :=
  (query.find? (·.1 = name)).map (·.2)

/-- Whether a flag is set in a query. -/
def isSet (query : List (String × String)) (name : String) : Bool :=
  value? query name = some "true"

end FossilRecord.Http
