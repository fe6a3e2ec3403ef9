import FossilRecord.Json.Decode
import FossilRecord.Text.Search

/-!
# TOML documents

A document is read line by line into a table of named values.  Dates are kept as the texts that
write them.  A document that cannot be read is reported with the line, and with a mark below the
place.
-/

namespace FossilRecord.Config.Toml

open Decimal (Binary64)

/-- What is wrong, and what is left of the document at the place. -/
structure Fault where
  message : String
  rest : List Char
deriving DecidableEq, Repr

/-- Named values in the order in which they were given. -/
abbrev Table := List (String × Json)

/-- A fault at a place. -/
def fail {α : Type} (message : String) (rest : List Char) : Except Fault (α × List Char) :=
  .error ⟨message, rest⟩

/-! ## Reports -/

/-- The line of a place and the number of characters before it there; the end of a document counts
as the place after its last character. -/
def position (whole rest : List Char) : Nat × Nat :=
  let before := whole.take (whole.length - rest.length)
  let (before, past) := if rest.isEmpty then (before.dropLast, 1) else (before, 0)
  (before.count '\n', (before.reverse.takeWhile (· ≠ '\n')).length + past)

/-- A fault with the line that it is in. -/
def Fault.report (f : Fault) (whole : List Char) : String :=
  let (line, column) := position whole f.rest
  let number := toString (line + 1)
  let content := ((Text.splitAt '\n' whole)[line]?).getD []
  let octets := (f.rest.head?.map Char.utf8Size).getD 0
  let marked := min octets (Text.octetCount content - column)
  let margin := String.ofList (List.replicate (number.length + 1) ' ')
  let mark :=
    String.ofList (List.replicate (column + 1) ' ' ++ List.replicate (max 1 marked) '^')
  s!"TOML parse error at line {number}, column {column + 1}\n" ++ margin ++ "|\n" ++
    number ++ " | " ++ String.ofList content ++ "\n" ++ margin ++ "|" ++ mark ++ "\n" ++
    f.message ++ "\n"

/-! ## Blanks and line ends -/

/-- A blank within a line. -/
def isSpace (c : Char) : Bool :=
  c == ' ' || c == '\t'

/-- What follows blanks. -/
def skipSpaces (cs : List Char) : List Char :=
  cs.dropWhile isSpace

/-- What follows a comment, if there is one. -/
def skipComment : List Char → List Char
  | '#' :: rest => rest.dropWhile fun c => c ≠ '\n' ∧ c ≠ '\r'
  | cs => cs

/-- What follows the end of a line, if one is here; the end of the document ends a line. -/
def lineEnd? : List Char → Option (List Char)
  | [] => some []
  | '\n' :: rest => some rest
  | '\r' :: '\n' :: rest => some rest
  | _ => none

/-- What follows the rest of a line, which holds no more than a comment. -/
def endLine (context : String) (cs : List Char) : Except Fault (List Char) :=
  let cs := skipComment (skipSpaces cs)
  match lineEnd? cs with
  | some rest => .ok rest
  | none => .error ⟨context ++ "expected newline, `#`", cs⟩

/-- What follows blanks, comments and line ends; `fuel` bounds the number of lines. -/
def skipLines : (fuel : Nat) → List Char → List Char
  | 0, cs => cs
  | fuel + 1, cs =>
      let cs := skipComment (skipSpaces cs)
      match cs with
      | '\n' :: rest => skipLines fuel rest
      | '\r' :: '\n' :: rest => skipLines fuel rest
      | _ => cs

/-! ## Texts -/

/-- The message for an escape that means nothing. -/
def badEscape : String :=
  "invalid escape sequence\nexpected `b`, `f`, `n`, `r`, `t`, `u`, `U`, `\\`, `\"`"

/-- The message for an escape by number that is no character. -/
def badNumberEscape : String :=
  "invalid unicode 8-digit hex code\nvalue is out of range"

/-- Reads a character by its number in so many hexadecimal digits. -/
def readHexChar (count : Nat) (cs : List Char) : Except Fault (Char × List Char) :=
  let digits := cs.take count
  match digits.mapM Json.hexValue? with
  | some values =>
      let n := values.foldl (fun n d => n * 16 + d) 0
      if digits.length = count ∧ n.isValidChar then .ok (Char.ofNat n, cs.drop count)
      else fail badNumberEscape cs
  | none => fail badNumberEscape cs

/-- Reads what follows a backslash. -/
def readEscape : List Char → Except Fault (Char × List Char)
  | 'b' :: rest => .ok ('\x08', rest)
  | 't' :: rest => .ok ('\t', rest)
  | 'n' :: rest => .ok ('\n', rest)
  | 'f' :: rest => .ok ('\x0c', rest)
  | 'r' :: rest => .ok ('\r', rest)
  | '"' :: rest => .ok ('"', rest)
  | '\\' :: rest => .ok ('\\', rest)
  | 'u' :: rest => readHexChar 4 rest
  | 'U' :: rest => readHexChar 8 rest
  | cs => fail badEscape cs

/-- Whether a text within a line may hold a character as it is. -/
def isPlain (c : Char) : Bool :=
  c == '\t' || (0x20 ≤ c.toNat && c.toNat ≠ 0x7F)

/-- Reads a text up to a double quote. -/
def readBasic : (fuel : Nat) → List Char → Except Fault (List Char × List Char)
  | 0, cs => fail "invalid basic string" cs
  | _, '"' :: rest => .ok ([], rest)
  | fuel + 1, '\\' :: rest => do
      let (c, rest) ← readEscape rest
      let (cs, rest) ← readBasic fuel rest
      .ok (c :: cs, rest)
  | fuel + 1, c :: rest =>
      if isPlain c then do
        let (cs, rest) ← readBasic fuel rest
        .ok (c :: cs, rest)
      else fail "invalid basic string" (c :: rest)
  | _, [] => fail "invalid basic string" []

/-- Reads a text up to an apostrophe. -/
def readLiteral : List Char → Except Fault (List Char × List Char)
  | [] => fail "invalid literal string" []
  | c :: rest =>
      if c == '\'' then .ok ([], rest)
      else if isPlain c then do
        let (cs, rest) ← readLiteral rest
        .ok (c :: cs, rest)
      else fail "invalid literal string" (c :: rest)

/-- Reads a text over several lines up to three double quotes. -/
def readLongBasic : (fuel : Nat) → List Char → Except Fault (List Char × List Char)
  | 0, cs => fail "invalid multiline basic string" cs
  | _, '"' :: '"' :: '"' :: '"' :: '"' :: rest => .ok (['"', '"'], rest)
  | _, '"' :: '"' :: '"' :: '"' :: rest => .ok (['"'], rest)
  | _, '"' :: '"' :: '"' :: rest => .ok ([], rest)
  | fuel + 1, '\\' :: rest =>
      match skipSpaces rest with
      | '\n' :: after =>
          readLongBasic fuel (after.dropWhile fun c => isSpace c || c == '\n' || c == '\r')
      | '\r' :: '\n' :: after =>
          readLongBasic fuel (after.dropWhile fun c => isSpace c || c == '\n' || c == '\r')
      | _ => do
          let (c, rest) ← readEscape rest
          let (cs, rest) ← readLongBasic fuel rest
          .ok (c :: cs, rest)
  | fuel + 1, c :: rest =>
      if isPlain c || c == '\n' || c == '\r' then do
        let (cs, rest) ← readLongBasic fuel rest
        .ok (c :: cs, rest)
      else fail "invalid multiline basic string" (c :: rest)
  | _, [] => fail "invalid multiline basic string" []

/-- Reads a text over several lines up to three apostrophes. -/
def readLongLiteral : (fuel : Nat) → List Char → Except Fault (List Char × List Char)
  | 0, cs => fail "invalid multiline literal string" cs
  | _, '\'' :: '\'' :: '\'' :: '\'' :: '\'' :: rest => .ok (['\'', '\''], rest)
  | _, '\'' :: '\'' :: '\'' :: '\'' :: rest => .ok (['\''], rest)
  | _, '\'' :: '\'' :: '\'' :: rest => .ok ([], rest)
  | fuel + 1, c :: rest =>
      if isPlain c || c == '\n' || c == '\r' then do
        let (cs, rest) ← readLongLiteral fuel rest
        .ok (c :: cs, rest)
      else fail "invalid multiline literal string" (c :: rest)
  | _, [] => fail "invalid multiline literal string" []

/-- What follows a line end right after the opening quotes. -/
def skipFirstLineEnd : List Char → List Char
  | '\n' :: rest => rest
  | '\r' :: '\n' :: rest => rest
  | cs => cs

/-- Reads a text of any of the four forms. -/
def readQuoted (cs : List Char) : Except Fault (String × List Char) :=
  let found :=
    match cs with
    | '"' :: '"' :: '"' :: rest => readLongBasic (rest.length + 1) (skipFirstLineEnd rest)
    | '\'' :: '\'' :: '\'' :: rest => readLongLiteral (rest.length + 1) (skipFirstLineEnd rest)
    | '"' :: rest => readBasic (rest.length + 1) rest
    | '\'' :: rest => readLiteral rest
    | _ => fail "invalid string" cs
  found.map fun (text, rest) => (String.ofList text, rest)

/-! ## Keys -/

/-- Whether a key may hold a character without quotes. -/
def isKeyChar (c : Char) : Bool :=
  c.isAlphanum || c == '_' || c == '-'

/-- Reads one part of a key, with the blanks around it. -/
def readKeyPart (cs : List Char) : Except Fault (String × List Char) :=
  let cs := skipSpaces cs
  let found : Except Fault (String × List Char) :=
    match cs with
    | '"' :: rest => (readBasic (rest.length + 1) rest).map fun (t, r) => (String.ofList t, r)
    | '\'' :: rest => (readLiteral rest).map fun (t, r) => (String.ofList t, r)
    | _ =>
        if (cs.takeWhile isKeyChar).isEmpty then fail "invalid key" cs
        else .ok (String.ofList (cs.takeWhile isKeyChar), cs.dropWhile isKeyChar)
  found.map fun (part, rest) => (part, skipSpaces rest)

/-- Reads the parts of a key that follow its first one; a point that no part follows is left. -/
def readKeyTail : (fuel : Nat) → List Char → List String × List Char
  | 0, cs => ([], cs)
  | fuel + 1, cs =>
      match cs with
      | '.' :: rest =>
          match readKeyPart rest with
          | .ok (part, rest) =>
              let (parts, rest) := readKeyTail fuel rest
              (part :: parts, rest)
          | .error _ => ([], cs)
      | _ => ([], cs)

/-- Reads a key as the front of its parts and the last one. -/
def readKey (cs : List Char) : Except Fault ((List String × String) × List Char) := do
  let (first, rest) ← readKeyPart cs
  let (parts, rest) := readKeyTail cs.length rest
  let all := first :: parts
  .ok ((all.dropLast, parts.getLast?.getD first), rest)

/-! ## Numbers and dates -/

/-- Digits with single underscores between them. -/
def takeDigits (isDigit : Char → Bool) : List Char → List Char × List Char
  | [] => ([], [])
  | '_' :: c :: rest =>
      if isDigit c then
        let (digits, rest) := takeDigits isDigit rest
        (c :: digits, rest)
      else ([], '_' :: c :: rest)
  | c :: rest =>
      if isDigit c then
        let (digits, rest) := takeDigits isDigit rest
        (c :: digits, rest)
      else ([], c :: rest)

/-- Digits with single underscores between them, the first of which is a digit. -/
def readDigits (isDigit : Char → Bool) : List Char → List Char × List Char
  | '_' :: rest => ([], '_' :: rest)
  | cs => takeDigits isDigit cs

/-- The number that digits write in a base. -/
def numberOf (base : Nat) (digits : List Char) : Nat :=
  digits.foldl (fun n c => n * base + (Json.hexValue? c).getD 0) 0

/-- A whole number, if it fits. -/
def whole (n : Int) (place rest : List Char) : Except Fault (Json × List Char) :=
  if Json.maxInt64 < n then fail "number too large to fit in target type" place
  else if n < Json.minInt64 then fail "number too small to fit in target type" place
  else .ok (.int n, rest)

/-- A number without bound. -/
def infinite (negative : Bool) : Json :=
  .number (.real ⟨if negative then 0xFFF0000000000000 else 0x7FF0000000000000⟩)

/-- What is no number. -/
def notNumber : Json :=
  .number (.real ⟨0x7FF8000000000000⟩)

/-- The number of some digits times a power of ten. -/
def real (negative : Bool) (digits : List Char) (power : Int) : Json :=
  let n := numberOf 10 digits
  let found :=
    if power + digits.length < -400 then some (Binary64.zero negative)
    else if 400 < power ∧ n ≠ 0 then none
    else if 0 ≤ power then Binary64.ofRatio negative (n * Nat.pow 10 power.toNat) 1
    else Binary64.ofRatio negative n (Nat.pow 10 (-power).toNat)
  match found with
  | some x => .number (.real x)
  | none => infinite negative

/-- The whole part of a decimal number: a zero, or digits that do not start with one. -/
def readWholePart : List Char → List Char × List Char
  | '0' :: rest => (['0'], rest)
  | cs => readDigits Char.isDigit cs

/-- Reads an exponent, if one is here. -/
def readExponent : List Char → Except Fault (Option Int × List Char)
  | [] => .ok (none, [])
  | c :: rest =>
      if c == 'e' || c == 'E' then
        let (negative, cs) :=
          match rest with
          | '-' :: r => (true, r)
          | '+' :: r => (false, r)
          | r => (false, r)
        let (digits, after) := readDigits Char.isDigit cs
        if digits.isEmpty then fail "invalid floating-point number" cs
        else
          let n : Int := min (numberOf 10 digits) 100000
          .ok (some (if negative then -n else n), after)
      else .ok (none, c :: rest)

/-- Reads a decimal number after its sign. -/
def readDecimal (negative : Bool) (cs : List Char) : Except Fault (Json × List Char) :=
  let (before, rest) := readWholePart cs
  if before.isEmpty then fail "invalid integer" rest
  else
    match rest with
    | '.' :: after =>
        let (behind, rest) := readDigits Char.isDigit after
        if behind.isEmpty then fail "invalid floating-point number\nexpected digit" after
        else do
          let (power, rest) ← readExponent rest
          .ok (real negative (before ++ behind) (power.getD 0 - behind.length), rest)
    | _ => do
        let (power, rest) ← readExponent rest
        match power with
        | some power => .ok (real negative before power, rest)
        | none =>
            let n : Int := numberOf 10 before
            whole (if negative then -n else n) cs rest

/-- Reads a number after its sign. -/
def readUnsigned (signed negative : Bool) (cs : List Char) : Except Fault (Json × List Char) :=
  let based (base : Nat) (isDigit : Char → Bool) (rest : List Char) :
      Except Fault (Json × List Char) :=
    let (digits, after) := readDigits isDigit rest
    if digits.isEmpty then fail "invalid integer" rest else whole (numberOf base digits) cs after
  match cs with
  | 'i' :: 'n' :: 'f' :: rest => .ok (infinite negative, rest)
  | 'n' :: 'a' :: 'n' :: rest => .ok (notNumber, rest)
  | '0' :: 'x' :: rest =>
      if signed then readDecimal negative cs
      else based 16 (fun c => (Json.hexValue? c).isSome) rest
  | '0' :: 'o' :: rest =>
      if signed then readDecimal negative cs else based 8 (fun c => '0' ≤ c ∧ c ≤ '7') rest
  | '0' :: 'b' :: rest =>
      if signed then readDecimal negative cs else based 2 (fun c => c == '0' || c == '1') rest
  | _ => readDecimal negative cs

/-- Whether characters have the form of a pattern, in which `d` stands for any digit. -/
def hasForm : List Char → List Char → Bool
  | [], _ => true
  | _ :: _, [] => false
  | p :: ps, c :: cs => (if p == 'd' then c.isDigit else p == c) && hasForm ps cs

/-- Whether a date is here. -/
def isDate (cs : List Char) : Bool :=
  hasForm "dddd-dd-dd".toList cs

/-- Whether a time of day is here. -/
def isTime (cs : List Char) : Bool :=
  hasForm "dd:dd:dd".toList cs

/-- Reads a date, a time of day or both, as a text. -/
def readDate? (cs : List Char) : Option (String × List Char) :=
  let isPart (c : Char) : Bool := c.isDigit || "+-:.Zz".toList.contains c
  if isDate cs then
    let date := cs.take 10
    match cs.drop 10 with
    | c :: rest =>
        if (c == 'T' || c == 't' || c == ' ') && isTime rest then
          some (String.ofList (date ++ 'T' :: rest.takeWhile isPart), rest.dropWhile isPart)
        else some (String.ofList date, c :: rest)
    | [] => some (String.ofList date, [])
  else if isTime cs then some (String.ofList (cs.takeWhile isPart), cs.dropWhile isPart)
  else none

/-- Reads what starts with a sign or a digit. -/
def readNumber (cs : List Char) : Except Fault (Json × List Char) :=
  match readDate? cs with
  | some (text, rest) => .ok (.text text, rest)
  | none =>
      match cs with
      | '-' :: rest => readUnsigned true true rest
      | '+' :: rest => readUnsigned true false rest
      | _ => readUnsigned false false cs

/-! ## Tables -/

/-- Changes the table at a path of names, which is made where it is missing; a list stands for its
last item.  There is none if something else stands on the path. -/
def update (change : Table → Option Table) : List String → Table → Option Table
  | [], table => change table
  | name :: path, table =>
      match Json.lookup name table with
      | none => (update change path []).map fun inner => table ++ [(name, .object inner)]
      | some (.object inner) =>
          (update change path inner).map fun inner =>
            table.map fun f => if f.1 = name then (name, .object inner) else f
      | some (.list items) =>
          match items.getLast? with
          | some (.object inner) =>
              (update change path inner).map fun inner =>
                table.map fun f =>
                  if f.1 = name then (name, .list (items.dropLast ++ [.object inner])) else f
          | _ => none
      | some _ => none

/-- Gives a name a value, unless it has one. -/
def insertNew (name : String) (value : Json) (table : Table) : Option Table :=
  if (Json.lookup name table).isSome then none else some (table ++ [(name, value)])

/-- The message for a name that is given twice in a table at a path. -/
def duplicate (path : List String) (name : String) : String :=
  if path.isEmpty then s!"duplicate key `{name}` in document root"
  else s!"duplicate key `{name}` in table `" ++ ".".intercalate path ++ "`"

/-! ## Values -/

/-- The message for what is no value. -/
def noValue : String := "invalid string\nexpected `\"`, `'`"

mutual

/-- Reads a value; `fuel` bounds the depth and the number of items. -/
def readValue : (fuel : Nat) → List Char → Except Fault (Json × List Char)
  | 0, cs => fail "recursion limit exceeded" cs
  | _, [] => fail "" []
  | fuel + 1, c :: rest =>
      if c == '"' || c == '\'' then
        (readQuoted (c :: rest)).map fun (text, rest) => (.text text, rest)
      else if c == '[' then
        (readItems fuel rest).map fun (items, rest) => (.list items, rest)
      else if c == '\x7b' then
        (readFields fuel [] (skipSpaces rest)).map fun (fields, rest) => (.object fields, rest)
      else if c == '+' || c == '-' || c.isDigit then readNumber (c :: rest)
      else if c == '_' then fail "invalid integer\nexpected leading digit" (c :: rest)
      else if c == '.' then
        fail "invalid floating-point number\nexpected leading digit" (c :: rest)
      else
        match c :: rest with
        | 't' :: 'r' :: 'u' :: 'e' :: rest => .ok (.bool true, rest)
        | 'f' :: 'a' :: 'l' :: 's' :: 'e' :: rest => .ok (.bool false, rest)
        | 'i' :: 'n' :: 'f' :: rest => .ok (infinite false, rest)
        | 'n' :: 'a' :: 'n' :: rest => .ok (notNumber, rest)
        | cs => fail noValue cs

/-- Reads the items of a list up to its bracket. -/
def readItems : (fuel : Nat) → List Char → Except Fault (List Json × List Char)
  | 0, cs => fail "recursion limit exceeded" cs
  | fuel + 1, cs =>
      match skipLines (cs.length + 1) cs with
      | ']' :: rest => .ok ([], rest)
      | [] => fail "invalid array\nexpected `]`" []
      | cs => do
          let (item, rest) ← readValue fuel cs
          match skipLines (rest.length + 1) rest with
          | ',' :: rest => do
              let (items, rest) ← readItems fuel rest
              .ok (item :: items, rest)
          | ']' :: rest => .ok ([item], rest)
          | rest => fail "invalid array\nexpected `]`" rest

/-- Reads the named values of a table within a line up to its brace. -/
def readFields : (fuel : Nat) → Table → List Char → Except Fault (Table × List Char)
  | 0, _, cs => fail "recursion limit exceeded" cs
  | _, table, '\x7d' :: rest => .ok (table, rest)
  | fuel + 1, table, cs => do
      let ((path, name), rest) ← readKey cs
      match rest with
      | '=' :: after => do
          let (value, rest) ← readValue fuel (skipSpaces after)
          match update (insertNew name value) path table with
          | none => fail s!"duplicate key `{name}`" cs
          | some table =>
              match skipSpaces rest with
              | ',' :: rest => readFields fuel table (skipSpaces rest)
              | '\x7d' :: rest => .ok (table, rest)
              | rest => fail "invalid inline table\nexpected `\x7d`" rest
      | rest => fail "invalid inline table\nexpected `.`, `=`" rest

end

/-! ## Documents -/

/-- What has been read of a document. -/
structure Progress where
  root : Table
  /-- The table that names belong to. -/
  here : List String
  /-- The tables that have had a header. -/
  headed : List (List String)

/-- Reads a line that gives a name a value. -/
def readPair (p : Progress) (cs : List Char) : Except Fault (Progress × List Char) := do
  let ((path, name), rest) ← readKey cs
  match rest with
  | '=' :: after => do
      let (value, rest) ← readValue (cs.length + 1) (skipSpaces after)
      let rest ← endLine "" rest
      match update (insertNew name value) (p.here ++ path) p.root with
      | some root => .ok ({ p with root := root }, rest)
      | none => fail (duplicate p.here name) cs
  | _ => fail "expected `.`, `=`" rest

/-- Reads the header of a table. -/
def readTableHeader (p : Progress) (cs : List Char) : Except Fault (Progress × List Char) := do
  let ((path, name), rest) ← readKey (cs.drop 1)
  match rest with
  | ']' :: after => do
      let rest ← endLine "invalid table header\n" after
      let all := path ++ [name]
      match p.headed.contains all, update some all p.root with
      | false, some root => .ok (⟨root, all, all :: p.headed⟩, rest)
      | _, _ => fail (duplicate path name) cs
  | _ => fail "invalid table header\nexpected `.`, `]`" rest

/-- Adds an empty table to a list of tables, which is made where it is missing. -/
def addItem (name : String) (table : Table) : Option Table :=
  match Json.lookup name table with
  | none => some (table ++ [(name, .list [.object []])])
  | some (.list items) =>
      some (table.map fun f => if f.1 = name then (name, .list (items ++ [.object []])) else f)
  | some _ => none

/-- Reads the header of a table that is an item of a list. -/
def readItemHeader (p : Progress) (cs : List Char) : Except Fault (Progress × List Char) := do
  let ((path, name), rest) ← readKey (cs.drop 2)
  match rest with
  | ']' :: ']' :: after => do
      let rest ← endLine "invalid table header\n" after
      match update (addItem name) path p.root with
      | some root => .ok (⟨root, path ++ [name], p.headed⟩, rest)
      | none => fail (duplicate path name) cs
  | _ => fail "invalid table header\nexpected `.`, `]]`" rest

/-- Reads the lines of a document; `fuel` bounds their number. -/
def readLines : (fuel : Nat) → Progress → List Char → Except Fault Progress
  | 0, p, _ => .ok p
  | fuel + 1, p, cs =>
      match skipLines (cs.length + 1) cs with
      | [] => .ok p
      | cs => do
          let (p, rest) ←
            match cs with
            | '[' :: '[' :: _ => readItemHeader p cs
            | '[' :: _ => readTableHeader p cs
            | _ => readPair p cs
          readLines fuel p rest

/-- Reads a document. -/
def parse (text : String) : Except String Table :=
  let cs := text.toList
  match readLines (cs.length + 1) ⟨[], [], []⟩ cs with
  | .ok p => .ok p.root
  | .error fault => .error (fault.report cs)

end FossilRecord.Config.Toml
