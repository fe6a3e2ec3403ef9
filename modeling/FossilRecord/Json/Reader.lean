import FossilRecord.Json.Basic
import FossilRecord.Text.Octets

/-!
# Reading JSON

A reader takes the characters left of a text and gives a value and what is left after it, or a
fault: what is wrong and how much of the text was left there.  Nesting is limited to 127 levels.  A
message names the line and, in octets, the column of the fault.
-/

namespace FossilRecord.Json

open Decimal (Binary64)

/-- What can be wrong with a text that is to be JSON. -/
inductive Flaw where
  | endInList
  | endInObject
  | endInText
  | endInValue
  | noColon
  | noListComma
  | noObjectComma
  | noIdent
  | noValue
  | badEscape
  | badNumber
  | numberRange
  | controlChar
  | keyNotText
  | loneSurrogate
  | trailingComma
  | trailingChars
  | hexEnd
  | tooDeep
  /-- A value of the wrong kind, described by a message. -/
  | mismatch (message : String)
deriving DecidableEq, Repr

/-- The words for a flaw. -/
def Flaw.message : Flaw → String
  | .endInList => "EOF while parsing a list"
  | .endInObject => "EOF while parsing an object"
  | .endInText => "EOF while parsing a string"
  | .endInValue => "EOF while parsing a value"
  | .noColon => "expected `:`"
  | .noListComma => "expected `,` or `]`"
  | .noObjectComma => "expected `,` or `\x7d`"
  | .noIdent => "expected ident"
  | .noValue => "expected value"
  | .badEscape => "invalid escape"
  | .badNumber => "invalid number"
  | .numberRange => "number out of range"
  | .controlChar => "control character (\\u0000-\\u001F) found while parsing a string"
  | .keyNotText => "key must be a string"
  | .loneSurrogate => "lone leading surrogate in hex escape"
  | .trailingComma => "trailing comma"
  | .trailingChars => "trailing characters"
  | .hexEnd => "unexpected end of hex escape"
  | .tooDeep => "recursion limit exceeded"
  | .mismatch message => message

/-- A flaw, what was left of the text there, and how many octets of that the place is ahead. -/
structure Fault where
  flaw : Flaw
  rest : List Char
  ahead : Nat
deriving DecidableEq, Repr

/-- A flaw at the place reached. -/
def failHere {α : Type} (flaw : Flaw) (rest : List Char) : Except Fault α :=
  .error ⟨flaw, rest, 0⟩

/-- A flaw at the next octet. -/
def failNext {α : Type} (flaw : Flaw) (rest : List Char) : Except Fault α :=
  .error ⟨flaw, rest, 1⟩

/-- The line, from one, and the column after the first `count` octets of a text. -/
def place : (line column count : Nat) → List Char → Nat × Nat
  | line, column, _, [] => (line, column)
  | line, column, count, c :: rest =>
      if count = 0 then (line, column)
      else if c == '\n' then place (line + 1) 0 (count - 1) rest
      else if count < c.utf8Size then (line, column + count)
      else place line (column + c.utf8Size) (count - c.utf8Size) rest

/-- The message of a fault found in `whole`. -/
def Fault.message (f : Fault) (whole : List Char) : String :=
  let (line, column) := place 1 0 (Text.octetCount whole - Text.octetCount f.rest + f.ahead) whole
  s!"{f.flaw.message} at line {line} column {column}"

/-- A blank between tokens. -/
def isSpace (c : Char) : Bool :=
  c == ' ' || c == '\n' || c == '\t' || c == '\r'

/-- The text from the next token on. -/
def skipSpaces (cs : List Char) : List Char :=
  cs.dropWhile isSpace

/-- Reads the letters of a name such as `null` whose first letter is read. -/
def readLetters : List Char → List Char → Except Fault (List Char)
  | [], cs => .ok cs
  | _ :: _, [] => failHere .endInValue []
  | e :: more, c :: cs => if c == e then readLetters more cs else failHere .noIdent cs

/-- The value of a hexadecimal digit. -/
def hexValue? (c : Char) : Option Nat :=
  if '0' ≤ c ∧ c ≤ '9' then some (c.toNat - 48)
  else if 'a' ≤ c ∧ c ≤ 'f' then some (c.toNat - 87)
  else if 'A' ≤ c ∧ c ≤ 'F' then some (c.toNat - 55)
  else none

/-- Reads four hexadecimal digits. -/
def readHex4 (cs : List Char) : Except Fault (Nat × List Char) :=
  if Text.octetCount (cs.take 4) < 4 then failHere .endInText []
  else
    match cs with
    | a :: b :: c :: d :: rest =>
        match hexValue? a, hexValue? b, hexValue? c, hexValue? d with
        | some a, some b, some c, some d => .ok (((a * 16 + b) * 16 + c) * 16 + d, rest)
        | _, _, _, _ => .error ⟨.badEscape, cs, 4⟩
    | _ => .error ⟨.badEscape, cs, 4⟩

/-- Reads what follows `\u`: one unit, or a leading and a trailing one. -/
def readUnicode (cs : List Char) : Except Fault (Char × List Char) := do
  let (n, rest) ← readHex4 cs
  if 0xDC00 ≤ n ∧ n ≤ 0xDFFF then failHere .loneSurrogate rest
  else if n < 0xD800 ∨ 0xDBFF < n then .ok (Char.ofNat n, rest)
  else
    match rest with
    | [] => failHere .endInText []
    | '\\' :: rest =>
        match rest with
        | [] => failHere .endInText []
        | 'u' :: rest =>
            let (n₂, rest) ← readHex4 rest
            if n₂ < 0xDC00 ∨ 0xDFFF < n₂ then failHere .loneSurrogate rest
            else .ok (Char.ofNat ((n - 0xD800) * 0x400 + (n₂ - 0xDC00) + 0x10000), rest)
        | _ :: _ => failNext .hexEnd rest
    | _ :: _ => failNext .hexEnd rest

/-- Reads what follows a backslash. -/
def readEscape : List Char → Except Fault (Char × List Char)
  | [] => failHere .endInText []
  | c :: rest =>
      match c with
      | '"' => .ok ('"', rest)
      | '\\' => .ok ('\\', rest)
      | '/' => .ok ('/', rest)
      | 'b' => .ok ('\x08', rest)
      | 'f' => .ok ('\x0c', rest)
      | 'n' => .ok ('\n', rest)
      | 'r' => .ok ('\r', rest)
      | 't' => .ok ('\t', rest)
      | 'u' => readUnicode rest
      | _ => failHere .badEscape rest

/-- Reads the characters of a text whose opening quote is read.  Every step takes a character, so
as much fuel as there are characters does. -/
def readTextChars : (fuel : Nat) → List Char → Except Fault (List Char × List Char)
  | _, [] => failHere .endInText []
  | 0, cs => failHere .endInText cs
  | fuel + 1, c :: rest =>
      if c == '"' then .ok ([], rest)
      else if c == '\\' then do
        let (e, rest) ← readEscape rest
        let (more, rest) ← readTextChars fuel rest
        .ok (e :: more, rest)
      else if c.toNat < 0x20 then failHere .controlChar rest
      else do
        let (more, rest) ← readTextChars fuel rest
        .ok (c :: more, rest)

/-- Reads a text whose opening quote is read. -/
def readText (cs : List Char) : Except Fault (String × List Char) := do
  let (chars, rest) ← readTextChars cs.length cs
  .ok (String.ofList chars, rest)

/-- The largest whole number a number keeps digits for. -/
def maxSignificand : Nat := Nat.pow 2 64 - 1

/-- The largest exponent that is kept. -/
def maxExponent : Nat := Nat.pow 2 31 - 1

/-- The value of a decimal digit. -/
def digit? (c : Char) : Option Nat :=
  if '0' ≤ c ∧ c ≤ '9' then some (c.toNat - 48) else none

/-- The text after the digits at its front. -/
def skipDigits (cs : List Char) : List Char :=
  cs.dropWhile fun c => (digit? c).isSome

/-- Scales a rounded significand by a power of ten, 308 decimal places at a time; each step rounds.
`fuel` bounds the steps downwards, and a zero is reached long before it ends. -/
def scaleBy : (fuel : Nat) → Binary64 → Int → Option Binary64
  | 0, x, _ => some (Binary64.zero x.isNegative)
  | fuel + 1, x, exponent =>
      if exponent.natAbs ≤ 308 then
        if 0 ≤ exponent then x.mulPow10 exponent.natAbs else x.divPow10 exponent.natAbs
      else if x.mantissa = 0 then some x
      else if 0 ≤ exponent then none
      else (x.divPow10 308).bind fun y => scaleBy fuel y (exponent + 308)

/-- The number with these digits and this power of ten; `rest` is what is left of the text. -/
def realOf (negative : Bool) (significand : Nat) (exponent : Int) (rest : List Char) :
    Except Fault (Number × List Char) :=
  match Binary64.ofRatio negative significand 1 with
  | none => failHere .numberRange rest
  | some x =>
      match scaleBy 8 x exponent with
      | none => failHere .numberRange rest
      | some y => .ok (.real y, rest)

/-- Reads the digits of an exponent after the first one; `none` when they exceed the largest. -/
def readExponentDigits (value : Nat) : List Char → Option Nat × List Char
  | [] => (some value, [])
  | c :: rest =>
      match digit? c with
      | none => (some value, c :: rest)
      | some d =>
          if maxExponent < value * 10 + d then (none, rest)
          else readExponentDigits (value * 10 + d) rest

/-- Reads an exponent whose letter is read. -/
def readExponent (negative : Bool) (significand : Nat) (start : Int) (cs : List Char) :
    Except Fault (Number × List Char) :=
  let (down, cs) : Bool × List Char :=
    match cs with
    | '+' :: rest => (false, rest)
    | '-' :: rest => (true, rest)
    | _ => (false, cs)
  match cs with
  | [] => failHere .endInValue []
  | c :: rest =>
      match digit? c with
      | none => failHere .badNumber rest
      | some d =>
          match readExponentDigits d rest with
          | (some e, rest) =>
              realOf negative significand (if down then start - e else start + e) rest
          | (none, rest) =>
              if significand != 0 && !down then failHere .numberRange rest
              else .ok (.real (Binary64.zero negative), skipDigits rest)

/-- Goes on to an exponent, if there is one. -/
def readExponentOr (negative : Bool) (significand : Nat) (exponent : Int) (cs : List Char) :
    Except Fault (Number × List Char) :=
  match cs with
  | 'e' :: rest => readExponent negative significand exponent rest
  | 'E' :: rest => readExponent negative significand exponent rest
  | _ => realOf negative significand exponent cs

/-- Reads the digits after the point: the significand, how many places were kept, the rest.  Digits
that no longer fit are passed over. -/
def readFractionDigits (significand places : Nat) : List Char → Nat × Nat × List Char
  | [] => (significand, places, [])
  | c :: rest =>
      match digit? c with
      | none => (significand, places, c :: rest)
      | some d =>
          if maxSignificand < significand * 10 + d then (significand, places, skipDigits rest)
          else readFractionDigits (significand * 10 + d) (places + 1) rest

/-- Reads a fraction whose point is read. -/
def readFraction (negative : Bool) (significand : Nat) (exponent : Int) (cs : List Char) :
    Except Fault (Number × List Char) :=
  match cs with
  | [] => failHere .endInValue []
  | c :: _ =>
      match digit? c with
      | none => failNext .badNumber cs
      | some _ =>
          let (significand, places, rest) := readFractionDigits significand 0 cs
          readExponentOr negative significand (exponent - places) rest

/-- What may follow the digits of a whole number that fits. -/
def readNumberTail (negative : Bool) (significand : Nat) (cs : List Char) :
    Except Fault (Number × List Char) :=
  match cs with
  | '.' :: rest => readFraction negative significand 0 rest
  | 'e' :: rest => readExponent negative significand 0 rest
  | 'E' :: rest => readExponent negative significand 0 rest
  | _ =>
      if !negative then .ok (.whole significand, cs)
      else if 0 < significand ∧ significand ≤ Nat.pow 2 63 then
        .ok (.whole (-(significand : Int)), cs)
      else realOf true significand 0 cs

/-- Reads further digits of a whole number that no longer fits, counting them. -/
def readLong (negative : Bool) (significand : Nat) (count : Nat) :
    List Char → Except Fault (Number × List Char)
  | [] => realOf negative significand count []
  | c :: rest =>
      match digit? c with
      | some _ => readLong negative significand (count + 1) rest
      | none =>
          match c with
          | '.' => readFraction negative significand count rest
          | 'e' => readExponent negative significand count rest
          | 'E' => readExponent negative significand count rest
          | _ => realOf negative significand count (c :: rest)

/-- Reads the digits of a whole number after the first one. -/
def readDigits (negative : Bool) (significand : Nat) :
    List Char → Except Fault (Number × List Char)
  | [] => readNumberTail negative significand []
  | c :: rest =>
      match digit? c with
      | none => readNumberTail negative significand (c :: rest)
      | some d =>
          if maxSignificand < significand * 10 + d then
            readLong negative significand 0 (c :: rest)
          else readDigits negative (significand * 10 + d) rest

/-- Reads a number whose sign is read. -/
def readNumber (negative : Bool) : List Char → Except Fault (Number × List Char)
  | [] => failHere .endInValue []
  | c :: rest =>
      if c == '0' then
        match rest with
        | d :: _ => if (digit? d).isSome then failNext .badNumber rest
            else readNumberTail negative 0 rest
        | [] => readNumberTail negative 0 []
      else
        match digit? c with
        | some d => readDigits negative d rest
        | none => failHere .badNumber rest

/-- Reads one value or fails. -/
abbrev Reader (α : Type) := List Char → Except Fault (α × List Char)

/-- Whether a further item stands at the front of a list, and the text from it on.  The text is
after the opening bracket when `first`, else after an item. -/
def nextItem (first : Bool) (cs : List Char) : Except Fault (Bool × List Char) :=
  match skipSpaces cs with
  | [] => failHere .endInList []
  | ']' :: rest => .ok (false, rest)
  | c :: rest =>
      if first then .ok (true, c :: rest)
      else if c == ',' then
        match skipSpaces rest with
        | [] => failHere .endInValue []
        | ']' :: more => failNext .trailingComma (']' :: more)
        | more => .ok (true, more)
      else failNext .noListComma (c :: rest)

/-- Whether a further field stands at the front of an object, and the text after the opening quote
of its name. -/
def nextField (first : Bool) (cs : List Char) : Except Fault (Bool × List Char) :=
  match skipSpaces cs with
  | [] => failHere .endInObject []
  | '\x7d' :: rest => .ok (false, rest)
  | c :: rest =>
      if first then
        if c == '"' then .ok (true, rest) else failNext .keyNotText (c :: rest)
      else if c == ',' then
        match skipSpaces rest with
        | [] => failHere .endInValue []
        | '"' :: more => .ok (true, more)
        | '\x7d' :: more => failNext .trailingComma ('\x7d' :: more)
        | more => failNext .keyNotText more
      else failNext .noObjectComma (c :: rest)

/-- The text after the colon that follows a field's name. -/
def skipColon (cs : List Char) : Except Fault (List Char) :=
  match skipSpaces cs with
  | [] => failHere .endInObject []
  | ':' :: rest => .ok rest
  | more => failNext .noColon more

/-- Reads the items of a list whose opening bracket is read, each with `item`.  Every item takes a
character, so as much fuel as there are characters does. -/
def readItems {α : Type} (item : Reader α) :
    (fuel : Nat) → (first : Bool) → Reader (List α)
  | 0, _, cs => failHere .endInList cs
  | fuel + 1, first, cs => do
      let (more, cs) ← nextItem first cs
      if more then
        let (x, cs) ← item cs
        let (xs, cs) ← readItems item fuel false cs
        .ok (x :: xs, cs)
      else .ok ([], cs)

/-- Reads the fields of an object whose opening brace is read, in the order of the text. -/
def readFields {α : Type} (item : String → Reader α) :
    (fuel : Nat) → (first : Bool) → Reader (List (String × α))
  | 0, _, cs => failHere .endInObject cs
  | fuel + 1, first, cs => do
      let (more, cs) ← nextField first cs
      if more then
        let (name, cs) ← readText cs
        let cs ← skipColon cs
        let (x, cs) ← item name cs
        let (xs, cs) ← readFields item fuel false cs
        .ok ((name, x) :: xs, cs)
      else .ok ([], cs)

/-- Reads a value that may be nested `depth - 1` levels deep. -/
def readValue : (depth : Nat) → Reader Json
  | depth, cs =>
      match skipSpaces cs with
      | [] => failHere .endInValue []
      | c :: rest =>
          if c == 'n' then do
            let rest ← readLetters ['u', 'l', 'l'] rest
            .ok (.null, rest)
          else if c == 't' then do
            let rest ← readLetters ['r', 'u', 'e'] rest
            .ok (.bool true, rest)
          else if c == 'f' then do
            let rest ← readLetters ['a', 'l', 's', 'e'] rest
            .ok (.bool false, rest)
          else if c == '-' then do
            let (n, rest) ← readNumber true rest
            .ok (.number n, rest)
          else if (digit? c).isSome then do
            let (n, rest) ← readNumber false (c :: rest)
            .ok (.number n, rest)
          else if c == '"' then do
            let (s, rest) ← readText rest
            .ok (.text s, rest)
          else if c == '[' then
            match depth with
            | 0 => failNext .tooDeep (c :: rest)
            | 1 => failNext .tooDeep (c :: rest)
            | inner + 1 => do
                let (items, rest) ← readItems (readValue inner) (rest.length + 1) true rest
                .ok (.list items, rest)
          else if c == '\x7b' then
            match depth with
            | 0 => failNext .tooDeep (c :: rest)
            | 1 => failNext .tooDeep (c :: rest)
            | inner + 1 => do
                let (fields, rest) ←
                  readFields (fun _ => readValue inner) (rest.length + 1) true rest
                .ok (ofFields fields, rest)
          else failNext .noValue (c :: rest)

/-- Nesting at which a value is given up. -/
def depthLimit : Nat := 128

/-- Reads a whole text with a reader; only spaces may follow. -/
def readWhole {α : Type} (reader : Reader α) (cs : List Char) : Except Fault α := do
  let (x, rest) ← reader cs
  match skipSpaces rest with
  | [] => .ok x
  | more => failNext .trailingChars more

/-- Reads a text as one JSON value. -/
def parseChars (cs : List Char) : Except Fault Json :=
  readWhole (readValue depthLimit) cs

/-- Reads a text as one JSON value; the error is the message of the fault. -/
def parse (s : String) : Except String Json :=
  match parseChars s.toList with
  | .ok j => .ok j
  | .error f => .error (f.message s.toList)

end FossilRecord.Json
