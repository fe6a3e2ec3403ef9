import FossilRecord.Decimal.Shortest
import FossilRecord.Json.Basic

/-!
# Writing JSON

Two layouts: compact, without any space, and indented by two spaces a level.  Texts escape the
quote, the backslash and the control characters only; numbers that are not whole have the fewest
digits that read back.
-/

namespace FossilRecord.Json

open Decimal (Binary64)

/-- One hexadecimal digit, in lower case. -/
def hexDigit (n : Nat) : Char :=
  if n < 10 then Char.ofNat (48 + n) else Char.ofNat (87 + n)

/-- One character inside a JSON text. -/
def escapedChar (c : Char) : List Char :=
  if c == '"' then ['\\', '"']
  else if c == '\\' then ['\\', '\\']
  else if c == '\x08' then ['\\', 'b']
  else if c == '\x0c' then ['\\', 'f']
  else if c == '\n' then ['\\', 'n']
  else if c == '\r' then ['\\', 'r']
  else if c == '\t' then ['\\', 't']
  else if c.toNat < 0x20 then
    ['\\', 'u', '0', '0', hexDigit (c.toNat / 16), hexDigit (c.toNat % 16)]
  else [c]

/-- A text between double quotes. -/
def renderText (s : String) : List Char :=
  '"' :: s.toList.flatMap escapedChar ++ ['"']

/-- A whole number in decimal. -/
def renderInt (n : Int) : List Char :=
  if n < 0 then '-' :: Nat.toDigits 10 n.natAbs else Nat.toDigits 10 n.natAbs

/-- Digits with a power of ten: positional when the first digit stands from five places behind the
point to sixteen before it, else with an exponent; a positional number always has a point. -/
def renderDigits (found : Decimal.Digits) : List Char :=
  let digits := Nat.toDigits 10 found.value
  let point : Int := digits.length + found.scale
  if found.value = 0 then ['0', '.', '0']
  else if 0 ≤ found.scale ∧ point ≤ 16 then
    digits ++ List.replicate found.scale.toNat '0' ++ ['.', '0']
  else if 0 < point ∧ point ≤ 16 then
    digits.take point.toNat ++ '.' :: digits.drop point.toNat
  else if -5 < point ∧ point ≤ 0 then
    ['0', '.'] ++ List.replicate (-point).toNat '0' ++ digits
  else
    let power := point - 1
    let mark : List Char := if power < 0 then ['e', '-'] else ['e', '+']
    let tail : List Char := mark ++ Nat.toDigits 10 power.natAbs
    match digits with
    | [] => tail
    | [d] => d :: tail
    | d :: rest => d :: '.' :: rest ++ tail

/-- A number that is not whole, with the fewest digits that read back. -/
def renderReal (x : Binary64) : List Char :=
  let sign : List Char := if x.isNegative then ['-'] else []
  sign ++ renderDigits x.shortest

/-- A number. -/
def renderNumber : Number → List Char
  | .whole n => renderInt n
  | .real x => renderReal x

/-- The two letters-only values and the scalars. -/
def renderScalar : Json → List Char
  | .null => ['n', 'u', 'l', 'l']
  | .bool true => ['t', 'r', 'u', 'e']
  | .bool false => ['f', 'a', 'l', 's', 'e']
  | .number n => renderNumber n
  | .text s => renderText s
  | .list _ => []
  | .object _ => []

mutual

/-- A value without spaces. -/
def compactChars : Json → List Char
  | .list items => '[' :: compactItems items ++ [']']
  | .object fields => '\x7b' :: compactFields fields ++ ['\x7d']
  | j => renderScalar j

/-- Items with commas between them. -/
def compactItems : List Json → List Char
  | [] => []
  | [j] => compactChars j
  | j :: rest => compactChars j ++ ',' :: compactItems rest

/-- Fields with commas between them. -/
def compactFields : List (String × Json) → List Char
  | [] => []
  | [(n, j)] => renderText n ++ ':' :: compactChars j
  | (n, j) :: rest => renderText n ++ ':' :: compactChars j ++ ',' :: compactFields rest

end

/-- A new line and the indentation of a level. -/
def newLine (level : Nat) : List Char :=
  '\n' :: List.replicate (2 * level) ' '

mutual

/-- A value indented by two spaces a level, itself at `level`. -/
def prettyChars (level : Nat) : Json → List Char
  | .list [] => ['[', ']']
  | .list (j :: rest) => '[' :: prettyItems (level + 1) (j :: rest) ++ newLine level ++ [']']
  | .object [] => ['\x7b', '\x7d']
  | .object (f :: rest) =>
      '\x7b' :: prettyFields (level + 1) (f :: rest) ++ newLine level ++ ['\x7d']
  | j => renderScalar j

/-- Items, each on a line of its own. -/
def prettyItems (level : Nat) : List Json → List Char
  | [] => []
  | [j] => newLine level ++ prettyChars level j
  | j :: rest => newLine level ++ prettyChars level j ++ ',' :: prettyItems level rest

/-- Fields, each on a line of its own. -/
def prettyFields (level : Nat) : List (String × Json) → List Char
  | [] => []
  | [(n, j)] => newLine level ++ renderText n ++ ':' :: ' ' :: prettyChars level j
  | (n, j) :: rest =>
      newLine level ++ renderText n ++ ':' :: ' ' :: prettyChars level j ++
        ',' :: prettyFields level rest

end

/-- The compact form. -/
def compact (j : Json) : String := String.ofList (compactChars j)

/-- The indented form. -/
def pretty (j : Json) : String := String.ofList (prettyChars 0 j)

end FossilRecord.Json
