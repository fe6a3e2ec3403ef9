import FossilRecord.Decimal.Rounded
import FossilRecord.Json.Decode
import FossilRecord.Json.Printer
import FossilRecord.Store.Cell

/-!
# What a column makes of a value

A column holds texts or whole numbers.  A number that is put where texts are held becomes the text
that writes it; a text that is put where numbers are held becomes the number that it writes, if it
writes one; and a number without a fraction becomes a whole number there, if it fits.  Every other
value stays what it is.
-/

namespace FossilRecord.Store

open Decimal (Binary64)

/-- A space, or one of the five control characters from the tabulator to the carriage return. -/
def isSpace (c : Char) : Bool :=
  c == ' ' || (9 ≤ c.toNat && c.toNat ≤ 13)

/-- The value of decimal digits. -/
def digitsValue (cs : List Char) : Nat :=
  cs.foldl (fun n c => n * 10 + (c.toNat - 48)) 0

/-- Takes a sign, if there is one; whether it is a minus, and what follows. -/
def takeSign : List Char → Bool × List Char
  | '-' :: rest => (true, rest)
  | '+' :: rest => (false, rest)
  | rest => (false, rest)

/-- The greatest power of ten that is told apart from greater ones. -/
def maxPower : Nat := 10000

/-- The power of ten that ends a number, which may be left out; nothing may follow it. -/
def powerOf? : List Char → Option Int
  | [] => some 0
  | c :: rest =>
      let (negative, digits) := takeSign rest
      if (c == 'e' || c == 'E') && !digits.isEmpty && digits.all Char.isDigit then
        let n : Int := min (digitsValue digits) maxPower
        some (if negative then -n else n)
      else none

/-- A number beyond all others. -/
def infinite (negative : Bool) : Binary64 :=
  ⟨if negative then 0xFFF0000000000000 else 0x7FF0000000000000⟩

/-- The number of the binary format that is nearest to digits times a power of ten. -/
def nearest (negative : Bool) (value : Nat) (power : Int) : Binary64 :=
  let found :=
    if 0 ≤ power then Binary64.ofRatio negative (value * Nat.pow 10 power.toNat) 1
    else Binary64.ofRatio negative value (Nat.pow 10 (-power).toNat)
  found.getD (infinite negative)

/-- The number that a text writes, with spaces around it: a whole number if there are digits only
and they fit. -/
def numberOf? (s : String) : Option Cell :=
  let cs := ((s.toList.dropWhile isSpace).reverse.dropWhile isSpace).reverse
  let (negative, cs) := takeSign cs
  let whole := cs.takeWhile Char.isDigit
  let rest := cs.dropWhile Char.isDigit
  let (fraction, tail) : List Char × List Char :=
    match rest with
    | '.' :: more => (more.takeWhile Char.isDigit, more.dropWhile Char.isDigit)
    | _ => ([], rest)
  if whole.isEmpty && fraction.isEmpty then none
  else
    let value := digitsValue (whole ++ fraction)
    let signed : Int := if negative then -(value : Int) else value
    if rest.isEmpty ∧ Json.minInt64 ≤ signed ∧ signed ≤ Json.maxInt64 then some (.integer signed)
    else
      (powerOf? tail).map fun power => .real (nearest negative value (power - fraction.length))

/-- A number without a fraction as a whole number, if it lies between the bounds of 64 bits. -/
def wholeIfPossible : Cell → Cell
  | .real x =>
      if x.isWhole ∧ Json.minInt64 < x.truncated ∧ x.truncated < Json.maxInt64 then
        .integer x.truncated
      else .real x
  | c => c

/-- The digits that the text of a number has at most. -/
def textDigits : Nat := 15

/-- The text of a number that may have a fraction: positional when its first digit stands from four
places behind the point to fifteen before it, else with a power of ten of two digits or more; there
is always a point with a digit on either side. -/
def realText (x : Binary64) : List Char :=
  let sign : List Char := if x.isNegative && x.mantissa != 0 then ['-'] else []
  let found := x.roundedTo textDigits
  let digits := Nat.toDigits 10 found.value
  let power : Int := (digits.length : Int) + found.scale - 1
  let body : List Char :=
    if x.exponentBits = 2047 then ['I', 'n', 'f']
    else if found.value = 0 then ['0', '.', '0']
    else if power < -4 ∨ (textDigits : Int) ≤ power then
      let mark := if power < 0 then '-' else '+'
      let places := Nat.toDigits 10 power.natAbs
      let behind := if digits.length ≤ 1 then ['0'] else digits.drop 1
      digits.take 1 ++ '.' :: behind ++ 'e' :: mark ::
        (List.replicate (2 - places.length) '0' ++ places)
    else if power < 0 then
      ['0', '.'] ++ List.replicate ((-power).toNat - 1) '0' ++ digits
    else if 0 ≤ found.scale then
      digits ++ List.replicate found.scale.toNat '0' ++ ['.', '0']
    else digits.take (power.toNat + 1) ++ '.' :: digits.drop (power.toNat + 1)
  sign ++ body

/-- Columns that hold whole numbers; all others hold texts. -/
def numberColumns : List String := ["version", "seq", "line_number"]

/-- A value as a column takes it. -/
def fit (column : String) (c : Cell) : Cell :=
  if numberColumns.contains column then
    match c with
    | .text s => ((numberOf? s).map wholeIfPossible).getD c
    | other => wholeIfPossible other
  else
    match c with
    | .integer n => .text (String.ofList (Json.renderInt n))
    | .real x => .text (String.ofList (realText x))
    | other => other

end FossilRecord.Store
