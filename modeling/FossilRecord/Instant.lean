import FossilRecord.Text.Blank
import FossilRecord.Text.Octets

/-!
# Points in time

An instant is kept as its date and time of day in UTC.  It is written with as many fraction digits
as are needed, 0, 3, 6 or 9, and read from the same form in any time zone.  Two readers differ in
how strictly they take the form.
-/

namespace FossilRecord

/-- A date and time of day in UTC.  The second 60 is a leap second. -/
structure Instant where
  year : Int
  month : Nat
  day : Nat
  hour : Nat
  minute : Nat
  second : Nat
  nano : Nat
deriving DecidableEq, Repr

/-- Why a text is no instant. -/
inductive InstantFlaw where
  | outOfRange
  /-- A clock may show it, but the date in UTC is beyond the last year or before the first one. -/
  | impossible
  | badChars
  | tooShort
  | tooLong
deriving DecidableEq, Repr

/-- The words for a flaw. -/
def InstantFlaw.message : InstantFlaw → String
  | .outOfRange => "input is out of range"
  | .impossible => "no possible date and time matching input"
  | .badChars => "input contains invalid characters"
  | .tooShort => "premature end of input"
  | .tooLong => "trailing input"

namespace Instant

/-- Whether a year has a leap day. -/
def isLeapYear (year : Int) : Bool :=
  year % 4 == 0 && (year % 100 != 0 || year % 400 == 0)

/-- The number of days of a month. -/
def daysIn (year : Int) (month : Nat) : Nat :=
  if month = 2 then (if isLeapYear year then 29 else 28)
  else if month = 4 ∨ month = 6 ∨ month = 9 ∨ month = 11 then 30
  else 31

/-- Whether the fields are those of a date. -/
def isDate (year : Int) (month day : Nat) : Bool :=
  1 ≤ month && month ≤ 12 && 1 ≤ day && day ≤ daysIn year month

/-- The day after a date. -/
def nextDay (t : Instant) : Instant :=
  if t.day < daysIn t.year t.month then { t with day := t.day + 1 }
  else if t.month < 12 then { t with month := t.month + 1, day := 1 }
  else { t with year := t.year + 1, month := 1, day := 1 }

/-- The day before a date. -/
def previousDay (t : Instant) : Instant :=
  if 1 < t.day then { t with day := t.day - 1 }
  else if 1 < t.month then { t with month := t.month - 1, day := daysIn t.year (t.month - 1) }
  else { t with year := t.year - 1, month := 12, day := 31 }

/-- The instant that a clock `offset` minutes ahead of UTC shows as `t`. -/
def toUtc (t : Instant) (offset : Int) : Instant :=
  let shown : Int := (t.hour * 60 + t.minute : Nat)
  let minutes := shown - offset
  let at_ (m : Int) (t : Instant) : Instant :=
    { t with hour := m.toNat / 60, minute := m.toNat % 60 }
  if minutes < 0 then at_ (minutes + 1440) (previousDay t)
  else if 1440 ≤ minutes then at_ (minutes - 1440) (nextDay t)
  else at_ minutes t

/-- `count` decimal digits of a number. -/
def digits : (count : Nat) → Nat → List Char
  | 0, _ => []
  | count + 1, n => digits count (n / 10) ++ [Char.ofNat (48 + n % 10)]

/-- A year: four digits, and a sign when it has more or is before year 0. -/
def yearChars (year : Int) : List Char :=
  if 0 ≤ year ∧ year ≤ 9999 then digits 4 year.toNat
  else
    let ds := Nat.toDigits 10 year.natAbs
    (if year < 0 then '-' else '+') :: List.replicate (4 - ds.length) '0' ++ ds

/-- The fraction of a second, with the fewest digits of 0, 3, 6 and 9. -/
def fractionChars (nano : Nat) : List Char :=
  if nano = 0 then []
  else if nano % 1000000 = 0 then '.' :: digits 3 (nano / 1000000)
  else if nano % 1000 = 0 then '.' :: digits 6 (nano / 1000)
  else '.' :: digits 9 nano

/-- Date and time of day, without a zone. -/
def localChars (t : Instant) : List Char :=
  yearChars t.year ++ '-' :: digits 2 t.month ++ '-' :: digits 2 t.day ++ 'T' ::
    digits 2 t.hour ++ ':' :: digits 2 t.minute ++ ':' :: digits 2 t.second ++ fractionChars t.nano

/-- The form with the zone `Z`, used in JSON. -/
def toZulu (t : Instant) : String :=
  String.ofList (localChars t ++ ['Z'])

/-- The form with the zone `+00:00`, used in stored rows and texts. -/
def toOffset (t : Instant) : String :=
  String.ofList (localChars t ++ "+00:00".toList)

/-- The value of a decimal digit. -/
def digit? (c : Char) : Option Nat :=
  if '0' ≤ c ∧ c ≤ '9' then some (c.toNat - 48) else none

/-- Reads at least `min` and at most `max` digits. -/
def readNumber (min max : Nat) (cs : List Char) : Except InstantFlaw (Nat × List Char) :=
  let front := (cs.take max).takeWhile fun c => (digit? c).isSome
  if Text.octetCount cs < min then .error .tooShort
  else if front.length < min then .error .badChars
  else
    .ok (front.foldl (fun n c => n * 10 + (digit? c).getD 0) 0, cs.drop front.length)

/-- Reads one character. -/
def readChar (expected : Char) : List Char → Except InstantFlaw (List Char)
  | [] => .error .tooShort
  | c :: rest => if c == expected then .ok rest else .error .badChars

/-- Reads the digits of a fraction whose point is read; digits beyond the ninth do not count. -/
def readNano (cs : List Char) : Except InstantFlaw (Nat × List Char) := do
  let (n, rest) ← readNumber 1 9 cs
  let used := cs.length - rest.length
  .ok (n * Nat.pow 10 (9 - used), rest.dropWhile fun c => (digit? c).isSome)

/-- Reads a fraction, if there is one. -/
def readFraction (cs : List Char) : Except InstantFlaw (Nat × List Char) :=
  match cs with
  | '.' :: rest => readNano rest
  | _ => .ok (0, cs)

/-- Reads two digits of an hour or minute of a zone. -/
def readPair (cs : List Char) : Except InstantFlaw (Nat × List Char) :=
  match cs with
  | a :: b :: rest =>
      match digit? a, digit? b with
      | some x, some y => .ok (x * 10 + y, rest)
      | _, _ => .error .badChars
  | [a] => if a.utf8Size < 2 then .error .tooShort else .error .badChars
  | [] => .error .tooShort

/-- Reads a zone, with `separator` between hours and minutes; gives minutes ahead of UTC. -/
def readZone (separator : List Char → Except InstantFlaw (List Char)) (cs : List Char) :
    Except InstantFlaw (Int × List Char) :=
  match cs with
  | [] => .error .tooShort
  | c :: rest =>
      if c == 'Z' || c == 'z' then .ok (0, rest)
      else if c == '+' || c == '-' || c == '\u2212' then do
        let (hours, rest) ← readPair rest
        let rest ← separator rest
        let (minutes, rest) ← readPair rest
        if 59 < minutes then .error .outOfRange
        else
          let ahead : Int := (hours * 60 + minutes : Nat)
          .ok (if c == '+' then ahead else -ahead, rest)
      else .error .badChars

/-- Whether a year is one that an instant can have. -/
def isYear (year : Int) : Bool :=
  -262143 ≤ year && year ≤ 262142

/-- The instant of date and time fields that a clock in a zone shows. -/
def ofFields (year : Int) (month day hour minute second nano : Nat) (offset : Int) :
    Except InstantFlaw Instant :=
  if !isDate year month day || 23 < hour || 59 < minute || 60 < second then .error .outOfRange
  else if offset ≤ -1440 ∨ 1440 ≤ offset then .error .outOfRange
  else if !isYear year then .error .outOfRange
  else
    let t := toUtc ⟨year, month, day, hour, minute, second, nano⟩ offset
    if isYear t.year then .ok t else .error .impossible

/-- Reads the form that rows hold: fixed widths, nothing before or after. -/
def parseStrict (s : String) : Except InstantFlaw Instant := do
  let cs := s.toList
  if Text.octetCount cs < 19 then .error .tooShort
  else
    let (year, cs) ← readNumber 4 4 cs
    let cs ← readChar '-' cs
    let (month, cs) ← readNumber 2 2 cs
    let cs ← readChar '-' cs
    let (day, cs) ← readNumber 2 2 cs
    if !isDate year month day then .error .outOfRange
    else
      match cs with
      | mark :: cs =>
          if mark == 'T' || mark == 't' || mark == ' ' then
            let (hour, cs) ← readNumber 2 2 cs
            let cs ← readChar ':' cs
            let (minute, cs) ← readNumber 2 2 cs
            let cs ← readChar ':' cs
            let (second, cs) ← readNumber 2 2 cs
            let (nano, cs) ← readFraction cs
            if 23 < hour || 59 < minute || 60 < second then .error .outOfRange
            else
              let (offset, cs) ← readZone (readChar ':') cs
              let t ← ofFields year month day hour minute second nano offset
              if cs.isEmpty then .ok t else .error .tooLong
          else .error .badChars
      | [] => .error .tooShort

/-- Reads a number of one to `max` digits after blanks. -/
def readField (max : Nat) (cs : List Char) : Except InstantFlaw (Nat × List Char) :=
  readNumber 1 max (Text.dropBlanks cs)

/-- Reads a year after blanks: up to four digits, or any number of them after a sign. -/
def readYear (cs : List Char) : Except InstantFlaw (Int × List Char) :=
  match Text.dropBlanks cs with
  | '-' :: rest => (readNumber 1 rest.length rest).map fun (n, r) => (-(n : Int), r)
  | '+' :: rest => (readNumber 1 rest.length rest).map fun (n, r) => ((n : Int), r)
  | rest => (readNumber 1 4 rest).map fun (n, r) => ((n : Int), r)

/-- Reads the form that JSON documents hold: blanks may stand between the parts. -/
def parseRelaxed (s : String) : Except InstantFlaw Instant := do
  let (year, cs) ← readYear s.toList
  let cs ← readChar '-' (Text.dropBlanks cs)
  let (month, cs) ← readField 2 cs
  if month < 1 ∨ 12 < month then .error .outOfRange
  else
    let cs ← readChar '-' (Text.dropBlanks cs)
    let (day, cs) ← readField 2 cs
    if day < 1 ∨ 31 < day then .error .outOfRange
    else
      match cs with
      | [] => .error .tooShort
      | mark :: cs =>
          if mark == 'T' || mark == 't' || mark == ' ' then
            let (hour, cs) ← readField 2 cs
            if 23 < hour then .error .outOfRange
            else
              let cs ← readChar ':' (Text.dropBlanks cs)
              let (minute, cs) ← readField 2 cs
              if 59 < minute then .error .outOfRange
              else
                let cs ← readChar ':' (Text.dropBlanks cs)
                let (second, cs) ← readField 2 cs
                if 60 < second then .error .outOfRange
                else
                  let (nano, cs) ← readFraction cs
                  let cs := Text.dropBlanks cs
                  let (offset, cs) ←
                    if ((cs.take 3).map Char.toLower) = ['u', 't', 'c'] then
                      .ok ((0 : Int), cs.drop 3)
                    else
                      readZone
                        (fun cs => .ok (cs.dropWhile fun c => c == ':' || Text.isBlank c)) cs
                  if !(Text.dropBlanks cs).isEmpty then .error .tooLong
                  else ofFields year month day hour minute second nano offset
          else .error .badChars

/-- The date `days` days after 1970-01-01, found by counting whole cycles of 400, 100, 4 and 1 years
from 1 March of year 0. -/
def ofDays (days : Int) : Int × Nat × Nat :=
  let z := days + 719468
  let era := z / 146097
  let dayOfEra := (z % 146097).toNat
  let yearOfEra :=
    (dayOfEra - dayOfEra / 1460 + dayOfEra / 36524 - dayOfEra / 146096) / 365
  let dayOfYear := dayOfEra - (365 * yearOfEra + yearOfEra / 4 - yearOfEra / 100)
  let mp := (5 * dayOfYear + 2) / 153
  let day := dayOfYear - (153 * mp + 2) / 5 + 1
  let month := if mp < 10 then mp + 3 else mp - 9
  let year := (yearOfEra : Int) + era * 400
  (if month ≤ 2 then year + 1 else year, month, day)

/-- The instant some seconds after 1970-01-01T00:00:00Z. -/
def ofUnix (seconds : Int) (nano : Nat) : Instant :=
  let (year, month, day) := ofDays (seconds / 86400)
  let rest := (seconds % 86400).toNat
  ⟨year, month, day, rest / 3600, rest / 60 % 60, rest % 60, nano⟩

end Instant

end FossilRecord
