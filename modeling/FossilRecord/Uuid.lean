import FossilRecord.Json.Printer
import FossilRecord.Json.Reader

/-!
# Identifiers of 128 bits

An identifier is written as five groups of hexadecimal digits.  It is read from that form, from the
32 digits alone, or from the grouped form in braces or after `urn:uuid:`.
-/

namespace FossilRecord

/-- An identifier of 128 bits. -/
structure Uuid where
  bits : BitVec 128
deriving DecidableEq, Repr

/-- Why a text is no identifier. -/
inductive UuidFlaw where
  /-- A character that is neither a digit nor a hyphen, and its index in octets. -/
  | badChar (c : Char) (index : Nat)
  /-- Digits alone, but so many octets of them. -/
  | length (found : Nat)
  /-- So many groups instead of five. -/
  | groupCount (found : Nat)
  /-- A group of the wrong length. -/
  | groupLength (group expected found : Nat)
deriving DecidableEq, Repr

/-- The words for a flaw. -/
def UuidFlaw.message : UuidFlaw → String
  | .badChar c index => s!"invalid character: found `{c}` at {index}"
  | .length found => s!"invalid length: found {found}"
  | .groupCount found => s!"invalid group count: expected 5, found {found}"
  | .groupLength group expected found =>
      s!"invalid group length in group {group}: expected {expected}, found {found}"

namespace Uuid

/-- The identifier with all bits zero. -/
def nil : Uuid := ⟨0⟩

/-- The number that hexadecimal digits write. -/
def hexNumber? : (value : Nat) → List Char → Option Nat
  | value, [] => some value
  | value, c :: rest =>
      match Json.hexValue? c with
      | some d => hexNumber? (value * 16 + d) rest
      | none => none

/-- Reads exactly 32 digits. -/
def ofDigits? (cs : List Char) : Option Uuid :=
  if cs.length = 32 then (hexNumber? 0 cs).map fun n => ⟨BitVec.ofNat 128 n⟩ else none

/-- Splits off `n` characters. -/
def cut (n : Nat) (cs : List Char) : List Char × List Char :=
  (cs.take n, cs.drop n)

/-- Reads five groups of 8, 4, 4, 4 and 12 digits with hyphens between them. -/
def ofGroups? (cs : List Char) : Option Uuid :=
  let (a, rest) := cut 8 cs
  match rest with
  | '-' :: rest =>
      let (b, rest) := cut 4 rest
      match rest with
      | '-' :: rest =>
          let (c, rest) := cut 4 rest
          match rest with
          | '-' :: rest =>
              let (d, rest) := cut 4 rest
              match rest with
              | '-' :: e => ofDigits? (a ++ b ++ c ++ d ++ e)
              | _ => none
          | _ => none
      | _ => none
  | _ => none

/-- The text inside braces. -/
def unbrace? (cs : List Char) : Option (List Char) :=
  match cs with
  | '\x7b' :: rest => if rest.getLast? = some '\x7d' then some rest.dropLast else none
  | _ => none

/-- The text after `urn:uuid:`. -/
def unurn? (cs : List Char) : Option (List Char) :=
  if "urn:uuid:".toList.isPrefixOf cs then some (cs.drop 9) else none

/-- The first character that is neither a hexadecimal digit nor a hyphen, with its index. -/
def firstBadChar (index : Nat) : List Char → Option (Char × Nat)
  | [] => none
  | c :: rest =>
      if c == '-' || (Json.hexValue? c).isSome then firstBadChar (index + c.utf8Size) rest
      else some (c, index)

/-- The indices of the hyphens. -/
def hyphens (index : Nat) : List Char → List Nat
  | [] => []
  | c :: rest => if c == '-' then index :: hyphens (index + 1) rest else hyphens (index + 1) rest

/-- The group of the wrong length, given where the four hyphens are and how long the whole text
is. -/
def groupFlaw (found : List Nat) (whole : Nat) : UuidFlaw :=
  match found with
  | [a, b, c, d] =>
      if a ≠ 8 then .groupLength 0 8 a
      else if b ≠ 13 then .groupLength 1 4 (b - 9)
      else if c ≠ 18 then .groupLength 2 4 (c - 14)
      else if d ≠ 23 then .groupLength 3 4 (d - 19)
      else .groupLength 4 12 (whole - 24)
  | _ => .groupCount (found.length + 1)

/-- Why a text that no form accepts is refused. -/
def flaw (cs : List Char) : UuidFlaw :=
  let (body, offset, plain) : List Char × Nat × Bool :=
    match unbrace? cs with
    | some inner => (inner, 1, false)
    | none =>
        match unurn? cs with
        | some inner => (inner, 9, false)
        | none => (cs, 0, true)
  match firstBadChar offset body with
  | some (c, index) => .badChar c index
  | none =>
      let found := hyphens 0 body
      if found.isEmpty && plain then .length (Text.octetCount cs)
      else groupFlaw found (Text.octetCount cs)

/-- Reads an identifier in any of its forms. -/
def ofChars? (cs : List Char) : Option Uuid :=
  if cs.length = 32 then ofDigits? cs
  else if cs.length = 36 then ofGroups? cs
  else if cs.length = 38 then (unbrace? cs).bind ofGroups?
  else if cs.length = 45 then (unurn? cs).bind ofGroups?
  else none

/-- Reads an identifier, or says why the text is none. -/
def parse (s : String) : Except UuidFlaw Uuid :=
  match ofChars? s.toList with
  | some u => .ok u
  | none => .error (flaw s.toList)

/-- `count` hexadecimal digits of a number. -/
def hexDigits : (count : Nat) → Nat → List Char
  | 0, _ => []
  | count + 1, n => hexDigits count (n / 16) ++ [Json.hexDigit (n % 16)]

/-- The form in five groups. -/
def toChars (u : Uuid) : List Char :=
  let ds := hexDigits 32 u.bits.toNat
  ds.take 8 ++ '-' :: (ds.drop 8).take 4 ++ '-' :: (ds.drop 12).take 4 ++
    '-' :: (ds.drop 16).take 4 ++ '-' :: ds.drop 20

instance : ToString Uuid where
  toString u := String.ofList u.toChars

/-- The identifier that says it was drawn at random, from a number of which 122 bits count. -/
def ofRandom (n : Nat) : Uuid :=
  ⟨BitVec.ofNat 48 (n / Nat.pow 2 74) ++ BitVec.ofNat 4 4 ++ BitVec.ofNat 12 (n / Nat.pow 2 62) ++
    BitVec.ofNat 2 2 ++ BitVec.ofNat 62 n⟩

end Uuid

end FossilRecord
