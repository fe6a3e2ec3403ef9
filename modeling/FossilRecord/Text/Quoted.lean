import FossilRecord.Text.VisibleTable

/-!
# Texts quoted for a reader

A text between double quotes, with every character that a reader could not see or tell apart written
as an escape.
-/

namespace FossilRecord.Text

/-- Whether a character is written by its number in a quoted text. -/
def isWrittenByNumber (c : Char) : Bool :=
  let n := c.toNat
  let within (r : Nat × Nat) : Bool := r.1 ≤ n && n ≤ r.2
  if 0x20 ≤ n && n < 0x7F then false
  else graphemeExtendRanges.any within || invisibleRanges.any within

/-- One character as a quoted text shows it. -/
def quotedChar (c : Char) : List Char :=
  if c == '\x00' then ['\\', '0']
  else if c == '\t' then ['\\', 't']
  else if c == '\r' then ['\\', 'r']
  else if c == '\n' then ['\\', 'n']
  else if c == '"' || c == '\\' then ['\\', c]
  else if isWrittenByNumber c then
    ['\\', 'u', '\x7b'] ++ Nat.toDigits 16 c.toNat ++ ['\x7d']
  else [c]

/-- A text in double quotes, with escapes. -/
def quoted (s : String) : String :=
  String.ofList ('"' :: s.toList.flatMap quotedChar ++ ['"'])

end FossilRecord.Text
