/-!
# UTF-8 octets

Reading octets as characters, strictly (where the first bad octet is) and leniently (each longest
bad piece becomes one replacement character).
-/

namespace FossilRecord.Text

/-- What stands at the front of a run of octets. -/
inductive Front where
  /-- A character and the octets after it. -/
  | char (c : Char) (rest : List UInt8)
  /-- So many octets, one to three, that start no character. -/
  | bad (count : Nat) (rest : List UInt8)
  /-- The start of a character that the end of the octets cuts off. -/
  | cut

/-- The octets a second octet may be, after a first one that starts a longer character. -/
def secondRange (first : UInt8) : Nat × Nat :=
  if first == 0xE0 then (0xA0, 0xBF)
  else if first == 0xED then (0x80, 0x9F)
  else if first == 0xF0 then (0x90, 0xBF)
  else if first == 0xF4 then (0x80, 0x8F)
  else (0x80, 0xBF)

/-- Whether an octet is one of a range. -/
def within (range : Nat × Nat) (b : UInt8) : Bool :=
  range.1 ≤ b.toNat && b.toNat ≤ range.2

/-- The lower six bits of an octet. -/
def low6 (b : UInt8) : Nat :=
  b.toNat % 64

/-- The character or the bad piece at the front; `none` at the end of the octets. -/
def front? : List UInt8 → Option Front
  | [] => none
  | a :: rest =>
      let n := a.toNat
      some <|
        if n < 0x80 then .char (Char.ofNat n) rest
        else if n < 0xC2 || 0xF4 < n then .bad 1 rest
        else
          match rest with
          | [] => .cut
          | b :: rest₂ =>
              if !within (secondRange a) b then .bad 1 rest
              else if n < 0xE0 then .char (Char.ofNat ((n - 0xC0) * 64 + low6 b)) rest₂
              else
                match rest₂ with
                | [] => .cut
                | c :: rest₃ =>
                    if !within (0x80, 0xBF) c then .bad 2 rest₂
                    else if n < 0xF0 then
                      .char (Char.ofNat (((n - 0xE0) * 64 + low6 b) * 64 + low6 c)) rest₃
                    else
                      match rest₃ with
                      | [] => .cut
                      | d :: rest₄ =>
                          if !within (0x80, 0xBF) d then .bad 3 rest₃
                          else
                            .char (Char.ofNat
                              ((((n - 0xF0) * 64 + low6 b) * 64 + low6 c) * 64 + low6 d)) rest₄

/-- Reads `fuel` pieces at most; every piece takes an octet, so as many as there are octets do. -/
def lenientChars : (fuel : Nat) → List UInt8 → List Char
  | 0, _ => []
  | fuel + 1, octets =>
      match front? octets with
      | none => []
      | some (.char c rest) => c :: lenientChars fuel rest
      | some (.bad _ rest) => '\uFFFD' :: lenientChars fuel rest
      | some .cut => ['\uFFFD']

/-- Octets as characters, each longest bad piece read as one replacement character. -/
def lenient (octets : List UInt8) : List Char :=
  lenientChars octets.length octets

/-- Why octets are no UTF-8 text: the index of the first bad piece, and its length unless the end
cuts it off. -/
structure OctetFault where
  index : Nat
  length : Option Nat
deriving DecidableEq, Repr

/-- The message that names the faulty place. -/
def OctetFault.message (f : OctetFault) : String :=
  match f.length with
  | some n => s!"invalid utf-8 sequence of {n} bytes from index {f.index}"
  | none => s!"incomplete utf-8 byte sequence from index {f.index}"

/-- Reads characters until the first bad piece; `index` is the index of the first octet. -/
def strictChars : (fuel : Nat) → (index : Nat) → List UInt8 → Except OctetFault (List Char)
  | 0, _, _ => .ok []
  | fuel + 1, index, octets =>
      match front? octets with
      | none => .ok []
      | some (.char c rest) => (strictChars fuel (index + c.utf8Size) rest).map (c :: ·)
      | some (.bad n _) => .error ⟨index, some n⟩
      | some .cut => .error ⟨index, none⟩

/-- Octets as a text, or where they stop being one. -/
def strict (octets : List UInt8) : Except OctetFault String :=
  (strictChars octets.length 0 octets).map String.ofList

/-- How many octets characters take. -/
def octetCount (cs : List Char) : Nat :=
  cs.foldr (fun c n => c.utf8Size + n) 0

/-- The octets of a text. -/
def octets (s : String) : List UInt8 :=
  s.toUTF8.toList

end FossilRecord.Text
