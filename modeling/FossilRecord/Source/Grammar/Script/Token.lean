import FossilRecord.Source.Rule

/-!
# Tokens of web scripts

The words, signs and literals that plain and typed scripts share, and the phrases that their rules
refer to.
-/

namespace FossilRecord.Source.Script

/-- Which additions a script may use. -/
structure Flavour where
  /-- Types and what goes with them. -/
  typed : Bool
  /-- Markup elements as expressions. -/
  markup : Bool

/-- The phrases that rules refer to. -/
inductive Phrase where
  | statement
  | declaration
  | block
  | expressions
  | expression
  | unary
  | power
  | leftHand
  | parameters
  | pattern
  | classBody
  | element
  | balanced
  | type
  | typePostfix

abbrev R := Rule Phrase Unit
abbrev L := Lexeme Unit

/-- A blank, of those that may stand between tokens. -/
def isBlank (c : Char) : Bool :=
  Text.isBlank c || c == '\uFEFF' || c == '\u2060' || c == '\u200B'

/-- A character that may start a word. -/
def isNameStart (c : Char) : Bool :=
  32 < c.toNat && !isBlank c && !c.isDigit &&
    !":;`\"'@#.,|^&<=>+-*/\\%?!~()[]\x7b\x7d\x7f".toList.contains c

/-- A character that may go on a word. -/
def isNameChar (c : Char) : Bool :=
  isNameStart c || c.isDigit

/-- The index after blanks and comments. -/
def blanksEnd (src : Chars) : (fuel : Nat) → Nat → Nat
  | 0, i => i
  | fuel + 1, i =>
      match src[i]? with
      | none => i
      | some c =>
          if isBlank c then blanksEnd src fuel (i + 1)
          else if c == '/' && src[i + 1]? == some '/' then
            blanksEnd src fuel (Lexeme.lineEnd src i)
          else if c == '/' && src[i + 1]? == some '*' then
            match Lexeme.find src "*/" (i + 2) with
            | some j => blanksEnd src fuel (j + 2)
            | none => i
          else i

def skipBlanks (src : Chars) (_ : Unit) (i : Nat) : Nat :=
  blanksEnd src (src.size - i) i

/-- The index after a character given by its number, as in `\u0061` and `\u{61}`. -/
def escapeEnd (src : Chars) (i : Nat) : Option Nat :=
  if src[i]? == some '\\' && src[i + 1]? == some 'u' then
    if src[i + 2]? == some '\x7b' then (Lexeme.find src "\x7d" (i + 3)).map (· + 1)
    else some (i + 6)
  else none

/-- The index after the characters of a word. -/
def wordEnd (src : Chars) : (fuel : Nat) → Nat → Nat
  | 0, i => i
  | fuel + 1, i =>
      match src[i]? with
      | none => i
      | some c =>
          if isNameChar c then wordEnd src fuel (i + 1)
          else
            match escapeEnd src i with
            | some j => wordEnd src fuel j
            | none => i

/-- Takes a word that is none of the reserved ones. -/
def word (reserved : List String) : L := fun src _ i =>
  match src[i]? with
  | none => none
  | some c =>
      if isNameStart c || (escapeEnd src i).isSome then
        let j := wordEnd src (src.size - i) i
        if reserved.contains (String.ofList (slice src i j)) then none else some (j, ())
      else none

/-- Words that are no names of variables. -/
def reserved : List String :=
  ["break", "case", "catch", "class", "const", "continue", "debugger", "default", "delete", "do",
    "else", "enum", "extends", "false", "finally", "for", "function", "if", "import", "in",
    "instanceof", "new", "null", "return", "super", "switch", "this", "throw", "true", "try",
    "typeof", "undefined", "var", "void", "while", "with"]

/-- Takes a number. -/
def number : L := fun src _ i =>
  match src[i]? with
  | some c =>
      let next := match src[i + 1]? with | some d => d.isDigit | none => false
      if c.isDigit || (c == '.' && next) then some (numberEnd src (src.size - i) i, ()) else none
  | none => none
where
  /-- The index after the characters of a number, a sign after an exponent letter being one. -/
  numberEnd (src : Chars) : (fuel : Nat) → Nat → Nat
    | 0, i => i
    | fuel + 1, i =>
        match src[i]? with
        | some c =>
            if (c == 'e' || c == 'E') && (src[i + 1]? == some '+' || src[i + 1]? == some '-') then
              numberEnd src fuel (i + 2)
            else if c.isAlphanum || c == '_' || c == '.' then numberEnd src fuel (i + 1)
            else i
        | none => i

/-- The index after the slash that closes a pattern; `inClass` says that a bracket is open. -/
def patternEnd (src : Chars) : (fuel : Nat) → (inClass : Bool) → Nat → Option Nat
  | 0, _, _ => none
  | fuel + 1, inClass, i =>
      match src[i]? with
      | none => none
      | some c =>
          if c == '\n' then none
          else if c == '\\' then patternEnd src fuel inClass (i + 2)
          else if c == '[' then patternEnd src fuel true (i + 1)
          else if c == ']' then patternEnd src fuel false (i + 1)
          else if c == '/' && !inClass then some (Lexeme.span src isNameChar (i + 1))
          else patternEnd src fuel inClass (i + 1)

/-- Takes a pattern between slashes. -/
def regex : L := fun src _ i =>
  if src[i]? == some '/' then (patternEnd src (src.size - i) false (i + 1)).map fun j => (j, ())
  else none

/-- Takes a text between two equal quotes, without any escapes. -/
def verbatim (quote : Char) : L := fun src _ i =>
  if src[i]? == some quote then
    (Lexeme.find src (String.ofList [quote]) (i + 1)).map fun j => (j + 1, ())
  else none

/-- Takes the characters of a template up to a hole or its end. -/
def templateChars : L := fun src _ i =>
  match go src (src.size - i) i with
  | some j => if i < j then some (j, ()) else none
  | none => none
where
  /-- The index after characters of a template. -/
  go (src : Chars) : (fuel : Nat) → Nat → Option Nat
    | 0, i => some i
    | fuel + 1, i =>
        match src[i]? with
        | none => none
        | some c =>
            if c == '`' then some i
            else if c == '$' && src[i + 1]? == some '\x7b' then some i
            else if c == '\\' then go src fuel (i + 2)
            else go src fuel (i + 1)

/-- Succeeds where the next token stands on the same line. -/
def sameLine : L := fun src _ i =>
  if Lexeme.hasLineEnd src i (skipBlanks src () i) then none else some (i, ())

/-- Succeeds where a line ends before the next token, or where nothing but a closing brace
follows. -/
def lineEnds : L := fun src _ i =>
  let j := skipBlanks src () i
  if Lexeme.hasLineEnd src i j || src.size ≤ j || src[j]? == some '\x7d' then some (i, ()) else none

/-- Takes the first line if it names an interpreter. -/
def firstLine : L := fun src _ i =>
  if Lexeme.matchesAt src i ['#', '!'] then some (Lexeme.lineEnd src i, ()) else some (i, ())

def t (lexeme : L) : R := .token true lexeme
def sign (s : String) : R := t (.exact s)
def key (s : String) : R := t (.exactUnless s isNameChar)
/-- A sign that none of some characters may follow. -/
def signUnless (s next : String) : R := t (.exactUnless s fun c => next.toList.contains c)
def anyKey (words : List String) : R := .any (words.map key)
def name : R := t (word reserved)
def anyWord : R := t (word [])
def identifier : R := .node "identifier" name
def string : R := .any [t (.quotedBy '"'), t (.quotedBy '\'')]
def onSameLine : R := .token false sameLine
/-- Succeeds where no line ends before the next token, or where that token, by its first character,
can start no statement. -/
def goesOn (next : String) : R :=
  .alt onSameLine (.isAhead (t (.char fun c => next.toList.contains c)))
def semicolon : R := .alt (sign ";") (.token false lineEnds)
def comma : R := sign ","
def balanced : R := .phrase .balanced
def braces : R := .seq (.isAhead (sign "\x7b")) balanced
def expression : R := .phrase .expression
def type : R := .phrase .type

/-- One bracketed text, whatever it holds. -/
def balancedIn (opening closing : String) : R :=
  .all
    [sign opening,
      .many (.any
        [balanced, string, t (.quotedBy '`'),
          t (.char fun c => !"()[]\x7b\x7d\"'`".toList.contains c)]),
      sign closing]

end FossilRecord.Source.Script
