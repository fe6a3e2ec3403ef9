import FossilRecord.Source.Tree
import FossilRecord.Text.Blank

/-!
# Grammar rules

A grammar is a value: one rule for each of its phrases.  A rule is tried at a place of a text and
either fails or gives the place where it ended and the nodes it found, in order.  Alternatives are
tried in turn, the first that succeeds counts, and repetition takes as much as it can.
-/

namespace FossilRecord.Source

/-- Tries a token at a place; gives the place after it and the context there. -/
abbrev Lexeme (σ : Type) := Chars → σ → Nat → Option (Nat × σ)

/-- A rule over phrases `N`, read in a context `σ`. -/
inductive Rule (N σ : Type) where
  /-- Takes nothing. -/
  | empty
  /-- Takes a token, after blanks if `spaced`. -/
  | token (spaced : Bool) (lexeme : Lexeme σ)
  /-- Takes one and then the other. -/
  | seq (first second : Rule N σ)
  /-- Takes one or, if that fails, the other. -/
  | alt (first second : Rule N σ)
  /-- Takes as many in a row as there are. -/
  | many (item : Rule N σ)
  /-- Takes a phrase. -/
  | phrase (name : N)
  /-- Makes a node of what it takes. -/
  | node (kind : String) (body : Rule N σ)
  /-- Names the field that the nodes taken fill. -/
  | field (name : String) (body : Rule N σ)
  /-- Takes a base and then steps, each of which is one node that everything before becomes the
  front of. -/
  | fold (base step : Rule N σ)
  /-- Takes nothing, where the body would succeed, or would fail. -/
  | ahead (wanted : Bool) (body : Rule N σ)
  /-- Takes the body in another context; `leave` is given the contexts before and at its end. -/
  | within (enter : σ → σ) (leave : σ → σ → σ) (body : Rule N σ)

/-- A language: its rules, and where the next token starts. -/
structure Grammar (N σ : Type) where
  rule : N → Rule N σ
  skipBlanks : Chars → σ → Nat → Nat

/-- A place in a text, while a node is being read. -/
structure Place (σ : Type) where
  /-- The end of the last token. -/
  next : Nat
  /-- Where what was taken for the node starts, if anything was. -/
  first? : Option Nat
  context : σ

namespace Place

variable {σ : Type}

/-- The place as one where a node begins. -/
def opened (here : Place σ) : Place σ :=
  { here with first? := none }

/-- Where the node that was begun at a place starts: with the first of what was taken for it or, if
nothing was, at the place. -/
def startSince (there here : Place σ) : Nat :=
  there.first?.getD here.next

/-- The place for the node around the one that was begun at another place. -/
def closed (there here : Place σ) : Place σ :=
  { there with first? := here.first?.or (some (there.startSince here)) }

end Place

/-- What a rule gives at a place. -/
abbrev Reading (σ : Type) := Option (Place σ × List Node)

namespace Rule

variable {N σ : Type}

/-- Where a token is looked for. -/
def tokenStart (g : Grammar N σ) (src : Chars) (spaced : Bool) (here : Place σ) : Nat :=
  if spaced then g.skipBlanks src here.context here.next else here.next

/-- Tries a token. -/
def readToken (g : Grammar N σ) (src : Chars) (spaced : Bool) (lexeme : Lexeme σ)
    (here : Place σ) : Reading σ :=
  match lexeme src here.context (tokenStart g src spaced here) with
  | none => none
  | some (stop, context) =>
      if tokenStart g src spaced here < stop then
        some (⟨stop, here.first?.or (some (tokenStart g src spaced here)), context⟩, [])
      else some ({ here with context := context }, [])

/-- Makes the front of a step of everything before it. -/
def nest (start : Nat) (left : List Node) : List Node → List Node
  | [] => left
  | step :: rest => nest start [step.extend start left] rest

/-- Tries a rule at a place; `again` tries phrases and further repetitions. -/
def readWith (g : Grammar N σ) (src : Chars) (again : Rule N σ → Place σ → Reading σ) :
    Rule N σ → Place σ → Reading σ
  | .empty, here => some (here, [])
  | .token spaced lexeme, here => readToken g src spaced lexeme here
  | .seq first second, here =>
      match readWith g src again first here with
      | none => none
      | some (there, xs) =>
          match readWith g src again second there with
          | none => none
          | some (beyond, ys) => some (beyond, xs ++ ys)
  | .alt first second, here =>
      match readWith g src again first here with
      | none => readWith g src again second here
      | found => found
  | .many item, here =>
      match readWith g src again item here with
      | none => some (here, [])
      | some (there, xs) =>
          if there.next ≤ here.next then some (here, [])
          else
            match again (.many item) there with
            | none => some (there, xs)
            | some (beyond, ys) => some (beyond, xs ++ ys)
  | .phrase name, here => again (g.rule name) here
  | .node kind body, here =>
      match readWith g src again body here.opened with
      | none => none
      | some (there, xs) =>
          some (there.closed here, [.mk kind "" (there.startSince here) there.next xs])
  | .field name body, here =>
      match readWith g src again body here with
      | none => none
      | some (there, xs) => some (there, xs.map (·.withField name))
  | .fold base step, here =>
      match readWith g src again base here.opened with
      | none => none
      | some (there, xs) =>
          let around := there.closed here
          match again (.many step) around with
          | none => some (around, xs)
          | some (beyond, ys) => some (beyond, nest (there.startSince here) xs ys)
  | .ahead wanted body, here =>
      match readWith g src again body here with
      | none => if wanted then none else some (here, [])
      | some _ => if wanted then some (here, []) else none
  | .within enter leave body, here =>
      match readWith g src again body { here with context := enter here.context } with
      | none => none
      | some (there, xs) =>
          some ({ there with context := leave here.context there.context }, xs)

/-- Tries a rule at a place.  `fuel` bounds how deep phrases and repetitions nest. -/
def read (g : Grammar N σ) (src : Chars) : (fuel : Nat) → Rule N σ → Place σ → Reading σ
  | 0, _, _ => none
  | fuel + 1, rule, here => readWith g src (read g src fuel) rule here

/-! ## Rules made of rules -/

/-- Takes some rules in a row. -/
def all : List (Rule N σ) → Rule N σ
  | [] => .empty
  | [r] => r
  | r :: rest => .seq r (all rest)

/-- Never succeeds. -/
def never : Rule N σ := .token false fun _ _ _ => none

/-- Takes the first of some rules that succeeds. -/
def any : List (Rule N σ) → Rule N σ
  | [] => never
  | [r] => r
  | r :: rest => .alt r (any rest)

/-- Takes a rule if it succeeds. -/
def opt (r : Rule N σ) : Rule N σ := .alt r .empty

/-- Takes one or more in a row. -/
def some1 (r : Rule N σ) : Rule N σ := .seq r (.many r)

/-- Takes some, with a separator between any two, which may also stand at the end. -/
def list (separator item : Rule N σ) : Rule N σ :=
  opt (.seq item (.seq (.many (.seq separator item)) (opt separator)))

/-- Takes one or more, with a separator between any two. -/
def list1 (separator item : Rule N σ) : Rule N σ :=
  .seq item (.many (.seq separator item))

/-- Succeeds without taking anything where the rule would fail. -/
def notAhead (r : Rule N σ) : Rule N σ := .ahead false r

/-- Succeeds without taking anything where the rule would succeed. -/
def isAhead (r : Rule N σ) : Rule N σ := .ahead true r

/-- Levels of operators that bind from the left, the loosest first, over an operand. -/
def levels (kind : String) (operators : List (Rule N σ)) (operand : Rule N σ) : Rule N σ :=
  operators.foldr (fun operator tighter => .fold tighter (.node kind (.seq operator tighter)))
    operand

end Rule

/-! ## Tokens -/

/-- A letter, an underscore, or any character beyond ASCII that is no blank. -/
def isWordStart (c : Char) : Bool :=
  c.isAlpha || c == '_' || (128 ≤ c.toNat && !Text.isBlank c)

/-- A character of a word. -/
def isWordChar (c : Char) : Bool :=
  isWordStart c || c.isDigit

namespace Lexeme

variable {σ : Type}

/-- The characters of `word` from an index on. -/
def matchesAt (src : Chars) (index : Nat) : List Char → Bool
  | [] => true
  | c :: rest => src[index]? == some c && matchesAt src (index + 1) rest

/-- The index after the longest run of characters that satisfy a test; `fuel` bounds its length. -/
def runEnd (src : Chars) (test : Char → Bool) : (fuel : Nat) → Nat → Nat
  | 0, i => i
  | fuel + 1, i =>
      match src[i]? with
      | some c => if test c then runEnd src test fuel (i + 1) else i
      | none => i

/-- The index after the longest run of characters that satisfy a test. -/
def span (src : Chars) (test : Char → Bool) (i : Nat) : Nat :=
  runEnd src test (src.size - i) i

/-- Takes exactly these characters. -/
def exact (word : String) : Lexeme σ := fun src context i =>
  let cs := word.toList
  if matchesAt src i cs then some (i + cs.length, context) else none

/-- Takes these characters unless one that satisfies a test follows. -/
def exactUnless (word : String) (test : Char → Bool) : Lexeme σ := fun src context i =>
  let cs := word.toList
  if matchesAt src i cs then
    match src[i + cs.length]? with
    | some c => if test c then none else some (i + cs.length, context)
    | none => some (i + cs.length, context)
  else none

/-- Takes a word: a character that may start one and those that may go on, unless the word is
reserved. -/
def word (starts goesOn : Char → Bool) (reserved : List String) : Lexeme σ :=
  fun src context i =>
    match src[i]? with
    | some c =>
        if starts c then
          let j := span src goesOn (i + 1)
          if reserved.contains (String.ofList (slice src i j)) then none else some (j, context)
        else none
    | none => none

/-- Takes one character that satisfies a test. -/
def char (test : Char → Bool) : Lexeme σ := fun src context i =>
  match src[i]? with
  | some c => if test c then some (i + 1, context) else none
  | none => none

/-- The index after a closing character, passing over characters after a backslash; `fuel` bounds
the length. -/
def closingEnd (src : Chars) (close : Char) : (fuel : Nat) → Nat → Option Nat
  | 0, _ => none
  | fuel + 1, i =>
      match src[i]? with
      | none => none
      | some c =>
          if c == close then some (i + 1)
          else if c == '\\' then closingEnd src close fuel (i + 2)
          else closingEnd src close fuel (i + 1)

/-- Takes a text between two equal quotes, where a backslash takes away the meaning of the next
character. -/
def quotedBy (quote : Char) : Lexeme σ := fun src context i =>
  if src[i]? == some quote then
    (closingEnd src quote (src.size - i) (i + 1)).map fun j => (j, context)
  else none

/-- The index of the first occurrence of `word`; `fuel` bounds the search. -/
def findFrom (src : Chars) (word : List Char) : (fuel : Nat) → Nat → Option Nat
  | 0, _ => none
  | fuel + 1, i =>
      if matchesAt src i word then some i
      else if src.size ≤ i then none
      else findFrom src word fuel (i + 1)

/-- The index of the first occurrence of `word` from an index on. -/
def find (src : Chars) (word : String) (i : Nat) : Option Nat :=
  findFrom src word.toList (src.size + 1 - i) i

/-- The index of the end of the line. -/
def lineEnd (src : Chars) (i : Nat) : Nat :=
  span src (· ≠ '\n') i

/-- Whether some character of a span satisfies a test; `fuel` bounds its length. -/
def anyWithin (src : Chars) (test : Char → Bool) : (fuel : Nat) → Nat → Nat → Bool
  | 0, _, _ => false
  | fuel + 1, i, j =>
      if j ≤ i then false
      else
        match src[i]? with
        | some c => test c || anyWithin src test fuel (i + 1) j
        | none => false

/-- Whether a line ends within a span. -/
def hasLineEnd (src : Chars) (i j : Nat) : Bool :=
  anyWithin src (fun c => c == '\n' || c == '\u2028' || c == '\u2029') (j - i) i j

end Lexeme

/-- The tree that a phrase gives for a whole text, with a root of some kind. -/
def treeOf {N σ : Type} (g : Grammar N σ) (context : σ) (root : String) (body : Rule N σ)
    (src : Chars) : Node :=
  match Rule.read g src (80 * (src.size + 4)) body ⟨0, none, context⟩ with
  | some (_, children) => .mk root "" 0 src.size children
  | none => .mk root "" 0 src.size []

end FossilRecord.Source
