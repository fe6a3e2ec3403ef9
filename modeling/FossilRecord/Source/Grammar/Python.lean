import FossilRecord.Source.Rule

/-!
# The grammar of Python

Blocks follow the indentation of lines.  Declarations stand in statements only, so expressions are
passed over token by token, with brackets and strings taken as wholes.
-/

namespace FossilRecord.Source.Python

/-- The columns at which open blocks stand, the innermost first, and whether a bracket is open. -/
structure Layout where
  columns : List Nat
  bracketed : Bool

/-- The phrases that rules refer to. -/
inductive Phrase where
  | bracket
  | soup (colons : Bool)
  | suite
  | statement

abbrev R := Rule Phrase Layout
abbrev L := Lexeme Layout

/-- The index after blanks, comments and joined lines; line ends count as blanks in brackets. -/
def blanksEnd (src : Chars) (bracketed : Bool) : (fuel : Nat) → Nat → Nat
  | 0, i => i
  | fuel + 1, i =>
      match src[i]? with
      | none => i
      | some c =>
          if c == ' ' || c == '\t' || c == '\r' || c == '\x0c' || c == '\uFEFF' then
            blanksEnd src bracketed fuel (i + 1)
          else if c == '\n' && bracketed then blanksEnd src bracketed fuel (i + 1)
          else if c == '#' then blanksEnd src bracketed fuel (Lexeme.lineEnd src i)
          else if c == '\\' then
            if src[i + 1]? == some '\n' then blanksEnd src bracketed fuel (i + 2)
            else if src[i + 1]? == some '\r' && src[i + 2]? == some '\n' then
              blanksEnd src bracketed fuel (i + 3)
            else i
          else i

def skipBlanks (src : Chars) (layout : Layout) (i : Nat) : Nat :=
  blanksEnd src layout.bracketed (src.size - i) i

/-- The index of the first character of the next line that holds more than blanks and a comment. -/
def linesEnd (src : Chars) : (fuel : Nat) → Nat → Nat
  | 0, i => i
  | fuel + 1, i =>
      let j := blanksEnd src false (src.size - i) i
      if src[j]? == some '\n' then linesEnd src fuel (j + 1) else j

/-- The width of the blanks from the start of a line up to an index, a tab counting eight. -/
def columnFrom (src : Chars) : (fuel : Nat) → (column : Nat) → Nat → Nat
  | 0, column, _ => column
  | fuel + 1, column, i =>
      match src[i]? with
      | some ' ' => columnFrom src fuel (column + 1) (i + 1)
      | some '\t' => columnFrom src fuel (column + 8) (i + 1)
      | some '\x0c' => columnFrom src fuel 0 (i + 1)
      | some '\r' => columnFrom src fuel column (i + 1)
      | some '\uFEFF' => columnFrom src fuel column (i + 1)
      | _ => column

/-- The index at which the line of a character starts. -/
def lineStart (src : Chars) : (fuel : Nat) → Nat → Nat
  | 0, i => i
  | fuel + 1, i =>
      match i with
      | 0 => 0
      | before + 1 => if src[before]? == some '\n' then i else lineStart src fuel before

/-- The column at which the line of a character starts to hold something. -/
def columnOf (src : Chars) (i : Nat) : Nat :=
  columnFrom src src.size 0 (lineStart src i i)

/-- Takes the end of a line and the lines after it that hold nothing. -/
def newline : L := fun src layout i =>
  match src[i]? with
  | some '\n' => some (linesEnd src (src.size - i) (i + 1), layout)
  | none => some (i, layout)
  | _ => none

/-- The innermost column. -/
def Layout.column (layout : Layout) : Nat := layout.columns.headD 0

/-- Succeeds at the start of a line that stands deeper, which opens a block. -/
def indent : L := fun src layout i =>
  let column := columnOf src i
  if i < src.size && layout.column < column then
    some (i, { layout with columns := column :: layout.columns })
  else none

/-- Succeeds at the start of a line in the innermost block. -/
def sameColumn : L := fun src layout i =>
  if i < src.size && columnOf src i == layout.column then some (i, layout) else none

/-- Succeeds at the start of a line that stands less deep, which closes a block. -/
def dedent : L := fun src layout i =>
  if src.size ≤ i || columnOf src i < layout.column then
    some (i, { layout with columns := layout.columns.drop 1 })
  else none

/-- Takes the rest of a line, whatever it holds. -/
def wholeLine : L := fun src layout i =>
  if src.size ≤ i then none
  else
    let j := Lexeme.lineEnd src i
    some (linesEnd src (src.size - j) (j + 1), layout)

/-- The letters that may stand before the quotes of a string. -/
def isStringLetter (c : Char) : Bool :=
  "rRbBuUfFtT".toList.contains c

mutual

/-- The index after the quotes that close a string. -/
def stringEnd (src : Chars) (quote : String) (formatted : Bool) : (fuel : Nat) → Nat → Option Nat
  | 0, _ => none
  | fuel + 1, i =>
      match src[i]? with
      | none => none
      | some c =>
          if Lexeme.matchesAt src i quote.toList then some (i + quote.length)
          else if c == '\\' then stringEnd src quote formatted fuel (i + 2)
          else if formatted && c == '\x7b' then
            if src[i + 1]? == some '\x7b' then stringEnd src quote formatted fuel (i + 2)
            else
              match holeEnd src fuel 0 (i + 1) with
              | some j => stringEnd src quote formatted fuel j
              | none => none
          else if c == '\n' && quote.length == 1 then none
          else stringEnd src quote formatted fuel (i + 1)

/-- The index after the brace that closes a hole of a formatted string. -/
def holeEnd (src : Chars) : (fuel : Nat) → (depth : Nat) → Nat → Option Nat
  | 0, _, _ => none
  | fuel + 1, depth, i =>
      match src[i]? with
      | none => none
      | some c =>
          if c == '\x7d' then
            match depth with
            | 0 => some (i + 1)
            | depth + 1 => holeEnd src fuel depth (i + 1)
          else if c == '\x7b' then holeEnd src fuel (depth + 1) (i + 1)
          else if c == '"' || c == '\'' then
            let quote := quoteAt src i c
            match stringEnd src quote false fuel (i + quote.length) with
            | some j => holeEnd src fuel depth j
            | none => none
          else holeEnd src fuel depth (i + 1)

/-- The quotes that open a string: one, or three. -/
def quoteAt (src : Chars) (i : Nat) (c : Char) : String :=
  if src[i + 1]? == some c && src[i + 2]? == some c then String.ofList [c, c, c]
  else String.ofList [c]

end

/-- Takes a string with the letters before it. -/
def string : L := fun src layout i =>
  let j := Lexeme.span src isStringLetter i
  match src[j]? with
  | some c =>
      if (c == '"' || c == '\'') && j - i ≤ 3 then
        let letters := slice src i j
        let formatted := letters.any fun c => "fFtT".toList.contains c
        let quote := quoteAt src j c
        (stringEnd src quote formatted (2 * src.size) (j + quote.length)).map fun e => (e, layout)
      else none
  | none => none

/-- Takes a word, a number or a sign that is no bracket, quote or end of a statement. -/
def plain (colons : Bool) : L := fun src layout i =>
  match src[i]? with
  | none => none
  | some c =>
      if isWordChar c then some (Lexeme.span src isWordChar i, layout)
      else if "()[]\x7b\x7d\"'\n;\\".toList.contains c then none
      else if c == ':' then
        if src[i + 1]? == some '=' then some (i + 2, layout)
        else if colons then some (i + 1, layout)
        else none
      else if c == '-' && src[i + 1]? == some '>' then some (i + 2, layout)
      else some (i + 1, layout)

def reserved : List String :=
  ["False", "None", "True", "and", "as", "assert", "async", "await", "break", "class", "continue",
    "def", "del", "elif", "else", "except", "finally", "for", "from", "global", "if", "import",
    "in",
    "is", "lambda", "nonlocal", "not", "or", "pass", "raise", "return", "try", "while", "with",
    "yield"]

/-- Words that start a statement with a block, or go on with one. -/
def blockWords : List String :=
  ["if", "elif", "else", "for", "while", "try", "except", "finally", "with", "def", "class"]

def t (lexeme : L) : R := .token true lexeme
def sign (s : String) : R := t (.exact s)
def key (s : String) : R := t (.exactUnless s isWordChar)
def identifier : R := .node "identifier" (t (.word isWordStart isWordChar reserved))
def bracket : R := .phrase .bracket
def suite : R := .phrase .suite

/-- Passes over an expression up to a colon. -/
def header : R := .phrase (.soup false)

def inBrackets (opening closing : String) : R :=
  .seq (sign opening)
    (.within (fun l => { l with bracketed := true })
      (fun before after => { after with bracketed := before.bracketed })
      (.seq
        (.many (.any [bracket, t string, t (plain true), sign ";"]))
        (sign closing)))

/-- A line of statements without blocks. -/
def simpleLine : R :=
  .seq (Rule.notAhead (.any (blockWords.map key)))
    (.seq (.phrase (.soup true))
      (.many (.seq (sign ";") (.phrase (.soup true)))))

/-- A clause that goes on with a statement at the same column. -/
def clause (kind : String) (start : R) : R :=
  .seq (.token false sameColumn) (.node kind (.all [start, sign ":", suite]))

def elseClause : R := Rule.opt (clause "else_clause" (key "else"))

def parameters : R := .node "parameters" bracket

def functionDefinition : R :=
  .node "function_definition" (.all
    [Rule.opt (key "async"), key "def", identifier,
      Rule.opt (Rule.seq (Rule.isAhead (sign "[")) bracket),
      parameters, Rule.opt (.seq (sign "->") (.field "return_type" (.node "type" header))),
      sign ":", suite])

def classDefinition : R :=
  .node "class_definition" (.all
    [key "class", identifier, Rule.opt (Rule.seq (Rule.isAhead (sign "[")) bracket),
      Rule.opt (.node "argument_list" bracket), sign ":", suite])

def decorated : R :=
  .node "decorated_definition" (.seq
    (.some1 (.all
      [.node "decorator" (.seq (sign "@") (.phrase (.soup true))), t newline,
        .token false sameColumn]))
    (.any [functionDefinition, classDefinition]))

def ifStatement : R :=
  .node "if_statement" (.all
    [key "if", header, sign ":", suite,
      .many (clause "elif_clause" (.seq (key "elif") header)), elseClause])

def loopStatement : R :=
  .any
    [.node "for_statement" (.all
      [Rule.opt (key "async"), key "for", header, sign ":", suite, elseClause]),
      .node "while_statement" (.all [key "while", header, sign ":", suite, elseClause])]

def tryStatement : R :=
  .node "try_statement" (.all
    [key "try", sign ":", suite, .many (clause "except_clause" (.seq (key "except") header)),
      elseClause, Rule.opt (clause "finally_clause" (key "finally"))])

def withStatement : R :=
  .node "with_statement" (.all [Rule.opt (key "async"), key "with", header, sign ":", suite])

def matchStatement : R :=
  .node "match_statement" (.all
    [key "match", header, sign ":", t newline, .token false indent,
      .node "block" (.some1 (clause "case_clause" (.seq (key "case") header))),
      .token false dedent])

/-- The rules. -/
def rule : Phrase → R
  | .bracket =>
      .any [inBrackets "(" ")", inBrackets "[" "]", inBrackets "\x7b" "\x7d"]
  | .soup colons =>
      let lambda_ : R :=
        if colons then Rule.never else .all [key "lambda", .phrase (.soup false), sign ":"]
      .many (.any [lambda_, bracket, t string, t (plain colons)])
  | .suite =>
      .alt
        (.all
          [t newline, .token false indent,
            .node "block" (.some1 (.seq (.token false sameColumn) (.phrase .statement))),
            .token false dedent])
        (.seq (.node "block" simpleLine) (t newline))
  | .statement =>
      .any
        [ifStatement, loopStatement, tryStatement, withStatement, matchStatement, decorated,
          functionDefinition, classDefinition, .seq simpleLine (t newline)]

def grammar : Grammar Phrase Layout := ⟨rule, skipBlanks⟩

/-- Takes lines that hold nothing. -/
def leadingLines : L := fun src layout i =>
  some (linesEnd src src.size i, layout)

/-- The syntax tree of a source text. -/
def tree (src : Chars) : Node :=
  treeOf grammar ⟨[0], false⟩ "module"
    (.seq (.token false leadingLines)
      (.many (.alt (.seq (.token false sameColumn) (.phrase .statement))
        (.node "ERROR" (.token false wholeLine))))) src

end FossilRecord.Source.Python
