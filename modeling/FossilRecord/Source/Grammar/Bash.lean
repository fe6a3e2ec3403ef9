import FossilRecord.Source.Rule

/-!
# The grammar of Bash

A line end is a token, which also takes the texts that redirections announced on the line.
Functions may be defined wherever a command may stand, so substitutions within words are followed
too; arithmetic and conditions are passed over.
-/

namespace FossilRecord.Source.Bash

/-- A text that follows the line: the line that ends it, and whether tabs before that are left
out. -/
structure Announced where
  close : List Char
  indented : Bool

/-- The texts that the rest of the line announced, and whether a back quote is open. -/
structure Context where
  pending : List Announced
  backQuoted : Bool

/-- The phrases that rules refer to. -/
inductive Phrase where
  | balanced
  | word
  | string
  | substitution
  | element
  | compound
  | statement

abbrev R := Rule Phrase Context
abbrev L := Lexeme Context

/-! ## Tokens -/

/-- A character of a word that means itself. -/
def isPlain (c : Char) : Bool :=
  !Text.isBlank c && !";&|<>()\"'`$\\".toList.contains c

/-- A character of a name of a function. -/
def isNamePart (c : Char) : Bool :=
  isPlain c && !"\x7b\x7d[]".toList.contains c

/-- The index after blanks, comments and line ends with a backslash before them. -/
def blanksEnd (src : Chars) : (fuel : Nat) → Nat → Nat
  | 0, i => i
  | fuel + 1, i =>
      match src[i]? with
      | none => i
      | some c =>
          if c != '\n' && Text.isBlank c then blanksEnd src fuel (i + 1)
          else if c == '\\' && src[i + 1]? == some '\n' then blanksEnd src fuel (i + 2)
          else if c == '#' then blanksEnd src fuel (Lexeme.lineEnd src i)
          else i

def skipBlanks (src : Chars) (_ : Context) (i : Nat) : Nat :=
  blanksEnd src (src.size - i) i

/-- The index after the lines up to the one that ends a text; `fuel` bounds their number. -/
def announcedEnd (src : Chars) (text : Announced) : (fuel : Nat) → Nat → Nat
  | 0, i => i
  | fuel + 1, i =>
      if src.size ≤ i then i
      else
        let stop := Lexeme.lineEnd src i
        let start := if text.indented then Lexeme.span src (· == '\t') i else i
        if slice src start stop == text.close then min (stop + 1) src.size
        else announcedEnd src text fuel (stop + 1)

/-- Takes a line end and the texts announced before it. -/
def lineEnd : L := fun src context i =>
  if src[i]? == some '\n' then
    some
      (context.pending.foldl (fun at_ text => announcedEnd src text (src.size - at_) at_) (i + 1),
        { context with pending := [] })
  else none

/-- The characters of a word without its quotes and backslashes. -/
def unquoted : List Char → List Char
  | [] => []
  | '\\' :: c :: rest => c :: unquoted rest
  | c :: rest => if c == '"' || c == '\'' then unquoted rest else c :: unquoted rest

/-- Takes the mark of an announced text and the line that ends it. -/
def announcement : L := fun src context i =>
  if Lexeme.matchesAt src i ['<', '<'] && src[i + 2]? != some '<' then
    let indented := src[i + 2]? == some '-'
    let start := Lexeme.span src (fun c => c == ' ' || c == '\t')
      (if indented then i + 3 else i + 2)
    let stop := Lexeme.span src (fun c => isPlain c || "\"'\\".toList.contains c) start
    if start < stop then
      let text : Announced := ⟨unquoted (slice src start stop), indented⟩
      some (stop, { context with pending := context.pending ++ [text] })
    else none
  else none

/-- Takes plain and escaped characters. -/
def plain : L := fun src context i =>
  let j := plainEnd src (src.size - i) i
  if i < j then some (j, context) else none
where
  /-- The index after plain and escaped characters. -/
  plainEnd (src : Chars) : (fuel : Nat) → Nat → Nat
    | 0, i => i
    | fuel + 1, i =>
        match src[i]? with
        | some c =>
            if isPlain c then plainEnd src fuel (i + 1)
            else if c == '\\' && i + 1 < src.size then plainEnd src fuel (i + 2)
            else i
        | none => i

/-- Takes a text in single quotes. -/
def rawString : L := fun src context i =>
  if src[i]? == some '\'' then
    (Lexeme.find src "'" (i + 1)).map fun j => (j + 1, context)
  else none

/-- Takes a parameter that needs no braces. -/
def parameter : L := fun src context i =>
  if src[i]? == some '$' then
    match src[i + 1]? with
    | some c =>
        if isWordStart c then some (Lexeme.span src isWordChar (i + 1), context)
        else if c.isDigit || "@*#?-$!".toList.contains c then some (i + 2, context)
        else some (i + 1, context)
    | none => some (i + 1, context)
  else none

/-- Takes the name that is assigned to, with its index, and the sign. -/
def target : L := fun src context i =>
  match src[i]? with
  | some c =>
      if isWordStart c then
        let j := Lexeme.span src isWordChar i
        let k :=
          if src[j]? == some '[' then
            match Lexeme.find src "]" j with
            | some close => close + 1
            | none => j
          else j
        if src[k]? == some '=' then some (k + 1, context)
        else if src[k]? == some '+' && src[k + 1]? == some '=' then some (k + 2, context)
        else none
      else none
  | none => none

def t (lexeme : L) : R := .token true lexeme
/-- A token at once after the last one. -/
def joined (lexeme : L) : R := .token false lexeme
/-- Takes blanks, for what is joined to them. -/
def gap : R := joined fun src context i => some (skipBlanks src context i, context)
def sign (s : String) : R := t (.exact s)
/-- A sign that none of some characters may follow. -/
def signUnless (s next : String) : R := t (.exactUnless s fun c => next.toList.contains c)
def key (s : String) : R := t (.exactUnless s fun c => isPlain c || "\"'$\\`".toList.contains c)
def anyKey (words : List String) : R := .any (words.map key)
def newlines : R := .many (t lineEnd)
def word : R := .phrase .word
def statement : R := .phrase .statement

/-- Statements with what separates them. -/
def statements : R :=
  .many (.any [t lineEnd, signUnless ";" ";&", signUnless "&" "&>", statement])

/-- Words that end or go on a statement. -/
def closingWords : List String :=
  ["then", "elif", "else", "fi", "do", "done", "esac", "\x7d", "if", "for", "while", "until",
    "case",
    "select", "function", "\x7b", "[["]

/-! ## Words -/

/-- One text in parentheses, whatever it holds. -/
def balanced : R :=
  .all
    [joined (.exact "("),
      .many (.any
        [.phrase .balanced, joined rawString, .phrase .string, .phrase .substitution,
          .seq (joined (.exact "\\")) (joined (.char fun _ => true)),
          joined (.char fun c => !"()\"".toList.contains c)]),
      joined (.exact ")")]

/-- An expansion in braces. -/
def expansion : R :=
  .all
    [joined (.exact "$\x7b"),
      .many (.any
        [.phrase .substitution, .phrase .string,
          .seq (joined (.exact "\\")) (joined (.char fun _ => true)),
          joined (.char fun c => c != '\x7d')]),
      joined (.exact "\x7d")]

/-- A command or an expansion within a word. -/
def substitution : R :=
  let between (opening closing : String) : R :=
    .all [joined (.exact opening), statements, sign closing]
  .any
    [.all [joined (.exact "$("), .isAhead (joined (.exact "(")), balanced, joined (.exact ")")],
      .node "command_substitution" (.within (fun c => { c with backQuoted := false })
        (fun before after => { after with backQuoted := before.backQuoted }) (between "$(" ")")),
      .node "command_substitution" (.all
        [.token false fun _ context i => if context.backQuoted then none else some (i, context),
          .within (fun c => { c with backQuoted := true })
            (fun before after => { after with backQuoted := before.backQuoted })
            (between "`" "`")]),
      expansion]

/-- A text in double quotes. -/
def string : R :=
  .node "string" (.all
    [joined (.exact "\""),
      .many (.any
        [.phrase .substitution,
          .seq (joined (.exact "\\")) (joined (.char fun _ => true)),
          joined (.char fun c => c != '"' && c != '`')]),
      joined (.exact "\"")])

/-- A part of a word. -/
def piece : R :=
  .any
    [.seq (joined (.char fun c => "?*+@!".toList.contains c)) balanced,
      joined plain, joined rawString, .phrase .string, .seq (joined (.exact "$")) (.phrase .string),
      joined fun src context i =>
        if src[i]? == some '$' then Lexeme.quotedBy '\'' src context (i + 1) else none,
      .phrase .substitution, joined parameter,
      .node "process_substitution" (.all
        [.alt (joined (.exact "<(")) (joined (.exact ">(")), statements, sign ")"])]

/-- A word; one of several parts is a node of its own. -/
def words : R :=
  .seq gap
    (.fold piece (.node "concatenation" (.some1 piece)))

/-- The values of an array. -/
def array : R :=
  .node "array" (.all
    [joined (.exact "("),
      .many (.any [t lineEnd, .seq (t target) (.opt word), word]), sign ")"])

def assignment : R :=
  .node "variable_assignment" (.seq (t target)
    (.opt (.alt array (.fold piece (.node "concatenation" (.some1 piece))))))

/-! ## Redirections -/

def redirection : R :=
  let number : R := .opt (t fun src context i =>
    let j := Lexeme.span src (·.isDigit) i
    if i < j && (src[j]? == some '<' || src[j]? == some '>') then some (j, context) else none)
  let signs : List R :=
    ["<<<", "&>>", "&>", ">>", ">&", ">|", "<&", "<>"].map sign ++
      [signUnless "<" "(<", signUnless ">" "("]
  .node "file_redirect" (.seq number (.alt (t announcement) (.seq (.any signs) word)))

/-! ## Commands -/

def command : R :=
  let argument : R := .any [assignment, word]
  let name : R := .node "command_name" (.seq (.notAhead (anyKey closingWords)) word)
  .alt
    (.fold (.some1 assignment) (.node "command" (.seq name (.many argument))))
    (.alt
      (.node "command" (.seq name (.many (.seq (.notAhead redirection) argument))))
      (.node "redirected_statement"
        (.seq (.some1 redirection) (.opt (.seq name (.many argument))))))

def doGroup : R :=
  .alt (.node "do_group" (.all [key "do", statements, key "done"]))
    (.node "compound_statement" (.all [key "\x7b", statements, sign "\x7d"]))

def test : R :=
  .node "test_command" (.all
    [key "[[",
      .many (.any
        [t lineEnd, .phrase .substitution,
          .seq (.notAhead (key "]]"))
            (.alt word (t (.char fun c => "()<>&|;".toList.contains c)))]),
      key "]]"])

def caseStatement : R :=
  let patterns : R := .list1 (sign "|") word
  .node "case_statement" (.all
    [key "case", word, newlines, key "in", newlines,
      .many (.node "case_item" (.all
        [.notAhead (key "esac"), .opt (sign "("), patterns, sign ")", statements,
          .opt (.any [sign ";;&", sign ";;", sign ";&"]), newlines])),
      key "esac"])

def ifStatement : R :=
  .node "if_statement" (.all
    [key "if", statements, key "then", statements,
      .many (.node "elif_clause" (.all [key "elif", statements, key "then", statements])),
      .opt (.node "else_clause" (.seq (key "else") statements)), key "fi"])

def separators : R := .many (.alt (t lineEnd) (sign ";"))

def forStatement : R :=
  .alt
    (.node "c_style_for_statement" (.all
      [key "for", gap, balanced, separators, doGroup]))
    (.node "for_statement" (.all
      [anyKey ["for", "select"], word, newlines, .opt (.seq (key "in") (.many word)), separators,
        doGroup]))

/-- A command made of commands. -/
def compound : R :=
  .any
    [.node "compound_statement" (.all [key "\x7b", statements, sign "\x7d"]),
      .node "compound_statement" (.all
        [gap, .isAhead (joined (.exact "((")), balanced]),
      .node "subshell" (.all [sign "(", statements, sign ")"]), test, ifStatement, caseStatement,
      forStatement,
      .node "while_statement" (.all [anyKey ["while", "until"], statements, doGroup])]

/-- The name of a function. -/
def functionName : R :=
  .node "word" (.seq (.notAhead (anyKey closingWords))
    (t (.word (fun c => isNamePart c && c != '#') isNamePart [])))

def function : R :=
  let parens : R := .seq (sign "(") (sign ")")
  .node "function_definition" (.all
    [.alt (.all [key "function", functionName, .opt parens]) (.seq functionName parens), newlines,
      .phrase .compound, .many redirection])

def element : R :=
  .alt
    (.node "negated_command" (.seq (key "!") (.phrase .element)))
    (.alt function
      (.fold (.alt (.phrase .compound) command)
        (.node "redirected_statement" (.some1 (.seq redirection (.many word))))))

def pipeline : R :=
  .fold element (.node "pipeline" (.some1
    (.all [.alt (sign "|&") (signUnless "|" "|"), newlines, element])))

/-- The rules. -/
def rule : Phrase → R
  | .balanced => balanced
  | .word => words
  | .string => string
  | .substitution => substitution
  | .element => element
  | .compound => compound
  | .statement =>
      .fold pipeline
        (.node "list" (.all [.alt (sign "&&") (sign "||"), newlines, pipeline]))

def grammar : Grammar Phrase Context := ⟨rule, skipBlanks⟩

/-- The syntax tree of a source text. -/
def tree (src : Chars) : Node :=
  treeOf grammar ⟨[], false⟩ "program"
    (.many (.any
      [t lineEnd, signUnless ";" ";&", signUnless "&" "&>", statement,
        .node "ERROR" (t (.char fun _ => true))])) src

end FossilRecord.Source.Bash
