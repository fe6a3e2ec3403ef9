import FossilRecord.Source.Rule

/-!
# The grammar of Go

A line end ends a statement after a token that can be the last of one.  Types are passed over; since
functions may be values, statements are followed into expressions.
-/

namespace FossilRecord.Source.Go

/-- Whether a brace after a name opens a block, as in the header of a statement. -/
structure Header where
  blocks : Bool

/-- The phrases that rules refer to. -/
inductive Phrase where
  | balanced
  | type
  | expression
  | unary
  | statement
  | block
  | ifStatement
  | literalValue

abbrev R := Rule Phrase Header
abbrev L := Lexeme Header

/-- Words that are no names. -/
def reserved : List String :=
  ["break", "default", "func", "interface", "select", "case", "defer", "go", "map", "struct",
    "chan",
    "else", "goto", "package", "switch", "const", "fallthrough", "if", "range", "type", "continue",
    "for", "import", "return", "var"]

/-- Reserved words that can end a statement. -/
def endingWords : List String := ["break", "continue", "fallthrough", "return"]

/-- The index at which the word before an index starts. -/
def wordBegin (src : Chars) : (fuel : Nat) → Nat → Nat
  | 0, i => i
  | fuel + 1, i =>
      match i with
      | 0 => 0
      | before + 1 =>
          match src[before]? with
          | some c => if isWordChar c then wordBegin src fuel before else i
          | none => i

/-- Whether a line end at once after an index would end a statement. -/
def endsStatement (src : Chars) (i : Nat) : Bool :=
  match i with
  | 0 => false
  | before + 1 =>
      match src[before]? with
      | none => false
      | some c =>
          if c == ')' || c == ']' || c == '\x7d' || c == '"' || c == '\'' || c == '`' then true
          else if c == '+' || c == '-' then 0 < before && src[before - 1]? == some c
          else if isWordChar c then
            let w := String.ofList (slice src (wordBegin src i i) i)
            !reserved.contains w || endingWords.contains w
          else c == '.' && 0 < before &&
            (match src[before - 1]? with | some d => d.isDigit | none => false)

/-- The index after blanks and comments; with `lines` also after line ends. -/
def blanksEnd (src : Chars) (lines : Bool) : (fuel : Nat) → Nat → Nat
  | 0, i => i
  | fuel + 1, i =>
      match src[i]? with
      | none => i
      | some c =>
          if c == ' ' || c == '\t' || c == '\r' || c == '\uFEFF' then
            blanksEnd src lines fuel (i + 1)
          else if c == '\n' && lines then blanksEnd src lines fuel (i + 1)
          else if c == '/' && src[i + 1]? == some '/' then
            blanksEnd src lines fuel (Lexeme.lineEnd src i)
          else if c == '/' && src[i + 1]? == some '*' then
            match Lexeme.find src "*/" (i + 2) with
            | some j =>
                if !lines && Lexeme.hasLineEnd src i j then i
                else blanksEnd src lines fuel (j + 2)
            | none => i
          else i

def skipBlanks (src : Chars) (_ : Header) (i : Nat) : Nat :=
  blanksEnd src (!endsStatement src i) (src.size - i) i

/-- Takes what ends a statement: a semicolon, a line end, or nothing before a closing bracket. -/
def terminator : L := fun src header i =>
  match src[i]? with
  | none => some (i, header)
  | some c =>
      if c == ';' || c == '\n' then some (i + 1, header)
      else if c == ')' || c == '\x7d' then some (i, header)
      else if c == '/' && src[i + 1]? == some '*' then
        (Lexeme.find src "*/" (i + 2)).map fun j => (j + 2, header)
      else none

/-- Takes a raw string. -/
def rawString : L := fun src header i =>
  if src[i]? == some '`' then
    (Lexeme.find src "`" (i + 1)).map fun j => (j + 1, header)
  else none

def isNumberChar (c : Char) : Bool :=
  isWordChar c || c == '.'

/-- Takes a number. -/
def number : L := fun src header i =>
  match src[i]? with
  | some c =>
      let next := match src[i + 1]? with | some d => d.isDigit | none => false
      if c.isDigit || (c == '.' && next) then some (numberEnd src (src.size - i) i, header)
      else none
  | none => none
where
  /-- The index after the characters of a number, a sign after an exponent letter being one. -/
  numberEnd (src : Chars) : (fuel : Nat) → Nat → Nat
    | 0, i => i
    | fuel + 1, i =>
        match src[i]? with
        | some c =>
            if (c == 'e' || c == 'E' || c == 'p' || c == 'P') &&
                (src[i + 1]? == some '+' || src[i + 1]? == some '-') &&
                !(src[i - 1]? == some 'x' || src[i - 1]? == some 'X') then
              numberEnd src fuel (i + 2)
            else if isNumberChar c then numberEnd src fuel (i + 1)
            else i
        | none => i

def t (lexeme : L) : R := .token true lexeme
def sign (s : String) : R := t (.exact s)
def key (s : String) : R := t (.exactUnless s isWordChar)
/-- A sign that none of some characters may follow. -/
def signUnless (s next : String) : R := t (.exactUnless s fun c => next.toList.contains c)
def name : R := t (.word isWordStart isWordChar reserved)
def identifier : R := .node "identifier" name
def expression : R := .phrase .expression
def type : R := .phrase .type
def block : R := .phrase .block
def statement : R := .phrase .statement
def string : R := .any [t (.quotedBy '"'), t rawString, t (.quotedBy '\'')]
def endOfStatement : R := t terminator

/-- Takes a rule as the header of a statement. -/
def inHeader (r : R) : R := .within (fun _ => ⟨true⟩) (fun before _ => before) r

/-- Takes a rule between brackets, where a brace after a name opens a literal again. -/
def inBrackets (r : R) : R := .within (fun _ => ⟨false⟩) (fun before _ => before) r

/-- One bracketed text, whatever it holds. -/
def balancedIn (opening closing : String) : R :=
  .all
    [sign opening,
      .many (.any
        [.phrase .balanced, string, t (.char fun c => !"()[]\x7b\x7d\"'`".toList.contains c)]),
      .opt (sign "\n"), sign closing]

def brackets : R := .seq (.isAhead (sign "[")) (.phrase .balanced)
def braces : R := .seq (.isAhead (sign "\x7b")) (.phrase .balanced)
def parens : R := .seq (.isAhead (sign "(")) (.phrase .balanced)

def parameterList : R := .node "parameter_list" parens

/-- What a function returns. -/
def result : R :=
  .field "result" (.alt parameterList (.node "type" type))

def signature : R :=
  .seq (.field "parameters" parameterList) (.opt result)

def typeName : R :=
  .all [name, .many (.all [sign ".", name]), .opt brackets]

def types : R :=
  .any
    [.all [key "func", parens, .opt (.alt parens type)], .all [key "map", brackets, type],
      .all [key "chan", .opt (sign "<-"), type], .all [sign "<-", key "chan", type],
      .all [sign "*", type], .all [brackets, type], .all [key "struct", braces],
      .all [key "interface", braces], .all [sign "(", inBrackets type, sign ")"],
      .all [sign "~", type], typeName]

/-! ## Expressions -/

def expressionList : R := .node "expression_list" (.list1 (sign ",") expression)

/-- A type that may stand before the braces of a literal. -/
def literalType : R :=
  .any
    [.all [key "map", brackets, type], .all [brackets, type], .all [key "struct", braces],
      .seq (.token true fun _ header i => if header.blocks then none else some (i, header))
        typeName]

def literalElement : R :=
  .node "literal_element" (.alt (.phrase .literalValue) expression)

def literalValue : R :=
  .node "literal_value" (.all
    [sign "\x7b",
      inBrackets (.list (sign ",")
        (.any
          [.node "keyed_element" (.all [literalElement, sign ":", literalElement]),
            literalElement])),
      sign "\x7d"])

def argument : R := .alt (.seq expression (.notAhead (t (.char isWordStart)))) type

def argumentList : R :=
  .node "argument_list" (.all
    [sign "(",
      inBrackets (.list (sign ",") (.seq argument (.opt (sign "...")))), sign ")"])

def primary : R :=
  .any
    [.node "func_literal" (.all [key "func", signature, inBrackets block]),
      .node "composite_literal" (.seq literalType (.phrase .literalValue)),
      .node "type_conversion_expression" (.all
        [.any [.all [brackets, type], .all [key "map", brackets, type], .all [key "chan", type],
          .all [key "func", parens, .opt (.alt parens type)],
          .all [key "interface", braces]],
          sign "(", inBrackets expression, .opt (sign ","), sign ")"]),
      .node "parenthesized_expression" (.all
        [sign "(", inBrackets (.alt expression type), sign ")"]),
      t number, string, identifier]

/-- What may follow an operand. -/
def step : R :=
  .any
    [.node "type_assertion_expression" (.all
      [sign ".", sign "(", inBrackets (.alt (key "type") type), sign ")"]),
      .node "selector_expression" (.seq (sign ".") (.node "field_identifier" name)),
      .node "call_expression" argumentList,
      .node "index_expression" (.all
        [sign "[",
          inBrackets (.many (.any [expression, type, sign ":", sign ","])), sign "]"])]

def operand : R := .fold primary step

def unary : R :=
  .alt
    (.node "unary_expression" (.seq
      (.any [signUnless "+" "+=", signUnless "-" "-=", signUnless "!" "=", signUnless "^" "=",
        sign "*", signUnless "&" "&=", sign "<-"])
      (.phrase .unary)))
    operand

/-- The binary operators, the loosest first. -/
def operators : List R :=
  [sign "||", sign "&&",
    .any [sign "==", sign "!=", sign "<=", sign ">=", signUnless "<" "<-=", signUnless ">" ">="],
    .any [signUnless "+" "+=", signUnless "-" "-=", signUnless "|" "|=", signUnless "^" "="],
    .any [signUnless "*" "=", signUnless "/" "=", signUnless "%" "=", signUnless "<<" "=",
      signUnless ">>" "=", signUnless "&^" "=", signUnless "&" "&=^"]]

/-! ## Statements -/

def assignOperator : R :=
  .any (["=", "+=", "-=", "*=", "/=", "%=", "&^=", "&=", "|=", "^=", "<<=", ">>="].map fun s =>
    if s = "=" then signUnless "=" "=" else sign s)

/-- A statement that may stand in the header of another one. -/
def simpleStatement : R :=
  .any
    [.node "short_var_declaration" (.all [expressionList, sign ":=", expressionList]),
      .node "assignment_statement" (.all [expressionList, assignOperator, expressionList]),
      .node "send_statement" (.all [expression, sign "<-", expression]),
      .node "inc_statement" (.seq expression (.any [sign "++", sign "--"])),
      .node "expression_statement" expression]

def typeSpec : R :=
  .any
    [.node "type_alias" (.all
      [.node "type_identifier" name, .opt brackets, sign "=", type]),
      .node "type_spec" (.all [.node "type_identifier" name, brackets, type]),
      .node "type_spec" (.all [.node "type_identifier" name, type])]

/-- A declaration of one or, in parentheses, of several. -/
def grouped (word : String) (spec : R) : R :=
  .seq (key word)
    (.alt (.all [sign "(", .many (.seq spec endOfStatement), sign ")"]) spec)

def valueSpec (kind : String) : R :=
  .node kind (.all
    [.list1 (sign ",") identifier, .opt (.seq (.notAhead (sign "=")) type),
      .opt (.seq (sign "=") expressionList)])

def declaration : R :=
  .any
    [.node "type_declaration" (grouped "type" typeSpec),
      .node "const_declaration" (grouped "const" (valueSpec "const_spec")),
      .node "var_declaration" (grouped "var" (valueSpec "var_spec"))]

/-- Statements, each with its end; a statement may be empty. -/
def statements : R :=
  .many (.alt (sign ";") (.seq statement endOfStatement))

def ifStatement : R :=
  .node "if_statement" (.all
    [key "if",
      inHeader (.seq (.opt (.seq (.opt simpleStatement) (sign ";"))) expression),
      block, .opt (.seq (key "else") (.alt (.phrase .ifStatement) block))])

def forStatement : R :=
  let rangeClause : R :=
    .node "range_clause" (.all
      [.opt (.seq expressionList (.alt (sign ":=") (signUnless "=" "="))), key "range", expression])
  let forClause : R :=
    .node "for_clause" (.all
      [.opt simpleStatement, sign ";", .opt expression, sign ";", .opt simpleStatement])
  .node "for_statement" (.all
    [key "for", inHeader (.opt (.any [rangeClause, forClause, expression])), block])

def switchCase : R :=
  .any
    [.node "expression_case" (.all
      [key "case", .list1 (sign ",") (.alt (.seq expression (.isAhead (.any [sign ",", sign ":"])))
        type), sign ":", statements]),
      .node "default_case" (.all [key "default", sign ":", statements])]

def switchStatement : R :=
  .node "expression_switch_statement" (.all
    [key "switch",
      inHeader (.seq (.opt (.seq (.opt simpleStatement) (sign ";"))) (.opt simpleStatement)),
      sign "\x7b", .many switchCase, sign "\x7d"])

def selectStatement : R :=
  .node "select_statement" (.all
    [key "select", sign "\x7b",
      .many (.any
        [.node "communication_case" (.all [key "case", simpleStatement, sign ":", statements]),
          .node "default_case" (.all [key "default", sign ":", statements])]),
      sign "\x7d"])

def label : R := .node "label_name" name

def jumpStatement : R :=
  .any
    [.node "return_statement" (.seq (key "return") (.opt expressionList)),
      .node "go_statement" (.seq (key "go") expression),
      .node "defer_statement" (.seq (key "defer") expression),
      .node "break_statement" (.seq (key "break") (.opt label)),
      .node "continue_statement" (.seq (key "continue") (.opt label)),
      .node "goto_statement" (.seq (key "goto") label),
      .node "fallthrough_statement" (key "fallthrough")]

def labeledStatement : R :=
  .node "labeled_statement" (.all [label, signUnless ":" "=", .opt statement])

/-- The rules. -/
def rule : Phrase → R
  | .balanced => .any [balancedIn "(" ")", balancedIn "[" "]", balancedIn "\x7b" "\x7d"]
  | .type => types
  | .literalValue => literalValue
  | .unary => unary
  | .expression => .levels "binary_expression" operators (.phrase .unary)
  | .block => .node "block" (inBrackets (.all [sign "\x7b", statements, sign "\x7d"]))
  | .ifStatement => ifStatement
  | .statement =>
      .any
        [declaration, ifStatement, forStatement, switchStatement, selectStatement, jumpStatement,
          labeledStatement, block, simpleStatement]

def functionDeclaration : R :=
  .any
    [.node "function_declaration" (.all
      [key "func", identifier, .opt brackets, signature, .opt block]),
      .node "method_declaration" (.all
        [key "func", .field "receiver" parameterList, .node "field_identifier" name, signature,
          .opt block])]

def topLevel : R :=
  .any
    [.node "package_clause" (.seq (key "package") name),
      .node "import_declaration" (.seq (key "import")
        (.alt parens (.seq (.opt (.alt name (sign "."))) string))),
      functionDeclaration, statement]

def grammar : Grammar Phrase Header := ⟨rule, skipBlanks⟩

/-- The syntax tree of a source text. -/
def tree (src : Chars) : Node :=
  treeOf grammar ⟨false⟩ "source_file"
    (.many (.any
      [.seq topLevel endOfStatement, sign ";", .node "ERROR" (t (.char fun _ => true))])) src

end FossilRecord.Source.Go
