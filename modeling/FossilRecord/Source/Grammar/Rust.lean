import FossilRecord.Source.Rule

/-!
# The grammar of Rust

Items may stand among the statements of any block, and a block may stand in any expression, so
expressions are followed down to their operands.  Types, patterns and the arguments of macros hold
no items and are passed over.
-/

namespace FossilRecord.Source.Rust

/-- Whether a brace after a path opens a block, as in the header of a conditional. -/
structure Header where
  blocks : Bool

/-- The phrases that rules refer to. -/
inductive Phrase where
  | balanced
  | angled
  | type
  | pattern
  | item
  | statement
  | block
  | ifExpression
  | unary
  | comparison
  | expression

abbrev R := Rule Phrase Header
abbrev L := Lexeme Header

/-- Words that are no names. -/
def reserved : List String :=
  ["as", "async", "await", "break", "const", "continue", "dyn", "else", "enum", "extern", "false",
    "fn", "for", "if", "impl", "in", "let", "loop", "match", "mod", "move", "mut", "pub", "ref",
    "return", "static", "struct", "trait", "true", "type", "unsafe", "use", "where", "while"]

/-! ## Tokens -/

/-- The index after a comment that may hold others; `open_` counts those that are open and `fuel`
bounds the length. -/
def commentEnd (src : Chars) : (fuel open_ : Nat) → Nat → Option Nat
  | 0, _, _ => none
  | fuel + 1, open_, i =>
      match src[i]? with
      | none => none
      | some c =>
          if c == '*' && src[i + 1]? == some '/' then
            if open_ ≤ 1 then some (i + 2) else commentEnd src fuel (open_ - 1) (i + 2)
          else if c == '/' && src[i + 1]? == some '*' then
            commentEnd src fuel (open_ + 1) (i + 2)
          else commentEnd src fuel open_ (i + 1)

/-- The index after blanks and comments. -/
def blanksEnd (src : Chars) : (fuel : Nat) → Nat → Nat
  | 0, i => i
  | fuel + 1, i =>
      match src[i]? with
      | none => i
      | some c =>
          if Text.isBlank c || c == '\uFEFF' then blanksEnd src fuel (i + 1)
          else if c == '/' && src[i + 1]? == some '/' then
            blanksEnd src fuel (Lexeme.lineEnd src i)
          else if c == '/' && src[i + 1]? == some '*' then
            match commentEnd src (src.size - i) 1 (i + 2) with
            | some j => blanksEnd src fuel j
            | none => i
          else i

def skipBlanks (src : Chars) (_ : Header) (i : Nat) : Nat :=
  blanksEnd src (src.size - i) i

/-- Takes the end of an item's first word, which may be marked as no reserved one. -/
def nameToken : L := fun src header i =>
  if Lexeme.matchesAt src i ['r', '#'] then
    Lexeme.word isWordStart isWordChar [] src header (i + 2)
  else Lexeme.word isWordStart isWordChar reserved src header i

/-- Takes a text without escapes, between quotes with as many number signs on either side. -/
def rawString : L := fun src header i =>
  let i := if src[i]? == some 'b' || src[i]? == some 'c' then i + 1 else i
  if src[i]? == some 'r' then
    let j := Lexeme.span src (· == '#') (i + 1)
    if src[j]? == some '"' then
      let close := String.ofList ('"' :: List.replicate (j - (i + 1)) '#')
      (Lexeme.find src close (j + 1)).map fun k => (k + close.length, header)
    else none
  else none

/-- Takes a text with escapes. -/
def plainString : L := fun src header i =>
  let i := if src[i]? == some 'b' || src[i]? == some 'c' then i + 1 else i
  Lexeme.quotedBy '"' src header i

/-- Takes one quoted character. -/
def character : L := fun src header i =>
  let i := if src[i]? == some 'b' then i + 1 else i
  if src[i]? == some '\'' && (src[i + 1]? == some '\\' || src[i + 2]? == some '\'') then
    Lexeme.quotedBy '\'' src header i
  else none

/-- Takes a lifetime or a label. -/
def lifetime : L := fun src header i =>
  if src[i]? == some '\'' then Lexeme.word isWordStart isWordChar [] src header (i + 1) else none

/-- Takes a number. -/
def number : L := fun src header i =>
  match src[i]? with
  | some c =>
      if c.isDigit then
        let hexadecimal := c == '0' && (src[i + 1]? == some 'x' || src[i + 1]? == some 'b')
        some (numberEnd src hexadecimal (src.size - i) i, header)
      else none
  | none => none
where
  /-- The index after the characters of a number: a point belongs to it unless another one or a
  name follows, and so does a sign after an exponent letter. -/
  numberEnd (src : Chars) (hexadecimal : Bool) : (fuel : Nat) → Nat → Nat
    | 0, i => i
    | fuel + 1, i =>
        match src[i]? with
        | some c =>
            if !hexadecimal && (c == 'e' || c == 'E') &&
                (src[i + 1]? == some '+' || src[i + 1]? == some '-') then
              numberEnd src hexadecimal fuel (i + 2)
            else if isWordChar c then numberEnd src hexadecimal fuel (i + 1)
            else if c == '.' && !(match src[i + 1]? with
                | some d => d == '.' || isWordStart d
                | none => false) then
              numberEnd src hexadecimal fuel (i + 1)
            else i
        | none => i

/-- Succeeds unless a semicolon stands just before. -/
def notAfterSemicolon : L := fun src header i =>
  match i with
  | 0 => some (i, header)
  | before + 1 => if src[before]? == some ';' then none else some (i, header)

/-- Succeeds where a brace after a path opens a literal. -/
def literalsOpen : L := fun _ header i => if header.blocks then none else some (i, header)

def t (lexeme : L) : R := .token true lexeme
def sign (s : String) : R := t (.exact s)
def key (s : String) : R := t (.exactUnless s isWordChar)
/-- A sign that none of some characters may follow. -/
def signUnless (s next : String) : R := t (.exactUnless s fun c => next.toList.contains c)
def anyKey (words : List String) : R := .any (words.map key)
def name : R := t nameToken
def identifier : R := .node "identifier" name
def typeIdentifier : R := .node "type_identifier" name
def string : R := .alt (t rawString) (t plainString)
def literal : R := .any [string, t character, t number]
def label : R := t lifetime
def expression : R := .phrase .expression
def type : R := .phrase .type
def pattern : R := .phrase .pattern
def block : R := .phrase .block
def angled : R := .phrase .angled
def comma : R := sign ","

/-- Takes a rule as the header of a conditional or loop. -/
def inHeader (r : R) : R := .within (fun _ => ⟨true⟩) (fun before _ => before) r

/-- Takes a rule between brackets, where a brace after a path opens a literal again. -/
def inBrackets (r : R) : R := .within (fun _ => ⟨false⟩) (fun before _ => before) r

/-- One bracketed text, whatever it holds. -/
def balancedIn (opening closing : String) : R :=
  .all
    [sign opening,
      .many (.any
        [.phrase .balanced, string, t character, name,
          t (.char fun c => !"()[]\x7b\x7d\"".toList.contains c)]),
      sign closing]

def brackets : R := .seq (.isAhead (sign "[")) (.phrase .balanced)
def braces : R := .seq (.isAhead (sign "\x7b")) (.phrase .balanced)
def parens : R := .seq (.isAhead (sign "(")) (.phrase .balanced)

/-- What may stand between the brackets of arguments or after `where`, one token or group at a
time; none of some characters starts it. -/
def looseToken (except : String) : R :=
  .any
    [parens, brackets, angled, sign "->", string, t character, .seq label .empty, name,
      t (.char fun c => !"()[]\x7b\x7d<>\"".toList.contains c && !except.toList.contains c)]

/-! ## Types and patterns -/

/-- The part of a path between two double colons. -/
def pathPart : R :=
  .seq (t (.word isWordStart isWordChar (reserved.filter (· ≠ "fn"))))
    (.opt (.alt (.seq (.opt (sign "::")) angled)
      (.seq parens (.opt (.seq (sign "->") (.phrase .type))))))

/-- The path of a type. -/
def typePath : R :=
  .all
    [.opt (sign "::"), .alt angled pathPart,
      .many (.seq (sign "::") pathPart)]

/-- The path of a type before its last arguments. -/
def bareTypePath : R :=
  .all
    [.opt (sign "::"), name,
      .many (.seq (sign "::") (.seq name (.notAhead (.seq angled (sign "::")))))]

/-- A type that takes arguments, with the type itself as a node of its own. -/
def genericType : R :=
  .node "generic_type" (.all
    [.field "type" (.node "type_identifier" bareTypePath), angled,
      .notAhead (.alt (sign "::") (sign "+"))])

/-- A type up to the next bound. -/
def singleType : R :=
  .any
    [.all [sign "&", .opt label, .opt (key "mut"), .phrase .type],
      .all [sign "*", anyKey ["const", "mut"], .phrase .type],
      .seq (anyKey ["dyn", "impl"]) (.phrase .type),
      .all [key "for", angled, .phrase .type],
      .all [.alt (sign "?") (sign "~"), .opt (key "const"), .phrase .type],
      .all [.many (.alt (key "unsafe") (.seq (key "extern") (.opt string))), key "fn", parens,
        .opt (.seq (sign "->") (.phrase .type))],
      .seq (name) (.seq (signUnless "!" "=") (.phrase .balanced)),
      parens, brackets, signUnless "!" "=", label, typePath]

/-- A type with all its bounds. -/
def types : R :=
  .seq singleType (.many (.seq (signUnless "+" "=") (.alt (.seq (key "use") angled) singleType)))

/-- A type as what it is: only one that takes arguments is told apart. -/
def typeNode : R := .alt genericType (.node "type" type)

/-- A pattern without alternatives. -/
def singlePattern : R :=
  .some1 (.any
    [.phrase .balanced, string, t character, t number, label,
      .seq (sign "::") (.opt angled), signUnless "&" "=", sign "@", sign "..=", sign "...",
      sign "..", sign "-", sign "$",
      .seq (sign "!") (.phrase .balanced), anyKey ["ref", "mut", "box", "true", "false", "const"],
      .seq (.isAhead (sign "<")) angled, name])

def patterns : R := .seq (.opt (sign "|")) (.list1 (sign "|") singlePattern)

/-! ## Expressions -/

def attribute_ : R :=
  .node "attribute_item" (.all [sign "#", .opt (sign "!"), brackets])

/-- The path of a value. -/
def path : R :=
  .all
    [.opt (sign "::"), .alt (.seq angled (.isAhead (sign "::"))) name,
      .many (.seq (sign "::") (.alt angled name))]

def arguments : R :=
  .node "arguments" (.all
    [sign "(", inBrackets (.list comma (.seq (.many attribute_) expression)), sign ")"])

def macroInvocation : R :=
  .node "macro_invocation" (.all [path, signUnless "!" "=", .phrase .balanced])

def fieldInitializers : R :=
  .node "field_initializer_list" (.all
    [sign "\x7b",
      inBrackets (.list comma (.any
        [.node "base_field_initializer" (.seq (sign "..") (.opt expression)),
          .node "field_initializer" (.all
            [.many attribute_, .alt name (t number), sign ":", expression]),
          .node "shorthand_field_initializer" (.seq (.many attribute_) name)])),
      sign "\x7d"])

def structExpression : R :=
  .node "struct_expression" (.all [.token false literalsOpen, path, fieldInitializers])

/-- The condition of a conditional or loop. -/
def condition : R :=
  let letCondition : R :=
    .node "let_condition" (.all [key "let", pattern, signUnless "=" "=", .phrase .comparison])
  let further : R :=
    .node "let_chain" (.some1 (.seq (sign "&&") (.alt letCondition (.phrase .comparison))))
  inHeader (.fold (.alt letCondition expression) further)

def elseClause : R :=
  .node "else_clause" (.seq (key "else") (.alt (.phrase .ifExpression) block))

def ifExpression : R :=
  .node "if_expression" (.all [key "if", condition, block, .opt elseClause])

def matchArm : R :=
  .node "match_arm" (.all
    [.many attribute_,
      .node "match_pattern" (.seq pattern (.opt (.seq (key "if") condition))), sign "=>",
      inBrackets expression, .opt comma])

/-- An expression that ends with a block. -/
def blockExpression : R :=
  let labelled : R := .opt (.seq label (sign ":"))
  .any
    [.node "unsafe_block" (.seq (key "unsafe") block),
      .node "async_block" (.all [key "async", .opt (key "move"), block]),
      .node "try_block" (.seq (key "try") block),
      .node "const_block" (.seq (key "const") block),
      .phrase .ifExpression,
      .node "match_expression" (.all
        [key "match", inHeader expression,
          .node "match_block" (.all
            [sign "\x7b", inBrackets (.seq (.many attribute_) (.many matchArm)), sign "\x7d"])]),
      .node "while_expression" (.all [labelled, key "while", condition, block]),
      .node "loop_expression" (.all [labelled, key "loop", block]),
      .node "for_expression" (.all
        [labelled, key "for", pattern, key "in", inHeader expression, block]),
      .seq labelled block]

def closure : R :=
  let parameter : R := .seq (.many attribute_) (.seq singlePattern (.opt (.seq (sign ":") type)))
  .node "closure_expression" (.all
    [.opt (.seq (key "for") angled), .opt (key "static"), .opt (key "async"), .opt (key "move"),
      sign "|", .list comma parameter,
      sign "|", .alt (.all [sign "->", type, block]) expression])

/-- An expression that leaves a block, perhaps with a value. -/
def jump : R :=
  .any
    [.node "return_expression" (.seq (key "return") (.opt expression)),
      .node "yield_expression" (.seq (key "yield") (.opt expression)),
      .node "break_expression" (.all
        [key "break", .opt (.seq label (.notAhead (sign ":"))),
          .opt (.seq (.notAhead (.seq (sign "\x7b") .empty)) expression)]),
      .node "continue_expression" (.seq (key "continue") (.opt label))]

def primary : R :=
  .any
    [closure, jump, blockExpression, literal, macroInvocation, structExpression,
      .node "tuple_expression" (.all
        [sign "(", inBrackets (.list comma (.seq (.many attribute_) expression)), sign ")"]),
      .node "array_expression" (.all
        [sign "[", inBrackets (.list (.alt comma (sign ";")) (.seq (.many attribute_) expression)),
          sign "]"]),
      .node "boolean_literal" (.alt (key "true") (key "false")), .seq (sign "$") name,
      .node "identifier" path]

/-- What may follow an operand. -/
def step : R :=
  .any
    [.node "await_expression" (.seq (sign ".") (key "await")),
      .node "field_expression" (.seq (signUnless "." ".")
        (.alt (.seq name (.opt (.seq (sign "::") angled))) (t (.word (·.isDigit) (·.isDigit) [])))),
      .node "call_expression" arguments, .node "try_expression" (sign "?"),
      .node "index_expression" (.all [sign "[", inBrackets expression, sign "]"])]

def unary : R :=
  .any
    [.node "unary_expression" (.seq (.any [sign "-", sign "*", sign "!"]) (.phrase .unary)),
      .node "reference_expression" (.all
        [sign "&",
          .opt (.alt (.seq (key "raw") (anyKey ["const", "mut"])) (key "mut")),
          .phrase .unary]),
      .fold primary step]

/-- Comparisons and all that binds tighter. -/
def comparison : R :=
  .levels "binary_expression"
    [.any [sign "==", sign "!=", sign "<=", sign ">=", signUnless "<" "<=", signUnless ">" ">="],
      signUnless "|" "|=", signUnless "^" "=", signUnless "&" "&=",
      .any [signUnless "<<" "=", signUnless ">>" "="],
      .any [signUnless "+" "=", signUnless "-" "="],
      .any [signUnless "*" "=", signUnless "/" "=", signUnless "%" "="]]
    (.fold unary (.node "type_cast_expression" (.seq (key "as") singleType)))

def disjunction : R :=
  .levels "binary_expression" [sign "||", sign "&&"] comparison

def rangeSign : R := .any [sign "..=", sign "...", sign ".."]

/-- Succeeds unless a brace follows that opens the block of a header. -/
def notBlockOfHeader : R :=
  .alt (.token false literalsOpen) (.notAhead (sign "\x7b"))

def range : R :=
  .alt
    (.node "range_expression" (.seq rangeSign (.opt (.seq notBlockOfHeader disjunction))))
    (.fold disjunction
      (.node "range_expression" (.seq rangeSign (.opt (.seq notBlockOfHeader disjunction)))))

def assignSign : R :=
  .any (signUnless "=" "=>" ::
    ["+=", "-=", "*=", "/=", "%=", "&=", "|=", "^=", "<<=", ">>="].map sign)

def assignment : R :=
  .fold range (.node "assignment_expression" (.seq assignSign range))

/-! ## Items -/

def visibility : R :=
  .opt (.node "visibility_modifier" (.alt
    (.seq (key "pub") (.opt (.seq
      (.isAhead (.seq (sign "(") (anyKey ["self", "super", "crate", "in"]))) parens)))
    (.seq (key "crate") (.notAhead (sign "::")))))

def whereClause : R :=
  .opt (.node "where_clause" (.seq (key "where") (.many (looseToken ";="))))

def typeParameters : R := .opt (.node "type_parameters" angled)

/-- The bounds after a colon. -/
def bounds : R :=
  .opt (.node "trait_bounds" (.seq (sign ":")
    (.many (.seq (.notAhead (key "where")) (looseToken ";=")))))

def declarations : R :=
  .node "declaration_list" (.all [sign "\x7b", .many (.phrase .item), sign "\x7d"])

def functionModifiers : R :=
  .opt (.node "function_modifiers" (.some1 (.alt
    (anyKey ["async", "default", "const", "unsafe", "gen", "safe"])
    (.seq (key "extern") (.opt string)))))

/-- A function up to its body. -/
def functionHeader : R :=
  .all
    [visibility, functionModifiers, key "fn",
      .alt identifier (.node "metavariable" (.seq (sign "$") name)),
      typeParameters, .node "parameters" parens,
      .opt (.seq (sign "->") (.field "return_type" (.node "type" type))), whereClause]

def function : R :=
  .alt (.node "function_item" (.seq functionHeader block))
    (.node "function_signature_item" (.seq functionHeader (sign ";")))

def structure_ : R :=
  .any
    [.node "struct_item" (.all
      [visibility, key "struct", typeIdentifier, typeParameters,
        .any [.seq (.seq parens whereClause) (sign ";"), .seq whereClause braces, sign ";"]]),
      .node "union_item" (.all
        [visibility, key "union", typeIdentifier, typeParameters, whereClause, braces])]

def enumeration : R :=
  let variant : R :=
    .node "enum_variant" (.all
      [.many attribute_, visibility, identifier, .opt (.alt parens braces),
        .opt (.seq (sign "=") expression)])
  .node "enum_item" (.all
    [visibility, key "enum", typeIdentifier, typeParameters, whereClause,
      .node "enum_variant_list" (.all [sign "\x7b", .list comma variant, sign "\x7d"])])

def implementation : R :=
  .node "impl_item" (.all
    [.opt (key "default"), .opt (key "unsafe"), key "impl", typeParameters, .opt (key "const"),
      .opt (.all [.opt (sign "!"), .node "trait" typePath, key "for"]),
      .field "type" typeNode, whereClause, .alt declarations (sign ";")])

def trait : R :=
  .node "trait_item" (.all
    [visibility, .opt (key "unsafe"), .opt (key "auto"), key "trait", typeIdentifier,
      typeParameters, bounds, whereClause, declarations])

def typeItem : R :=
  .alt
    (.node "type_item" (.all
      [visibility, key "type", typeIdentifier, typeParameters, whereClause, sign "=", type,
        whereClause, sign ";"]))
    (.node "associated_type" (.all
      [key "type", typeIdentifier, typeParameters, bounds, whereClause, sign ";"]))

/-- A constant or static, which may have no value among foreign or associated items. -/
def constant : R :=
  let rest : R := .all [sign ":", type, .opt (.seq (sign "=") expression), sign ";"]
  .alt
    (.node "const_item" (.all [visibility, key "const", identifier, rest]))
    (.node "static_item" (.all
      [visibility, .opt (.alt (key "unsafe") (key "safe")), key "static", .opt (key "ref"),
        .opt (key "mut"), identifier, rest]))

def module_ : R :=
  .alt
    (.node "mod_item" (.all
      [visibility, .opt (key "unsafe"), key "mod", identifier, .alt declarations (sign ";")]))
    (.node "foreign_mod_item" (.all
      [visibility, .opt (key "unsafe"), key "extern", .opt string, declarations]))

/-- Takes anything up to a semicolon. -/
def untilSemicolon : R :=
  .seq (.many (.alt (.phrase .balanced) (t (.char fun c => !";()[]\x7b\x7d".toList.contains c))))
    (sign ";")

def importItem : R :=
  .alt
    (.node "use_declaration" (.all [visibility, key "use", untilSemicolon]))
    (.node "extern_crate_declaration" (.all
      [visibility, key "extern", key "crate", untilSemicolon]))

def macroItem : R :=
  .alt
    (.node "macro_definition" (.all
      [key "macro_rules", sign "!", name, .phrase .balanced, .opt (sign ";")]))
    (.seq macroInvocation (.alt (sign ";") (.token false afterBrace)))
where
  /-- Succeeds just after a closing brace. -/
  afterBrace : L := fun src header i =>
    match i with
    | 0 => none
    | before + 1 =>
        let next := src[skipBlanks src header i]?
        if src[before]? == some '\x7d' && !(next == some '.' || next == some '?')
        then some (i, header)
        else none

def items : R :=
  .any
    [attribute_, .node "empty_statement" (sign ";"), function, structure_, enumeration,
      implementation, trait, typeItem, constant, module_, importItem, macroItem]

def letDeclaration : R :=
  .node "let_declaration" (.all
    [key "let", pattern, .opt (.seq (sign ":") type), .opt (.seq (sign "=") expression),
      .opt (.seq (key "else") block), sign ";"])

def statements : R :=
  .any
    [.phrase .item, letDeclaration,
      .node "expression_statement" (.seq blockExpression
        (.notAhead (.alt (signUnless "." ".") (sign "?")))),
      .fold expression
        (.node "expression_statement" (.seq (.token false notAfterSemicolon) (sign ";")))]

/-- The rules. -/
def rule : Phrase → R
  | .balanced => .any [balancedIn "(" ")", balancedIn "[" "]", balancedIn "\x7b" "\x7d"]
  | .angled => .all [sign "<", .many (.alt braces (looseToken "")), sign ">"]
  | .type => types
  | .pattern => patterns
  | .item => items
  | .statement => statements
  | .block =>
      .node "block" (inBrackets (.all [sign "\x7b", .many (.phrase .statement), sign "\x7d"]))
  | .ifExpression => ifExpression
  | .unary => unary
  | .comparison => comparison
  | .expression => assignment

def grammar : Grammar Phrase Header := ⟨rule, skipBlanks⟩

/-- Takes the first line if it names an interpreter. -/
def firstLine : L := fun src header i =>
  if Lexeme.matchesAt src i ['#', '!'] && src[i + 2]? != some '[' then
    some (Lexeme.lineEnd src i, header)
  else some (i, header)

/-- The syntax tree of a source text. -/
def tree (src : Chars) : Node :=
  treeOf grammar ⟨false⟩ "source_file"
    (.seq (.token false firstLine)
      (.many (.alt (.phrase .statement) (.node "ERROR" (t (.char fun _ => true)))))) src

end FossilRecord.Source.Rust
