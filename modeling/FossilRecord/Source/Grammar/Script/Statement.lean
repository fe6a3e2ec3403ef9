import FossilRecord.Source.Grammar.Script.Expression

/-!
# Statements in scripts

Declarations, control flow and modules.  A line end may stand for a semicolon.
-/

namespace FossilRecord.Source.Script

namespace Flavour

variable (f : Flavour)

def statement : R := .phrase .statement

def condition : R :=
  .node "parenthesized_expression" (.all [sign "(", .phrase .expressions, sign ")"])

/-! ## Declarations -/

def declarator : R :=
  .node "variable_declarator" (.all
    [.phrase .pattern, f.maybeTyped (sign "!"), f.maybeTyped typeAnnotation,
      .opt (.seq (signUnless "=" "=>") (.field "value" expression))])

/-- Variables with the word that introduces them. -/
def declarators (kind : String) (words : R) (finish : R) : R :=
  .node kind (.all [words, .list1 comma f.declarator, finish])

/-- The word `let` or `const` before a pattern. -/
def lexicalWord : R :=
  .alt (.seq (key "const") (.notAhead (key "enum")))
    (.all [key "let", goesOn "[", .isAhead (.any [name, sign "[", sign "\x7b"])])

def functionDeclaration : R :=
  let after (kind : String) (mark finish : R) : R :=
    .node kind (.all
      [.opt (.seq (key "async") onSameLine), key "function", mark, identifier, f.callSignature,
        finish])
  .any
    [after "generator_function_declaration" (sign "*") body,
      after "function_declaration" .empty body,
      f.onlyTyped (after "function_signature" (.opt (sign "*")) semicolon)]

def classDeclaration : R :=
  .any
    [.node "class_declaration" (.all [.many f.decorator, key "class", f.className, f.classTail]),
      f.onlyTyped (.node "abstract_class_declaration" (.all
        [.many f.decorator, key "abstract", onSameLine, key "class", f.className, f.classTail]))]

def moduleName : R :=
  .alt string (.seq name (.many (.seq (sign ".") anyWord)))

def internalModule : R :=
  .node "internal_module" (.all [key "namespace", onSameLine, moduleName, body])

def typedDeclaration : R :=
  let typeName : R := .node "type_identifier" name
  .any
    [.node "type_alias_declaration" (.all
      [key "type", onSameLine, typeName, .opt typeParameters, signUnless "=" "=>", type,
        semicolon]),
      .node "interface_declaration" (.all
        [key "interface", onSameLine, typeName, .opt typeParameters,
          .opt (.seq (key "extends") (.list1 comma type)), .node "interface_body" braces]),
      .node "enum_declaration" (.all
        [.opt (key "const"), key "enum", identifier, .node "enum_body" braces]),
      .node "module" (.all [key "module", onSameLine, moduleName, .opt body, .opt (sign ";")]),
      .node "import_alias" (.all
        [key "import", name, sign "=", name, .many (.seq (sign ".") anyWord), semicolon]),
      .node "ambient_declaration" (.all
        [key "declare", onSameLine,
          .any [.seq (key "global") body, internalModule, .phrase .declaration]])]

def declarations : R :=
  .any
    [f.functionDeclaration, f.classDeclaration,
      f.declarators "lexical_declaration" lexicalWord semicolon,
      f.declarators "variable_declaration" (key "var") semicolon,
      f.onlyTyped typedDeclaration]

/-! ## Modules -/

def fromClause : R :=
  .all [key "from", string, .opt (.seq (anyKey ["with", "assert"]) braces)]

def importStatement : R :=
  let named : R := .any [.all [sign "*", key "as", anyWord], braces]
  let clause : R := .any [.all [name, .opt (.seq comma named)], named]
  .node "import_statement" (.all
    [key "import", .notAhead (.alt (sign "(") (sign ".")),
      .any
        [.seq string (.opt (.seq (anyKey ["with", "assert"]) braces)),
          .all [anyKey ["type", "typeof"], clause, fromClause], .seq clause fromClause,
          .all [.opt (key "type"), name, sign "=", key "require", balanced]],
      semicolon])

def exportStatement : R :=
  let elsewhere : R :=
    .all
      [key "export", goesOn "*=",
        .any
          [.all [sign "*", .opt (.all [key "as", .alt string anyWord]), fromClause],
            .all [.opt (key "type"), braces, .opt fromClause],
            .all [key "type", sign "*", .opt (.all [key "as", anyWord]), fromClause],
            f.onlyTyped (.all [key "as", key "namespace", name]),
            f.onlyTyped (.seq (signUnless "=" "=>") expression)],
        semicolon]
  let here : R :=
    .all
      [.many f.decorator, key "export", goesOn "",
        .any
          [.all [key "default",
            .any [.phrase .declaration, .seq (.field "value" expression) semicolon]],
            f.onlyTyped internalModule, .phrase .declaration]]
  .node "export_statement" (.alt elsewhere here)

/-! ## Control flow -/

def elseClause : R := .opt (.node "else_clause" (.seq (key "else") statement))

def forHeader : R :=
  let loopWord : R := .alt (key "of") (key "in")
  let target : R :=
    .alt (.seq (anyKey ["let", "const", "var"]) (.seq (.phrase .pattern) (.opt initial)))
      (.phrase .leftHand)
  .all [sign "(", target, loopWord, .phrase .expressions, sign ")"]

def forStatement : R :=
  .alt
    (.node "for_in_statement" (.all [key "for", .opt (key "await"), forHeader, statement]))
    (.node "for_statement" (.all
      [key "for", sign "(",
        .any
          [f.declarators "lexical_declaration" lexicalWord (sign ";"),
            f.declarators "variable_declaration" (key "var") (sign ";"),
            .seq (.phrase .expressions) (sign ";"), sign ";"],
        .opt (.phrase .expressions), sign ";", .opt (.phrase .expressions), sign ")", statement]))

def switchStatement : R :=
  .node "switch_statement" (.all
    [key "switch", condition,
      .node "switch_body" (.all
        [sign "\x7b",
          .many (.any
            [.node "switch_case" (.all
              [key "case", .phrase .expressions, sign ":", .many statement]),
              .node "switch_default" (.all [key "default", sign ":", .many statement])]),
          sign "\x7d"])])

def tryStatement : R :=
  .node "try_statement" (.all
    [key "try", body,
      .opt (.node "catch_clause" (.all
        [key "catch",
          .opt (.all [sign "(", .phrase .pattern, f.maybeTyped typeAnnotation, sign ")"]), body])),
      .opt (.node "finally_clause" (.seq (key "finally") body))])

def jumpStatement : R :=
  .any
    [.node "return_statement" (.all
      [key "return", .opt (.seq onSameLine (.phrase .expressions)), semicolon]),
      .node "throw_statement" (.all [key "throw", .phrase .expressions, semicolon]),
      .node "break_statement" (.all [key "break", .opt (.seq onSameLine name), semicolon]),
      .node "continue_statement" (.all [key "continue", .opt (.seq onSameLine name), semicolon]),
      .node "debugger_statement" (.seq (key "debugger") semicolon)]

def statements : R :=
  .any
    [.phrase .block, importStatement, f.exportStatement,
      f.onlyTyped (.node "expression_statement" (.seq internalModule (.opt (sign ";")))),
      .phrase .declaration,
      .node "if_statement" (.all [key "if", condition, statement, elseClause]),
      f.forStatement,
      .node "while_statement" (.all [key "while", condition, statement]),
      .node "do_statement" (.all [key "do", statement, key "while", condition, .opt (sign ";")]),
      switchStatement, f.tryStatement,
      .node "with_statement" (.all [key "with", condition, statement]),
      jumpStatement, .node "empty_statement" (sign ";"),
      .node "labeled_statement" (.all [.node "statement_identifier" name, sign ":", statement]),
      .node "expression_statement" (.seq (.phrase .expressions) semicolon)]

/-- The rules. -/
def rule : Phrase → R
  | .statement => f.statements
  | .declaration => f.declarations
  | .block => .node "statement_block" (.all [sign "\x7b", .many statement, sign "\x7d"])
  | .expressions => expressions
  | .expression => f.assignment
  | .unary => f.unary
  | .power => power
  | .leftHand => f.leftHand
  | .parameters => f.parameters
  | .pattern => patterns
  | .classBody => f.classBody
  | .element => f.element
  | .balanced => .any [balancedIn "(" ")", balancedIn "[" "]", balancedIn "\x7b" "\x7d"]
  | .type => types
  | .typePostfix => typePostfix

def grammar : Grammar Phrase Unit := ⟨f.rule, skipBlanks⟩

/-- The syntax tree of a source text. -/
def tree (src : Chars) : Node :=
  treeOf f.grammar () "program"
    (.seq (.token false firstLine)
      (.many (.alt statement (.node "ERROR" (t (.char fun _ => true)))))) src

end Flavour

end FossilRecord.Source.Script
