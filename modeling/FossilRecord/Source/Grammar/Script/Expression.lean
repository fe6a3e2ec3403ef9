import FossilRecord.Source.Grammar.Script.TypeRule

/-!
# Expressions in scripts

Functions, classes and objects may stand anywhere in an expression, so expressions are followed down
to their operands.
-/

namespace FossilRecord.Source.Script

namespace Flavour

variable (f : Flavour)

/-- A rule that only typed scripts have. -/
def onlyTyped (r : R) : R := if f.typed then r else .never

/-- An addition that only typed scripts may have. -/
def maybeTyped (r : R) : R := if f.typed then .opt r else .empty

/-! ## Names, parameters and patterns -/

/-- The name of a member, which may be any word, a literal or computed. -/
def memberName : R :=
  .any
    [.node "property_identifier" anyWord,
      .node "private_property_identifier" (.seq (sign "#") (.token false (word []))),
      .node "string" string, .node "number" (t number),
      .node "computed_property_name" (.all [sign "[", expression, sign "]"])]

/-- What is put in when nothing is given. -/
def initial : R := .seq (signUnless "=" "=>") expression

def objectPattern : R :=
  .node "object_pattern" (.all
    [sign "\x7b",
      .list comma (.any
        [.node "rest_pattern" (.seq (sign "...") (.phrase .pattern)),
          .node "pair_pattern" (.all [memberName, sign ":",
            .alt (.node "assignment_pattern" (.seq (.phrase .pattern) initial))
              (.phrase .pattern)]),
          .node "object_assignment_pattern" (.seq name initial),
          .node "shorthand_property_identifier_pattern" name]),
      sign "\x7d"])

def arrayPattern : R :=
  .node "array_pattern" (.all
    [sign "[",
      .many (.any
        [comma, .node "rest_pattern" (.seq (sign "...") (.phrase .pattern)),
          .node "assignment_pattern" (.seq (.phrase .pattern) initial), .phrase .pattern]),
      sign "]"])

def patterns : R := .any [objectPattern, arrayPattern, identifier]

/-- What a decorator names. -/
def decorator : R :=
  .node "decorator" (.seq (sign "@")
    (.fold
      (.alt (.node "parenthesized_expression" (.all [sign "(", expression, sign ")"])) identifier)
      (.alt
        (.node "member_expression" (.seq (sign ".") (.node "property_identifier" anyWord)))
        (.node "call_expression" (.seq (f.maybeTyped typeArguments)
          (.node "arguments" (.all
            [sign "(",
              .list comma (.alt (.node "spread_element" (.seq (sign "...") expression)) expression),
              sign ")"])))))))

/-- A word before the name of a member or parameter. -/
def modifier (words : List String) : R :=
  .seq (anyKey words)
    (.notAhead (.any ([",", ")", "(", "=", ":", ";", "?", "!", "<", "\x7d"].map sign)))

def parameter : R :=
  if f.typed then
    .node "required_parameter" (.all
      [.many f.decorator,
        .many (modifier ["public", "private", "protected", "override", "readonly"]),
        .any [.node "rest_pattern" (.seq (sign "...") (.phrase .pattern)),
          .node "this" (key "this"), .phrase .pattern],
        .opt (sign "?"), .opt typeAnnotation, .opt initial])
  else
    .any
      [.node "rest_pattern" (.seq (sign "...") (.phrase .pattern)),
        .node "assignment_pattern" (.seq (.phrase .pattern) initial), .phrase .pattern]

def parameters : R :=
  .node "formal_parameters" (.all [sign "(", .list comma f.parameter, sign ")"])

/-- Parameters with what a typed script adds to them. -/
def callSignature : R :=
  .all [f.maybeTyped typeParameters, .phrase .parameters, f.maybeTyped returnType]

/-! ## Functions, classes and objects -/

def body : R := .phrase .block

/-- The words and signs before the name of a method. -/
def methodMarks : R :=
  .seq (.opt (.seq (modifier ["async"]) onSameLine))
    (.opt (.alt (modifier ["get", "set"]) (sign "*")))

/-- A word before the name of a member of a class. -/
def memberModifier (words : List String) : R :=
  .seq (modifier words) onSameLine

/-- A method of an object or class, after what stands before it. -/
def methodAfter (before : R) : R :=
  .node "method_definition" (.all
    [before, methodMarks, memberName, f.maybeTyped (sign "?"), f.callSignature, body])

def object : R :=
  .node "object" (.all
    [sign "\x7b",
      .list comma (.any
        [.node "spread_element" (.seq (sign "...") expression), f.methodAfter .empty,
          .node "pair" (.all [memberName, sign ":", expression]),
          .node "object_assignment_pattern" (.seq name initial),
          .node "shorthand_property_identifier" name]),
      sign "\x7d"])

def array : R :=
  .node "array" (.all
    [sign "[",
      .many (.any [comma, .node "spread_element" (.seq (sign "...") expression), expression]),
      sign "]"])

def heritage : R :=
  let base : R := .seq (.phrase .leftHand) (f.maybeTyped typeArguments)
  let extending : R := .seq (key "extends") base
  if f.typed then
    .opt (.node "class_heritage" (.some1 (.any
      [.node "extends_clause" extending,
        .node "implements_clause" (.seq (key "implements") (.list1 comma type))])))
  else .opt (.node "class_heritage" extending)

/-- The name of a class. -/
def className : R :=
  if f.typed then .node "type_identifier" (t (word ("implements" :: reserved)))
  else .node "identifier" name

/-- A class after its name. -/
def classTail : R := .all [f.maybeTyped typeParameters, f.heritage, .phrase .classBody]

def staticBlock : R := .node "class_static_block" (.seq (key "static") body)

def classMember : R :=
  if f.typed then
    let words := ["public", "private", "protected", "static", "override", "readonly", "abstract",
      "declare", "accessor"]
    let before : R := .many (memberModifier words)
    .any
      [sign ";", staticBlock, .seq (f.methodAfter before) (.opt (sign ";")),
        .seq
          (.any
            [.node "method_signature" (.all
              [before, methodMarks, memberName, .opt (sign "?"), f.callSignature]),
              .node "index_signature" (.all
                [before, .isAhead (.all [sign "[", name, sign ":"]), balanced, typeAnnotation]),
              .node "public_field_definition" (.all
                [.many f.decorator, before, memberName, .opt (.alt (sign "?") (sign "!")),
                  .opt typeAnnotation, .opt initial])])
          (.alt semicolon comma),
        f.decorator]
  else
    let before : R := .seq (.many f.decorator) (.opt (memberModifier ["static"]))
    .any
      [sign ";", staticBlock, .seq (f.methodAfter before) (.opt (sign ";")),
        .seq (.node "field_definition" (.all [before, memberName, .opt initial])) semicolon]

def classBody : R :=
  .node "class_body" (.all [sign "\x7b", .many f.classMember, sign "\x7d"])

def functionExpression : R :=
  let after (kind : String) (mark : R) : R :=
    .node kind (.all
      [.opt (.seq (key "async") onSameLine), key "function", mark, .opt identifier, f.callSignature,
        body])
  .alt (after "generator_function" (sign "*")) (after "function_expression" .empty)

def classExpression : R :=
  .node "class" (.all [.many f.decorator, key "class", .opt f.className, f.classTail])

def arrowFunction : R :=
  .node "arrow_function" (.all
    [.opt (.all [key "async", onSameLine, .notAhead (sign "=>")]),
      .alt identifier f.callSignature, onSameLine, sign "=>", .alt body expression])

/-! ## Templates and markup -/

def template : R :=
  .node "template_string" (.all
    [sign "`",
      .many (.alt
        (.node "template_substitution" (.all
          [.token false (.exact "$\x7b"), .phrase .expressions, sign "\x7d"]))
        (.token false templateChars)),
      .token false (.exact "`")])

/-- A word of markup, which may hold hyphens. -/
def elementWord : R :=
  t fun src _ i =>
    match src[i]? with
    | some c =>
        if isNameStart c then some (Lexeme.span src (fun c => isNameChar c || c == '-') i, ())
        else none
    | none => none

def elementName : R :=
  .seq elementWord (.many (.seq (.alt (sign ".") (sign ":")) elementWord))

/-- An expression in braces. -/
def hole : R :=
  .node "jsx_expression" (.all
    [sign "\x7b",
      .opt (.alt (.node "spread_element" (.seq (sign "...") expression)) (.phrase .expressions)),
      sign "\x7d"])

def attribute_ : R :=
  .alt hole
    (.node "jsx_attribute" (.seq elementName
      (.opt (.seq (sign "=")
        (.any [t (verbatim '"'), t (verbatim '\''), hole, .phrase .element])))))

/-- The front of an element up to its closing bracket. -/
def elementFront : R :=
  .all
    [signUnless "<" "/=", .opt (.all [elementName, f.maybeTyped typeArguments, .many attribute_])]

def element : R :=
  .alt
    (.node "jsx_self_closing_element" (.seq f.elementFront (sign "/>")))
    (.node "jsx_element" (.all
      [.node "jsx_opening_element" (.seq f.elementFront (sign ">")),
        .many (.any
          [hole, .phrase .element,
            .token false (.char fun c => !"<\x7b\x7d".toList.contains c)]),
        .node "jsx_closing_element" (.all [sign "</", .opt elementName, sign ">"])]))

/-! ## Operands -/

def arguments : R :=
  .node "arguments" (.all
    [sign "(",
      .list comma (.alt (.node "spread_element" (.seq (sign "...") expression)) expression),
      sign ")"])

def primary : R :=
  .any
    [f.functionExpression, f.classExpression,
      .node "parenthesized_expression" (.all
        [sign "(", .phrase .expressions, f.maybeTyped typeAnnotation, sign ")"]),
      array, f.object, template, .node "string" string, .node "regex" (t regex),
      .node "number" (t number),
      if f.markup then .phrase .element else .never,
      .node "import" (key "import"),
      .node "this" (anyKey ["this", "super", "null", "true", "false", "undefined"]),
      identifier, .node "private_property_identifier" (.seq (sign "#") (.token false (word [])))]

def memberStep : R :=
  .any
    [.node "member_expression" (.seq (.alt (signUnless "?." "0123456789([") (signUnless "." "."))
      (.alt (.node "property_identifier" anyWord)
        (.node "private_property_identifier" (.seq (sign "#") (.token false (word [])))))),
      .node "subscript_expression" (.all
        [.opt (sign "?."), sign "[", .phrase .expressions, sign "]"]),
      f.onlyTyped (.node "non_null_expression" (.seq onSameLine (signUnless "!" "=")))]

def newExpression : R :=
  .alt
    (.node "meta_property" (.all [key "new", sign ".", key "target"]))
    (.node "new_expression" (.all
      [key "new",
        .fold (.alt (.seq (.isAhead (key "new")) (.phrase .leftHand)) f.primary) f.memberStep,
        f.maybeTyped (.seq typeArguments (.isAhead (sign "("))), .opt arguments]))

def callStep : R :=
  .node "call_expression" (.seq
    (.seq (.opt (sign "?."))
      (f.maybeTyped (.seq typeArguments (.isAhead (.alt (sign "(") (sign "`"))))))
    (.alt arguments template))

def leftHand : R :=
  .fold (.alt f.newExpression f.primary) (.any [f.memberStep, f.callStep])

def postfix_ : R :=
  .fold (.phrase .leftHand)
    (.node "update_expression" (.seq onSameLine (.alt (sign "++") (sign "--"))))

def unary : R :=
  .any
    [.node "update_expression" (.seq (.alt (sign "++") (sign "--")) (.phrase .unary)),
      .node "unary_expression" (.seq
        (.any [sign "!", sign "~", sign "+", sign "-", anyKey ["typeof", "void", "delete"]])
        (.phrase .unary)),
      .node "await_expression" (.seq (key "await") (.phrase .unary)),
      if f.typed && !f.markup then
        .node "type_assertion" (.seq typeArguments (.phrase .unary))
      else .never,
      postfix_]

def power : R :=
  .fold (.phrase .unary)
    (.node "binary_expression" (.seq (signUnless "**" "=") (.phrase .power)))

/-! ## Operators -/

def shiftAndTighter : R :=
  .levels "binary_expression"
    [.any [signUnless ">>>" "=", signUnless ">>" ">=", signUnless "<<" "="],
      .any [signUnless "+" "+=", signUnless "-" "-="],
      .any [signUnless "*" "*=", signUnless "/" "=", signUnless "%" "="]]
    (.phrase .power)

def relation : R :=
  .fold shiftAndTighter
    (.any
      [.node "binary_expression" (.seq
        (.any [sign "<=", sign ">=", signUnless "<" "<=", signUnless ">" ">=", key "instanceof",
          key "in"])
        shiftAndTighter),
        f.onlyTyped (.node "as_expression" (.all
          [onSameLine, key "as", .alt (key "const") type])),
        f.onlyTyped (.node "satisfies_expression" (.all [onSameLine, key "satisfies", type]))])

def binary : R :=
  .levels "binary_expression"
    [signUnless "??" "=", signUnless "||" "=", signUnless "&&" "=", signUnless "|" "|=",
      signUnless "^" "=", signUnless "&" "&=",
      .any [sign "===", sign "!==", signUnless "==" "=", signUnless "!=" "="]]
    f.relation

def conditional : R :=
  .fold f.binary
    (.node "ternary_expression" (.all [signUnless "?" ".?", expression, sign ":", expression]))

def assignOperator : R :=
  .any (signUnless "=" "=>" ::
    ["+=", "-=", "**=", "*=", "/=", "%=", "<<=", ">>>=", ">>=", "&&=", "&=", "||=", "|=", "^=",
      "??="].map sign)

def yieldExpression : R :=
  .node "yield_expression" (.seq (key "yield")
    (.alt (.seq (sign "*") expression) (.opt (.seq onSameLine expression))))

def assignment : R :=
  .any
    [f.arrowFunction, yieldExpression,
      .fold f.conditional (.node "assignment_expression" (.seq assignOperator expression))]

/-- Expressions with commas between them. -/
def expressions : R :=
  .alt
    (.seq expression (.notAhead comma))
    (.node "sequence_expression" (.list1 comma expression))

end Flavour

end FossilRecord.Source.Script
