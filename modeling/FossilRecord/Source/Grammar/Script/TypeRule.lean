import FossilRecord.Source.Grammar.Script.Token

/-!
# Types in scripts

Types hold no declarations, so only their extent is of interest.  Bracketed parts are passed over
whole.
-/

namespace FossilRecord.Source.Script

/-- Types between angle brackets. -/
def typeArguments : R := .all [sign "<", .list comma type, sign ">"]

/-- Type parameters between angle brackets. -/
def typeParameters : R :=
  .node "type_parameters" (.all
    [sign "<",
      .list comma (.all
        [.many (.seq (anyKey ["const", "in", "out"]) (.isAhead anyWord)), name,
          .opt (.seq (key "extends") type), .opt (.seq (signUnless "=" "=>") type)]),
      sign ">"])

/-- An assertion about a parameter, which may stand where a result type does. -/
def assertion : R :=
  .all [key "asserts", onSameLine, .alt (key "this") name, .opt (.seq (key "is") type)]

/-- A predicate that says of a parameter what its type is. -/
def predicate : R :=
  .all [.alt (key "this") name, onSameLine, key "is", type]

/-- What a function type gives. -/
def resultType : R := .any [assertion, predicate, type]

def functionType : R :=
  .all
    [.opt (.seq (.opt (key "abstract")) (key "new")), .opt typeParameters,
      .isAhead (sign "("), balanced, sign "=>", resultType]

def typePrimary : R :=
  .any
    [.all [sign "(", type, sign ")"], braces, .seq (.isAhead (sign "[")) balanced, string,
      t (.quotedBy '`'), .seq (.opt (sign "-")) (t number),
      .all [key "import", balanced, .many (.seq (sign ".") anyWord), .opt typeArguments],
      .all [key "typeof", .opt (.seq (key "import") balanced), .opt anyWord,
        .many (.all [sign ".", anyWord]), .opt typeArguments],
      .all [key "asserts", onSameLine, name],
      .all [.notAhead (anyKey ["function", "class", "extends", "in"]), anyWord,
        .many (.all [sign ".", anyWord]), .opt (.seq onSameLine typeArguments)]]

/-- A type with what may stand before and after it. -/
def typePostfix : R :=
  .alt
    (.seq (anyKey ["keyof", "unique", "readonly"]) (.seq (.notAhead (.any [sign "=", sign ";",
      sign ",", sign ")", sign ">", sign "|", sign "&"])) (.phrase .typePostfix)))
    (.alt
      (.all [key "infer", name, .opt (.all [key "extends", .phrase .typePostfix,
        .notAhead (sign "?")])])
      (.seq typePrimary
        (.many (.all [onSameLine, sign "[", .opt type, sign "]"]))))

def intersection : R :=
  .seq (.opt (sign "&")) (.list1 (signUnless "&" "&") (.phrase .typePostfix))

def union : R :=
  .seq (.opt (sign "|")) (.list1 (signUnless "|" "|") intersection)

def types : R :=
  .alt functionType
    (.seq union
      (.opt (.all
        [onSameLine, key "extends", union, sign "?", type, sign ":", type])))

def typeAnnotation : R := .node "type_annotation" (.seq (sign ":") type)

/-- What a function is said to return. -/
def returnType : R :=
  .field "return_type" (.any
    [.node "asserts_annotation" (.seq (sign ":") assertion),
      .node "type_predicate_annotation" (.seq (sign ":") predicate), typeAnnotation])

end FossilRecord.Source.Script
