import SourceDoc.Script.Rule.Pattern

/-!
# Types

The rules for type expressions, type parameters and type arguments, and for the members of object types.
-/

namespace SourceDoc.Script.Rule

/-- Any type. -/
def anyType : Rule := sym .type

/-- The names of the types that are always there. -/
def predefined : Rule :=
  .alt (nodeOf .predefinedType [word "unique", word "symbol"])
    (alts (["any", "number", "boolean", "string", "symbol", "void", "unknown", "never", "object"].map fun w =>
      .leaf .predefinedType (Lexeme.keyword? w)))

/-- A type name, perhaps qualified and perhaps with arguments. -/
def namedType : Rule :=
  .chain (.leaf .typeName Lexeme.identifier?) [
    .tail (fun k => k = .typeName || k = .nestedTypeName) .nestedTypeName none (.seq (operator ".") anyName),
    .tail (fun k => k = .typeName || k = .nestedTypeName) .genericType (some .name)
      (.seq sameLine (sym .typeArguments))]

/-- A template as a type. -/
def templateType : Rule :=
  nodeOf .typeExpr [
    mark "\x60",
    .many (.alt (.tight .expression Lexeme.templateChars?)
      (seqs [.tight (.token "$\x7b") (Lexeme.exactly "$\x7b"), anyType, mark "\x7d"])),
    .tight (.token "\x60") (Lexeme.exactly "\x60")]

/-- A literal as a type. -/
def literalType : Rule :=
  .node .typeExpr (alts [
    .leaf .typeExpr Lexeme.string?,
    .seq (opt (.alt (operator "-") (operator "+"))) (.leaf .number Lexeme.number?),
    word "true", word "false", word "null", word "undefined"])

/-- The elements of a tuple: named, optional, spread or plain. -/
def tupleType : Rule :=
  let element := alts [
    seqs [opt (mark "..."), identifier, opt (operator "?"), operator ":", anyType],
    seqs [mark "...", anyType],
    seqs [anyType, opt (operator "?")]]
  .node .typeExpr (bracketed "[" element "]")

/-- The value whose type is meant, after `typeof`. -/
def typeQuery : Rule :=
  nodeOf .typeExpr [word "typeof",
    .alt (seqs [word "import", mark "(", string, mark ")"]) (.alt (.leaf .thisValue (Lexeme.keyword? "this")) identifier),
    .many (.alt (.seq (operator ".") (.alt anyName (.leaf .privateName Lexeme.privateName?)))
      (seqs [sameLine, mark "[", anyType, mark "]"])),
    opt (.seq sameLine (sym .typeArguments))]

/-- A type that needs no operator. -/
def primaryType : Rule :=
  alts [
    nodeOf .typeExpr [mark "(", anyType, mark ")"],
    .alt predefined (.leaf .typeExpr (Lexeme.keyword? "this")),
    literalType,
    templateType,
    sym .objectType,
    tupleType,
    typeQuery,
    nodeOf .typeExpr [word "keyof", sym .typeOperand],
    nodeOf .typeExpr [word "readonly", sym .typeOperand],
    nodeOf .typeExpr [word "infer", identifier, opt (.seq (word "extends") anyType)],
    nodeOf .typeExpr [word "import", mark "(", string, mark ")",
      .many (.seq (operator ".") anyName), opt (sym .typeArguments)],
    namedType,
    .leaf .typeExpr (Lexeme.keyword? "const"),
    .leaf .typeExpr (Lexeme.exactly "*"),
    nodeOf .typeExpr [operator "?", sym .typeOperand]]

/-- A type with array brackets and lookups after it. -/
def typeOperand : Rule :=
  .chain primaryType [
    .tail (fun _ => true) .arrayType none (seqs [sameLine, mark "[", mark "]"]),
    .tail (fun _ => true) .typeExpr none (seqs [sameLine, mark "[", anyType, mark "]"])]

/-- A function type or a constructor type. -/
def functionType : Rule :=
  let result := alts [
    nodeOf .typeExpr [word "asserts", sameLine, predicateName, opt (.seq (word "is") anyType)],
    nodeOf .typeExpr [predicateName, word "is", anyType],
    anyType]
  .alt
    (nodeOf .typeExpr [opt (sym .typeParameters), sym .formalParameters, operator "=>", result])
    (nodeOf .typeExpr [opt (word "abstract"), word "new", opt (sym .typeParameters), sym .formalParameters,
      operator "=>", anyType])
where
  /-- What a predicate is about. -/
  predicateName : Rule := .alt (.leaf .thisValue (Lexeme.keyword? "this")) identifier

/-- A part of an intersection. -/
def intersectionPart : Rule := .alt functionType (sym .typeOperand)

/-- Types joined by `&`. -/
def intersection : Rule :=
  .chain (.alt (nodeOf .typeExpr [operator "&", intersectionPart]) intersectionPart)
    [.tail (fun _ => true) .typeExpr none (.seq (operator "&") intersectionPart)]

/-- Types joined by `|`, or a choice between two types. -/
def type : Rule :=
  let conditional : Tail := .tail (fun _ => true) .typeExpr none
    (seqs [word "extends", anyType, operator "?", anyType, operator ":", anyType])
  .chain (.alt (nodeOf .typeExpr [operator "|", intersection]) intersection)
    [.tail (fun _ => true) .typeExpr none (.seq (operator "|") intersection), conditional]

/-- A type after a colon. -/
def typeClause : Rule := nodeOf .typeClause [operator ":", anyType]

/-- Type parameters with their bounds and defaults. -/
def typeParameters : Rule :=
  let word? := fun (w : String) => opt (seqs [word w, ahead Lexeme.isNameStart])
  .node .typeParameters (bracketed "<" (seqs [word? "const", word? "in", word? "out", identifier,
    opt (.seq (word "extends") anyType), opt (.seq (operator "=") anyType)]) ">")

/-- Type arguments. -/
def typeArguments : Rule := .node .typeArguments (bracketed "<" anyType ">")

/-- The name in brackets of an index signature, or the clause of a mapped type. -/
def indexSignature : Rule :=
  let sign := opt (seqs [.alt (operator "-") (operator "+"), ahead fun c => c = 'r' || c = '?' || c = ':'])
  nodeOf .member [
    sign, opt (seqs [word "readonly", ahead (· = '[')]),
    mark "[",
    .alt (seqs [identifier, operator ":", anyType])
      (seqs [identifier, word "in", anyType, opt (.seq (word "as") anyType)]),
    mark "]",
    alts [
      named .type (sym .typeClause),
      seqs [alts [seqs [operator "-", mark "?"], seqs [operator "+", mark "?"], operator "?"],
        named .type (sym .typeClause)],
      .done]]

/-- Words before the name of a member, each on the same line. -/
def memberWords (words : List String) : Rule :=
  .many (alts (words.map fun w =>
    if w = "access" then seqs [accessModifier, sameLine, beforeNameOrWord]
    else if w = "override" then seqs [.node .overrideModifier (word "override"), sameLine, beforeNameOrWord]
    else seqs [word w, sameLine, beforeNameOrWord]))
where
  /-- The next token starts a name, or is a star. -/
  beforeNameOrWord : Rule := .alt beforeName (ahead (· = '*'))

/-- The members of an interface or an object type. -/
def objectMember : Rule :=
  alts [
    indexSignature,
    nodeOf .member [opt (seqs [word "abstract"]), word "new", sym .callSignature],
    nodeOf .member [sym .callSignature],
    nodeOf .methodSignature [memberWords ["access", "static", "override", "readonly", "async", "get", "set"],
      opt (mark "*"), named .name (sym .propertyName), opt (operator "?"), sym .callSignature],
    nodeOf .propertySignature [memberWords ["access", "static", "override", "readonly"],
      named .name (sym .propertyName), opt (operator "?"), opt (named .type (sym .typeClause))]]

/-- What stands between the braces of an object type. -/
def objectTypeRest (d : Dialect) : Rule :=
  let separator := .alt (mark ",") (semicolon d false)
  seqs [
    mark "\x7b",
    opt (.alt (mark ",") (mark ";")),
    opt (seqs [objectMember, .many (.seq separator objectMember), opt separator]),
    mark "\x7d"]

/-- An object type. -/
def objectType (d : Dialect) : Rule := .node .typeExpr (objectTypeRest d)

end SourceDoc.Script.Rule
