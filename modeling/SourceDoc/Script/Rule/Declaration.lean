import SourceDoc.Script.Rule.Expression
import SourceDoc.Script.Rule.TypeExpr

/-!
# Declarations

Functions, classes, interfaces, variables, type aliases, enumerations and namespaces, with and without
bodies.
-/

namespace SourceDoc.Script.Rule

/-! ## Functions -/

/-- The end of the line after a body in braces, where there is one. -/
def bodyEnd (d : Dialect) (thenOperator : Bool) : Rule := opt (lineEnd d thenOperator)

/-- `async` before a declaration on the same line. -/
def asyncDeclaration : Rule := opt (.seq (word "async") sameLine)

/-- A function with a name and a body. -/
def functionDeclaration (d : Dialect) (orExpression : Bool) : Rule :=
  let rest := seqs [named .name identifier, sym .callSignature, named .body (sym (.block orExpression)),
    bodyEnd d orExpression]
  .alt
    (nodeOf .functionDeclaration [asyncDeclaration, word "function", rest])
    (nodeOf .generatorDeclaration [asyncDeclaration, word "function", mark "*", rest])

/-- A function with a name and no body. -/
def functionSignature (d : Dialect) : Rule :=
  nodeOf .functionSignature [asyncDeclaration, word "function", opt (mark "*"), named .name identifier,
    sym .callSignature, signatureEnd d]

/-! ## Variables -/

/-- One variable with its type and value. -/
def declarator (d : Dialect) (c : Context) : Rule :=
  nodeOf .variableDeclarator [
    named .name (sym .pattern),
    if d.hasTypes then .seq (opt (operator "!")) (opt (named .type (sym .typeClause))) else .done,
    opt (initializer c)]

/-- Variables with commas between. -/
def declarators (d : Dialect) (c : Context) : Rule := commaList1 (declarator d c)

/-- The variables of a declaration up to its end; the end of the line after a value is that of an expression. -/
def variableList (d : Dialect) : Rule :=
  let c : Context := { lineEnds := true }
  let head := seqs [named .name (sym .pattern),
    if d.hasTypes then .seq (opt (operator "!")) (opt (named .type (sym .typeClause))) else .done]
  let following := fun afterExpression =>
    Grammar.Rule.alt (.seq (mark ",") (sym .variableList)) (semicolon d afterExpression)
  .alt
    (.seq (nodeOf .variableDeclarator [head, initializer c]) (following true))
    (.seq (.node .variableDeclarator head) (following false))

/-- A declaration with `let` or `const`, or with `var`. -/
def variableDeclaration : Rule :=
  let start := ahead fun c => Lexeme.isNameStart c || c = '[' || c = '\x7b'
  .alt
    (nodeOf .lexicalDeclaration [.alt (word "let") (word "const"), start, sym .variableList])
    (nodeOf .variableDeclaration [word "var", start, sym .variableList])

/-! ## Classes -/

/-- The class that a class extends, and the interfaces that it implements. -/
def superclass (d : Dialect) : Rule :=
  if d.hasTypes then
    let parent := seqs [named .value (.chain (.alt (sym .construction) (primary d))
        (operandTails d {} false ++ [
          .tail (fun _ => true) .expression none arguments,
          .tail (fun _ => true) .expression none (.seq (sym .typeArguments) arguments)])),
      opt (sym .typeArguments)]
    let extending := Grammar.Rule.node Kind.extendsClause (.seq (word "extends") (commaList1 parent))
    let implementing := Grammar.Rule.node Kind.implementsClause (.seq (word "implements") (commaList1 (sym .type)))
    .node .classHeritage (.alt (.seq extending (opt implementing)) implementing)
  else nodeOf .classHeritage [word "extends", freeExpression]

/-- The name, parents and body of a class. -/
def classRest (d : Dialect) : Rule :=
  seqs [named .name identifier, if d.hasTypes then opt (sym .typeParameters) else .done,
    opt (sym .superclass), named .body (sym .classBody)]

/-- A class with a name. -/
def classDeclaration (d : Dialect) (orExpression : Bool) : Rule :=
  nodeOf .classDeclaration [.many (sym .decorator), word "class", classRest d, bodyEnd d orExpression]

/-- A class with abstract members. -/
def abstractClass (d : Dialect) : Rule :=
  nodeOf .abstractClassDeclaration [.many (sym .decorator), word "abstract", word "class", classRest d]

/-- A block that runs once for a class. -/
def staticBlock (d : Dialect) : Rule :=
  nodeOf .member [word "static", sym (.block false), bodyEnd d false]

/-- A member of a class in the dialect without types. -/
def plainMember (d : Dialect) : Rule :=
  let isStatic := opt (seqs [word "static", sameLine, .alt beforeName (ahead (· = '*'))])
  let method := seqs [named .name (sym .propertyName), sym .callSignature, named .body (sym (.block false))]
  let start := seqs [.many (sym .decorator), isStatic]
  let field := fun (rest : Rule) => seqs [start, named .name (sym .propertyName), rest]
  alts [
    staticBlock d,
    .seq
      (.node .methodDefinition (.seq start (alts [
        seqs [word "async", sameLine, mark "*", method],
        seqs [modifier "async", method],
        seqs [.alt (modifier "get") (modifier "set"), method],
        seqs [mark "*", method],
        method])))
      (opt (mark ";")),
    .seq (.node .fieldDefinition (field (initializer { lineEnds := true }))) (semicolon d true),
    .seq (.node .fieldDefinition (field .done)) (semicolon d false),
    mark ";"]

/-- A member of a class in a dialect with types. -/
def typedMember (d : Dialect) : Rule :=
  let words := ["access", "static", "override", "readonly", "async", "get", "set"]
  let head := seqs [memberWords words, opt (mark "*"), named .name (sym .propertyName), opt (operator "?"),
    sym .callSignature]
  let separator := fun afterExpression => Grammar.Rule.alt (semicolon d afterExpression) (mark ",")
  let field := seqs [.many (sym .decorator),
    memberWords ["access", "static", "override", "readonly", "declare", "abstract", "accessor"],
    named .name (sym .propertyName), opt (.alt (operator "?") (operator "!")),
    opt (named .type (sym .typeClause))]
  alts [
    staticBlock d,
    seqs [.many (sym .decorator), nodeOf .methodDefinition [head, named .body (sym (.block false))],
      opt (semicolon d false)],
    seqs [.many (sym .decorator), .node .methodSignature head, .alt (signatureEnd d) (mark ",")],
    seqs [nodeOf .member [memberWords (words ++ ["abstract"]), opt (mark "*"), named .name (sym .propertyName),
      opt (operator "?"), sym .callSignature], .alt (signatureEnd d) (mark ",")],
    seqs [nodeOf .member [opt (seqs [word "static", ahead fun c => c = '[' || c = 'r']), indexSignature],
      separator false],
    .seq (nodeOf .fieldDefinition [field, initializer { lineEnds := true }]) (separator true),
    .seq (.node .fieldDefinition field) (separator false),
    mark ";"]

/-- The body of a class. -/
def classBody (d : Dialect) : Rule :=
  nodeOf .classBody [mark "\x7b", .many (if d.hasTypes then typedMember d else plainMember d), mark "\x7d"]

/-! ## Declarations with types only -/

/-- An interface. -/
def interface (d : Dialect) : Rule :=
  nodeOf .interfaceDeclaration [
    word "interface", named .name (.leaf .typeName Lexeme.identifier?), opt (sym .typeParameters),
    opt (nodeOf .extendsTypeClause [word "extends", commaList1 namedType]),
    named .body (.node .interfaceBody (objectTypeRest d))]

/-- A type alias. -/
def typeAlias (d : Dialect) : Rule :=
  nodeOf .typeAlias [
    word "type", named .name (.leaf .typeName Lexeme.identifier?), opt (sym .typeParameters),
    operator "=", named .value (sym .type), semicolon d false]

/-- An enumeration. -/
def enumeration : Rule :=
  nodeOf .enumDeclaration [
    opt (word "const"), word "enum", named .name identifier,
    bracketed "\x7b" (.seq (sym .propertyName) (opt (.seq (operator "=") freeExpression))) "\x7d"]

/-- A namespace or a module. -/
def namespaceDeclaration (d : Dialect) : Rule :=
  let name := .alt string (.seq identifier (.many (.seq (operator ".") identifier)))
  .alt
    (nodeOf .statement [word "module", sameLine, name, opt (.seq (sym (.block false)) (bodyEnd d false))])
    (nodeOf .statement [word "namespace", sameLine, name, sym (.block false), bodyEnd d false])

/-- Another name for what an import or a namespace holds. -/
def importAlias (d : Dialect) : Rule :=
  nodeOf .statement [word "import", identifier, operator "=", identifier,
    .many (.seq (operator ".") anyName), semicolon d false]

/-- A declaration of something that is defined elsewhere. -/
def ambient (d : Dialect) : Rule :=
  nodeOf .statement [word "declare", .alt (seqs [sameLine, sym (.declaration false)])
    (seqs [word "global", sym (.block false), bodyEnd d false])]

/-- Any declaration; `orExpression` says that an expression could stand here too. -/
def declaration (d : Dialect) (orExpression : Bool) : Rule :=
  let plain := [functionDeclaration d orExpression, classDeclaration d orExpression]
  let typed := [functionSignature d, abstractClass d, interface d, typeAlias d, enumeration,
    namespaceDeclaration d, importAlias d, ambient d]
  alts (plain ++ (if d.hasTypes then typed else []) ++ [variableDeclaration])

end SourceDoc.Script.Rule
