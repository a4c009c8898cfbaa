import SourceDoc.Script.Rule.Pattern

/-!
# Expressions

The rules for expressions.  Operators are read from left to right without their ranks, since no reader of
declarations asks for them; what is kept is which kind of expression stands at the top.
-/

namespace SourceDoc.Script.Rule

/-- An expression in which nothing is restricted. -/
def freeExpression : Rule := sym (.expression {})

/-- An expression, or one to be spread. -/
def spreadOr : Rule := .alt (nodeOf .expression [mark "...", freeExpression]) freeExpression

/-- Arguments in parentheses. -/
def arguments : Rule :=
  nodeOf .expression [mark "(", opt spreadOr, .many (.seq (mark ",") (opt spreadOr)), mark ")"]

/-- A template with its substitutions. -/
def template : Rule :=
  nodeOf .expression [
    mark "\x60",
    .many (.alt (.tight .expression Lexeme.templateChars?)
      (seqs [.tight (.token "$\x7b") (Lexeme.exactly "$\x7b"), sym (.expressions {}), mark "\x7d"])),
    .tight (.token "\x60") (Lexeme.exactly "\x60")]

/-- Type arguments that something other than an operand follows. -/
def instantiation : Rule :=
  seqs [sym .typeArguments,
    .check fun t =>
      match (Lexeme.nextToken t).head? with
      | none => true
      | some c => ";,)]\x7d:.".toList.any (· = c) || !Lexeme.sameLine t]

/-- Members, subscripts and, where wanted, calls after an operand. -/
def operandTails (d : Dialect) (c : Context) (calls : Bool) : List Tail :=
  let always : Kind → Bool := fun _ => true
  let property := alts [.leaf .propertyName Lexeme.name?, .leaf .privateName Lexeme.privateName?]
  let members : List Tail := [
    .tail always .memberExpression none (.seq (operator ".") property),
    .tail always .memberExpression none (.seq (operator "?.") property),
    .tail always .subscript none (seqs [opt (operator "?."), mark "[", sym (.expressions {}), mark "]"])]
  let callTails : List Tail := [
    .tail always .expression none (.seq (opt (operator "?.")) arguments),
    .tail always .expression none template]
  let typedMembers : List Tail := [
    .tail always .nonNull none (seqs [if c.lineEnds then sameLine else .done, operator "!"])]
  let typedCalls : List Tail := [
    .tail always .expression none (seqs [opt (operator "?."), sym .typeArguments, .alt arguments template])]
  let typedValues : List Tail := [.tail always .expression none instantiation]
  members ++ (if calls then callTails else []) ++ (if d.hasTypes then typedMembers else []) ++
    (if d.hasTypes && calls then typedCalls ++ typedValues else [])

/-- The name, parameters and body of a function in an expression. -/
def functionRest : Rule :=
  seqs [opt (named .name identifier), sym .callSignature, named .body (sym (.block true))]

/-- `async` before something on the same line. -/
def asyncWord : Rule := .seq (word "async") sameLine

/-- Words before the name of a method in an object: each is one only if a name follows. -/
def objectMethod : Rule :=
  let rest := seqs [named .name (sym .propertyName), sym .callSignature, named .body (sym (.block false))]
  .node .methodDefinition (alts [
    seqs [word "async", mark "*", rest],
    seqs [word "async", beforeName, rest],
    seqs [.alt (word "get") (word "set"), beforeName, rest],
    seqs [mark "*", rest],
    rest])

/-- An object literal. -/
def object : Rule :=
  let entry := alts [
    nodeOf .expression [mark "...", freeExpression],
    objectMethod,
    nodeOf .member [sym .propertyName, operator ":", freeExpression],
    .chain identifier [.tail (fun _ => true) .member none (.seq (operator "=") freeExpression)]]
  nodeOf .object [mark "\x7b", opt entry, .many (.seq (mark ",") (opt entry)), mark "\x7d"]

/-- A name in markup, with a namespace or members. -/
def markupName : Rule :=
  let part := Grammar.Rule.leaf Kind.identifier Lexeme.markupName?
  .seq part (.many (.alt (.seq (operator ".") part) (.seq (operator ":") part)))

/-- An attribute of a markup element. -/
def markupAttribute : Rule :=
  .alt (seqs [mark "\x7b", mark "...", freeExpression, mark "\x7d"])
    (seqs [markupName, opt (seqs [operator "=", alts [
      .leaf .string Lexeme.markupString?,
      seqs [mark "\x7b", opt spreadOr, mark "\x7d"],
      sym .element]])])

/-- A markup element or fragment with what stands in it. -/
def element (d : Dialect) : Rule :=
  let children := Grammar.Rule.many (alts [
    .tight .expression Lexeme.markupText?,
    seqs [mark "\x7b", opt (.alt spreadOr (sym (.expressions {}))), mark "\x7d"],
    seqs [.without (seqs [mark "<", mark "/"]), sym .element]])
  let closing := seqs [mark "<", mark "/", opt markupName, mark ">"]
  let head := seqs [mark "<", markupName, if d.hasTypes then opt (sym .typeArguments) else .done,
    .many markupAttribute]
  .node .expression (.alt
    (seqs [mark "<", mark ">", children, closing])
    (seqs [head, .alt (.seq (mark "/") (mark ">")) (seqs [mark ">", children, closing])]))

/-- The operands that need no operator. -/
def primary (d : Dialect) : Rule :=
  alts [
    nodeOf .parenthesized [mark "(", sym (.expressions {}),
      if d.hasTypes then opt (sym .typeClause) else .done, mark ")"],
    nodeOf .array [mark "[", opt spreadOr, .many (.seq (mark ",") (opt spreadOr)), mark "]"],
    sym .object,
    string,
    template,
    .leaf .number Lexeme.number?,
    .leaf .expression Lexeme.regex?,
    nodeOf .functionExpression [opt asyncWord, word "function", functionRest],
    nodeOf .generatorExpression [opt asyncWord, word "function", mark "*", functionRest],
    nodeOf .classExpression [.many (sym .decorator), word "class",
      opt (named .name (seqs [.without (.alt (word "extends") (word "implements")), identifier])),
      if d.hasTypes then opt (sym .typeParameters) else .done,
      opt (sym .superclass), named .body (sym .classBody)],
    .node .expression (.seq (word "import") (ahead fun c => c = '(' || c = '.')),
    if d.hasMarkup then sym .element else .fail,
    .leaf .thisValue (Lexeme.keyword? "this"),
    .leaf .expression (Lexeme.keyword? "super"),
    .leaf .expression (Lexeme.keyword? "null"),
    .leaf .expression (Lexeme.keyword? "true"),
    .leaf .expression (Lexeme.keyword? "false"),
    .leaf .privateName Lexeme.privateName?,
    .leaf .undefinedValue (Lexeme.keyword? "undefined"),
    identifier]

/-- `new` with what it makes and the arguments. -/
def construction (d : Dialect) : Rule :=
  nodeOf .expression [word "new", .alt (.seq (operator ".") (word "target"))
    (seqs [.chain (.alt (sym .construction) (primary d)) (operandTails d {} false),
      if d.hasTypes then opt (.seq (sym .typeArguments) (ahead (· = '('))) else .done, opt arguments])]

/-- An operand with members, subscripts and calls. -/
def operand (d : Dialect) (c : Context) : Rule :=
  .chain (.alt (sym .construction) (primary d)) (operandTails d c true)

/-- An operand with the operators before and after it. -/
def unary (d : Dialect) (c : Context) : Rule :=
  alts [
    nodeOf .expression [operators ["!", "~", "-", "+", "++", "--"], sym (.unary c)],
    nodeOf .expression [alts [word "typeof", word "void", word "delete"], sym (.unary c)],
    nodeOf .expression [word "await", sym (.unary c)],
    if d.hasTypes && !d.hasMarkup then
      nodeOf .expression [mark "<", sym .type, mark ">", sym (.unary c)]
    else .fail,
    .chain (sym (.operand c))
      [.tail (fun _ => true) .expression none
        (seqs [if c.lineEnds then sameLine else .done, operators ["++", "--"]])]]

/-- An arrow function. -/
def arrow (c : Context) : Rule :=
  let rest := seqs [operator "=>",
    named .body (.alt (.seq (ahead (· = '\x7b')) (sym (.block true))) (sym (.expression c)))]
  let single := named .parameter (.alt (.leaf .undefinedValue (Lexeme.keyword? "undefined")) identifier)
  .node .arrowFunction (alts [
    seqs [asyncWord, single, rest],
    seqs [asyncWord, sym (.arrowSignature c), rest],
    seqs [single, rest],
    seqs [ahead fun x => x = '(' || x = '<', sym (.arrowSignature c), rest]])

/-- What may stand left of an assignment. -/
def isAssignable (k : Kind) : Bool :=
  k = .identifier || k = .undefinedValue || k = .memberExpression || k = .subscript || k = .parenthesized ||
    k = .array || k = .object || k = .nonNull

/-- Operators between two operands. -/
def binaryOperators : List String :=
  ["||", "&&", "??", "|", "^", "&", "==", "===", "!=", "!==", "<", ">", "<=", ">=", "<<", ">>", ">>>",
    "+", "-", "*", "/", "%", "**"]

/-- Operators that assign. -/
def assignmentOperators : List String :=
  ["=", "+=", "-=", "*=", "/=", "%=", "^=", "&=", "|=", ">>=", ">>>=", "<<=", "**=", "&&=", "||=", "??="]

/-- What may follow the first operand of an expression. -/
def expressionTails (d : Dialect) (c : Context) : List Tail :=
  let always : Kind → Bool := fun _ => true
  let basic : List Tail := [
    .tail isAssignable .expression none (.seq (operators assignmentOperators) (sym (.expression c))),
    .tail always .expression none (.seq (operators binaryOperators) (sym (.unary c))),
    .tail always .expression none
      (.seq (if c.noIn then word "instanceof" else .alt (word "instanceof") (word "in")) (sym (.unary c))),
    .tail always .expression none (seqs [operator "?",
      .alt
        (seqs [sym (.expression {}), operator ":"])
        (seqs [sym (.expression { noResultType := true }), operator ":"]),
      sym (.expression c)])]
  let typed : List Tail := [
    .tail always .expression none
      (seqs [if c.lineEnds then sameLine else .done, .alt (word "as") (word "satisfies"),
        .alt (.leaf (.token "const") (Lexeme.keyword? "const")) (sym .type)])]
  basic ++ (if d.hasTypes then typed else [])

/-- An expression without commas at its top. -/
def expression (d : Dialect) (c : Context) : Rule :=
  alts [
    arrow c,
    nodeOf .expression [word "yield", .alt (.seq (mark "*") (sym (.expression c)))
      (opt (.seq sameLine (sym (.expression c))))],
    .chain (sym (.unary c)) (expressionTails d c)]

/-- An expression with commas. -/
def expressions (c : Context) : Rule :=
  .chain (sym (.expression c))
    [.tail (fun _ => true) .expression none (.seq (mark ",") (sym (.expression c)))]

end SourceDoc.Script.Rule
