import SourceDoc.Script.Rule.Basic

/-!
# Patterns and parameters

Names and destructuring patterns, the parameters of functions, and the names of properties.
-/

namespace SourceDoc.Script.Rule

/-- A pattern with a default value is a node of its own. -/
def withDefault : Rule :=
  .chain (sym .pattern)
    [.tail (fun _ => true) .assignmentPattern (some .left)
      (.seq (operator "=") (named .right (sym (.expression {}))))]

/-- A name, a destructuring pattern, or the rest of a list. -/
def pattern : Rule :=
  alts [
    nodeOf .restPattern [mark "...", sym .pattern],
    nodeOf .objectPattern [mark "\x7b",
      opt (.seq (commaList1 (alts [
        nodeOf .restPattern [mark "...", sym .pattern],
        nodeOf .pattern [sym .propertyName, operator ":", withDefault],
        .chain identifier
          [.tail (fun _ => true) .pattern none (.seq (operator "=") (sym (.expression {})))]]))
        (opt (mark ","))),
      mark "\x7d"],
    nodeOf .arrayPattern [mark "[", opt withDefault, .many (.seq (mark ",") (opt withDefault)), mark "]"],
    identifier]

/-- The name of a property: a name, a private name, a string, a number, or an expression in brackets. -/
def propertyName : Rule :=
  alts [
    .leaf .propertyName Lexeme.name?,
    .leaf .privateName Lexeme.privateName?,
    string,
    .leaf .number Lexeme.number?,
    nodeOf .computedName [mark "[", sym (.expression {}), mark "]"]]

/-- A decorator: a name with members, a call of one, or an expression in parentheses. -/
def decorator : Rule :=
  nodeOf .decorator [mark "@", alts [
    nodeOf .parenthesized [mark "(", sym (.expressions {}), mark ")"],
    .chain identifier [
      .tail (fun _ => true) .memberExpression none (.seq (operator ".") anyName),
      .tail (fun _ => true) .expression none
        (seqs [opt (sym .typeArguments), bracketed "(" (alts [.seq (mark "...") (sym (.expression {})),
          sym (.expression {})]) ")"])]]]

/-- `public`, `protected` or `private`. -/
def accessModifier : Rule :=
  .node .accessModifier (alts [word "public", word "private", word "protected"])

/-- A word before the pattern of a parameter. -/
def parameterModifier (r : Rule) : Rule :=
  seqs [r, ahead fun c => Lexeme.isNameStart c || c = '\x7b' || c = '[']

/-- What comes before the type of a parameter. -/
def parameterHead : Rule :=
  seqs [
    .many (sym .decorator),
    opt (parameterModifier accessModifier),
    opt (parameterModifier (.node .overrideModifier (word "override"))),
    opt (parameterModifier (word "readonly")),
    named .pattern (alts [.leaf .thisValue (Lexeme.keyword? "this"), sym .pattern])]

/-- One parameter. -/
def parameter (d : Dialect) : Rule :=
  if d.hasTypes then
    .alt
      (nodeOf .optionalParameter
        [parameterHead, operator "?", opt (named .type (sym .typeClause)), opt (initializer {})])
      (nodeOf .requiredParameter
        [parameterHead, opt (named .type (sym .typeClause)), opt (initializer {})])
  else withDefault

/-- Parameters in parentheses. -/
def formalParameters (d : Dialect) : Rule :=
  .node .formalParameters (bracketed "(" (parameter d) ")")

/-- A result type after a colon; a predicate on a parameter is a type too. -/
def resultType : Rule :=
  named .returnType (alts [
    nodeOf .typeExpr [operator ":", word "asserts", sameLine, identifierOrThis, opt (.seq (word "is") (sym .type))],
    nodeOf .typeExpr [operator ":", identifierOrThis, word "is", sym .type],
    sym .typeClause])
where
  /-- A name or `this`. -/
  identifierOrThis : Rule := .alt (.leaf .thisValue (Lexeme.keyword? "this")) identifier

/-- Type parameters, parameters and result type. -/
def callSignature (d : Dialect) : Rule :=
  if d.hasTypes then
    seqs [opt (sym .typeParameters), named .parameters (sym .formalParameters), opt resultType]
  else named .parameters (sym .formalParameters)

/-- The signature of an arrow function. -/
def arrowSignature (d : Dialect) (c : Context) : Rule :=
  if d.hasTypes then
    seqs [opt (sym .typeParameters), named .parameters (sym .formalParameters),
      if c.noResultType then .done else opt resultType]
  else named .parameters (sym .formalParameters)

end SourceDoc.Script.Rule
