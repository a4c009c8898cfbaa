import SourceDoc.Script.Rule.Declaration

/-!
# Statements

Imports, exports, and the statements that run.
-/

namespace SourceDoc.Script.Rule

/-! ## Imports and exports -/

/-- A name of a module's export. -/
def exportName : Rule := .alt anyName string

/-- The module that is read from. -/
def fromClause : Rule := .seq (word "from") (named .source string)

/-- Attributes after the name of a module. -/
def importAttributes : Rule := opt (seqs [sameLine, .alt (word "with") (word "assert"), sym .object])

/-- `type` or `typeof` before a name. -/
def typeWord (d : Dialect) (p : Char → Bool) : Rule :=
  if d.hasTypes then opt (seqs [.alt (word "type") (word "typeof"), ahead p]) else .done

/-- One name in an import. -/
def importSpecifier (d : Dialect) : Rule :=
  let body := .alt
    (seqs [named .name exportName, word "as", named .newName identifier])
    (named .name identifier)
  if d.hasTypes then
    .alt (nodeOf .importSpecifier [.alt (word "type") (word "typeof"), body, listEnd])
      (nodeOf .importSpecifier [body])
  else nodeOf .importSpecifier [body]
where
  /-- The next token goes on with a list of names, or ends it. -/
  listEnd : Rule := ahead fun c => c = ',' || c = '\x7d'

/-- All names of a module under one. -/
def namespaceImport : Rule := nodeOf .namespaceImport [mark "*", word "as", identifier]

/-- What an import brings in. -/
def importClause (d : Dialect) : Rule :=
  let group := .alt namespaceImport (.node .namedImports (bracketed "\x7b" (importSpecifier d) "\x7d"))
  .node .importClause (.alt group (.seq identifier (opt (.seq (mark ",") group))))

/-- An import. -/
def importStatement (d : Dialect) : Rule :=
  let plain := .alt
    (.seq (importClause d) fromClause)
    (named .source string)
  let required := nodeOf .statement [identifier, operator "=", word "require", mark "(", named .source string, mark ")"]
  let body := if d.hasTypes then
      alts [
        seqs [.alt (word "type") (word "typeof"), .alt (.seq (importClause d) fromClause) required],
        plain, required]
    else plain
  nodeOf .importStatement [word "import", body, importAttributes, semicolon d false]

/-- One name in an export. -/
def exportSpecifier (d : Dialect) : Rule :=
  let body := seqs [named .name exportName, opt (.seq (word "as") (named .newName exportName))]
  if d.hasTypes then
    .alt (nodeOf .exportSpecifier [.alt (word "type") (word "typeof"), body, importSpecifier.listEnd])
      (nodeOf .exportSpecifier [body])
  else nodeOf .exportSpecifier [body]

/-- An export. -/
def exportStatement (d : Dialect) : Rule :=
  let clause := Grammar.Rule.node Kind.exportClause (bracketed "\x7b" (exportSpecifier d) "\x7d")
  let everything := .alt (nodeOf .namespaceExport [mark "*", word "as", exportName]) (mark "*")
  let plain := [
    seqs [everything, fromClause, importAttributes, semicolon d false],
    seqs [clause, opt (.seq fromClause importAttributes), semicolon d false],
    seqs [word "default", named .declaration (sym (.declaration true))],
    seqs [word "default", named .value (sym (.expression { lineEnds := true })), semicolon d true],
    named .declaration (sym (.declaration false))]
  let typed := [
    seqs [word "type", .alt clause everything, opt fromClause, semicolon d false],
    seqs [word "import", opt (word "type"), identifier, operator "=",
      .alt (seqs [word "require", mark "(", string, mark ")"]) (.seq identifier (.many (.seq (operator ".") anyName))),
      semicolon d false],
    seqs [operator "=", sym (.expression { lineEnds := true }), semicolon d true],
    seqs [word "as", word "namespace", identifier, semicolon d false]]
  nodeOf .exportStatement [.many (sym .decorator), word "export", alts (plain ++ if d.hasTypes then typed else [])]

/-! ## Other statements -/

/-- A condition in parentheses. -/
def condition : Rule := nodeOf .parenthesized [mark "(", sym (.expressions {}), mark ")"]

/-- Any statement. -/
def anyStatement : Rule := sym .statement

/-- A statement block in a statement: nothing in braces could be an object too. -/
def bracedStatement (d : Dialect) : Rule :=
  .alt
    (.seq (nodeOf .block [mark "\x7b", mark "\x7d", bodyEnd d true]) .done)
    (sym (.block false))

/-- The head of a loop over the members or elements of a value. -/
def loopOver (d : Dialect) : Rule :=
  let c : Context := { noIn := true }
  let annotation := if d.hasTypes then opt (sym .typeClause) else .done
  seqs [mark "(",
    .alt
      (seqs [alts [word "let", word "const", word "var"], sym .pattern, annotation, opt (initializer c)])
      (sym (.operand c)),
    .alt (word "in") (word "of"), sym (.expressions {}), mark ")"]

/-- The head of a loop with a condition. -/
def loopWhile (d : Dialect) : Rule :=
  let c : Context := { noIn := true }
  seqs [mark "(",
    opt (.alt (seqs [alts [word "let", word "const", word "var"], declarators d c]) (sym (.expressions c))),
    mark ";", opt (sym (.expressions {})), mark ";", opt (sym (.expressions {})), mark ")"]

/-- A case of a switch. -/
def switchCase : Rule :=
  .seq (.alt (seqs [word "case", sym (.expressions {})]) (word "default"))
    (.seq (operator ":") (.many anyStatement))

/-- A label after `break` or `continue`. -/
def label : Rule := opt (.seq sameLine identifier)

/-- A `try` with its handlers. -/
def tryStatement (d : Dialect) : Rule :=
  let braces := seqs [sym (.block false), bodyEnd d false]
  nodeOf .statement [word "try", braces,
    opt (seqs [word "catch", opt (seqs [mark "(", sym .pattern,
      if d.hasTypes then opt (sym .typeClause) else .done, mark ")"]), braces]),
    opt (.seq (word "finally") braces)]

/-- Any statement. -/
def statement (d : Dialect) : Rule :=
  let c : Context := { lineEnds := true }
  alts [
    exportStatement d,
    importStatement d,
    sym (.declaration true),
    bracedStatement d,
    nodeOf .statement [word "if", condition, anyStatement, opt (.seq (word "else") anyStatement)],
    nodeOf .statement [word "for", opt (word "await"), .alt (loopOver d) (loopWhile d), anyStatement],
    nodeOf .statement [word "while", condition, anyStatement],
    nodeOf .statement [word "do", anyStatement, word "while", condition, opt (semicolon d false)],
    tryStatement d,
    nodeOf .statement [word "switch", condition, mark "\x7b", .many switchCase, mark "\x7d"],
    nodeOf .statement [word "with", condition, anyStatement],
    nodeOf .statement [.alt (word "break") (word "continue"), label, semicolon d false],
    nodeOf .statement [word "return", sameLine, sym (.expressions c), semicolon d true],
    nodeOf .statement [word "return", semicolon d false],
    nodeOf .statement [word "throw", sym (.expressions c), semicolon d true],
    nodeOf .statement [word "debugger", semicolon d false],
    nodeOf .statement [mark ";"],
    nodeOf .statement [identifier, operator ":", anyStatement],
    nodeOf .statement [sym (.expressions c), semicolon d true]]

/-- Statements in braces. -/
def block (d : Dialect) (thenOperator : Bool) : Rule :=
  nodeOf .block [mark "\x7b", .many anyStatement, mark "\x7d", bodyEnd d thenOperator]

/-- The whole text: a line for the shell, if there is one, and statements up to the end. -/
def program : Rule :=
  let shellLine : Text → Option Nat := fun t =>
    if "#!".toList.isPrefixOf t then some (t.takeWhile (· ≠ '\n')).length else none
  seqs [opt (.tight .statement shellLine), .many anyStatement,
    .leaf .empty fun t => if t.isEmpty then some 0 else none]

end SourceDoc.Script.Rule
