import SourceDoc.Outline.Basic
import SourceDoc.Script.Grammar
import SourceDoc.Text.Comment

/-!
# The outline of a script

Reads the outline of a script off its syntax tree.  Only the statements at the top are looked at: an import is
an edge to a module, an export makes names visible, and functions, variables whose value is a function, classes
and interfaces are symbols.  A comment belongs to what follows it if it stands directly above, with at most one
blank line between.
-/

namespace SourceDoc.Script

open Grammar

/-! ## Lines and comments -/

/-- The line on which a node starts. -/
def startLine (n : Node) : Int := n.start.row + 1

/-- The line on which a node ends. -/
def endLine (n : Node) : Int := n.stop.row + 1

/-- Each node with the nodes before it, nearest first. -/
def withBefore (before : List Node) : List Node → List (List Node × Node)
  | [] => []
  | n :: rest => (before, n) :: withBefore (n :: before) rest

/-- The comments directly above a row, the lowest first; one blank line may stand between neighbours. -/
def commentsAbove (row : Nat) : List Node → List Node
  | [] => []
  | n :: before =>
    if n.kind = .comment ∧ row - n.stop.row ≤ 2 then n :: commentsAbove n.start.row before else []

/-- The text of the comments above a node. -/
def leadingComments (source : Text) (before : List Node) (n : Node) : Option Text :=
  Text.joinComments (((commentsAbove n.start.row before).map fun c => Text.stripComment (c.text source)).reverse)

/-! ## Types -/

/-- The text of a type as documentation shows it: a name, the name of a generic type, or an array of such;
any other type is `any`. -/
def typeText (source : Text) : Node → Text
  | .node kind _ start stop children =>
    match kind with
    | .typeClause => ofFirst children
    | .predefinedType | .typeName | .nestedTypeName =>
      (source.drop start.offset).take (stop.offset - start.offset)
    | .genericType => ofName children
    | .arrayType => ofFirst children ++ ['[', ']']
    | _ => "any".toList
where
  /-- The text of the first child that is no keyword or mark. -/
  ofFirst : List Node → Text
    | [] => "any".toList
    | n :: rest => if n.kind.isNamed then typeText source n else ofFirst rest
  /-- The text of the child that is the name. -/
  ofName : List Node → Text
    | [] => "any".toList
    | n :: rest => if n.field = some .name then typeText source n else ofName rest

/-- The type in a field of a node. -/
def typeIn? (source : Text) (n : Node) (f : Field) : Option Text := (n.child? f).map (typeText source)

/-! ## Parameters -/

/-- The text of a child, empty where there is none. -/
def textOf (source : Text) (n : Option Node) : Text := (n.map (·.text source)).getD []

/-- The name of a parameter: a destructuring pattern has none of its own. -/
def patternName (source : Text) (p : Node) : Text :=
  if p.kind = .objectPattern then "\x7bobject\x7d".toList
  else if p.kind = .arrayPattern then "[array]".toList
  else if p.kind = .restPattern then
    match p.first? .identifier with
    | some name => "...".toList ++ name.text source
    | none => "...rest".toList
  else p.text source

/-- A parameter of a function. -/
def parameterOf (source : Text) (n : Node) : Parameter :=
  let isTyped := n.kind = .requiredParameter ∨ n.kind = .optionalParameter
  let pattern := if isTyped then (n.child? .pattern).getD n else n
  let type := if isTyped then typeIn? source n .type else none
  let value := if isTyped then (n.child? .value).map (·.text source) else none
  if pattern.kind = .assignmentPattern then
    { name := patternName source ((pattern.child? .left).getD pattern)
      type := type
      initial := ((pattern.child? .right).map (·.text source)).or value
      isOptional := true }
  else
    { name := patternName source pattern
      type := type
      initial := value
      isOptional := n.kind = .optionalParameter || value.isSome }

/-- The parameters of a function. -/
def parametersOf (source : Text) (n : Node) : List Parameter :=
  match n.child? .parameter with
  | some single => [{ name := single.text source }]
  | none =>
    match n.child? .parameters with
    | some list => ((namedChildren list).filter (·.kind ≠ .comment)).map (parameterOf source)
    | none => []

/-! ## Functions and members -/

/-- The modifier of access of a member. -/
def visibilityOf (source : Text) (n : Node) (name : Option Node) : Option Text :=
  match n.first? .accessModifier with
  | some m => some (m.text source)
  | none => if name.any (·.kind = .privateName) then some "private".toList else none

/-- A function with its name, its extent and its comments given. -/
def functionOf (source : Text) (name : Text) (n : Node) (before : List Node) (anchor : Node) : FunctionDecl :=
  { name := name
    parameters := parametersOf source n
    returnType := typeIn? source n .returnType
    isAsync := n.has (.token "async")
    isGenerator := n.kind = .generatorDeclaration || n.kind = .generatorExpression || n.has (.token "*")
    comments := leadingComments source before anchor
    startLine := startLine anchor
    endLine := endLine anchor }

/-- A method of a class or an interface. -/
def methodOf (source : Text) (before : List Node) (n : Node) : FunctionDecl :=
  { name := textOf source (n.child? .name)
    parameters := parametersOf source n
    returnType := typeIn? source n .returnType
    isAsync := n.has (.token "async")
    isGenerator := n.has (.token "*")
    isStatic := n.has (.token "static")
    visibility := visibilityOf source n (n.child? .name)
    comments := leadingComments source before n
    startLine := startLine n
    endLine := endLine n
    isOptional := n.has (.token "?") }

/-- A field of a class. -/
def fieldOf (source : Text) (before : List Node) (n : Node) : Property :=
  { name := textOf source (n.child? .name)
    type := typeIn? source n .type
    isStatic := n.has (.token "static")
    visibility := visibilityOf source n (n.child? .name)
    isOptional := n.has (.token "?")
    comments := leadingComments source before n }

/-- The fields that a constructor declares by its parameters with a modifier of access. -/
def parameterFields (source : Text) (n : Node) : List Property :=
  match n.child? .parameters with
  | none => []
  | some list =>
    (namedChildren list).filterMap fun p =>
      if p.kind = .requiredParameter ∨ p.kind = .optionalParameter then
        (p.first? .accessModifier).map fun m =>
          { name := textOf source (p.child? .pattern)
            type := typeIn? source p .type
            visibility := some (m.text source)
            isOptional := p.kind = .optionalParameter }
      else none

/-! ## Classes and interfaces -/

/-- The class that a class extends, where it is a name or a member of one. -/
def superclassOf (source : Text) (n : Node) : Option Text :=
  match n.first? .classHeritage with
  | none => none
  | some heritage =>
    let target := match heritage.first? .extendsClause with
      | some clause => (clause.child? .value).or (namedChildren clause).head?
      | none => if heritage.has (.token "extends") then (namedChildren heritage).head? else none
    match target with
    | some t => if t.kind = .identifier ∨ t.kind = .memberExpression then some (t.text source) else none
    | none => none

/-- Adds a member of a class: the last constructor is the constructor, every other method is a method. -/
def addMember (source : Text) (t : TypeDecl) (member : List Node × Node) : TypeDecl :=
  let (before, n) := member
  if n.kind = .methodDefinition then
    let m := methodOf source before n
    if m.name = "constructor".toList then
      { t with constructor? := some m, properties := t.properties ++ parameterFields source n }
    else { t with methods := t.methods ++ [m] }
  else if n.kind = .fieldDefinition ∧ (n.child? .name).isSome then
    { t with properties := t.properties ++ [fieldOf source before n] }
  else t

/-- A class with a name. -/
def classOf? (source : Text) (n : Node) (before : List Node) (anchor : Node) : Option TypeDecl :=
  match textOf source (n.child? .name) with
  | [] => none
  | name =>
    let members := (((n.child? .body).map Tree.children).getD [])
    some ((withBefore [] members).foldl (addMember source)
      { name := name
        superType := superclassOf source n
        startLine := startLine anchor
        endLine := endLine anchor
        comments := leadingComments source before anchor })

/-- Adds a member of an interface. -/
def addSignature (source : Text) (t : TypeDecl) (member : List Node × Node) : TypeDecl :=
  let (before, n) := member
  if n.kind = .propertySignature then
    { t with properties := t.properties ++ [
      { name := textOf source (n.child? .name)
        type := typeIn? source n .type
        isOptional := n.has (.token "?")
        comments := leadingComments source before n }] }
  else if n.kind = .methodSignature then { t with methods := t.methods ++ [methodOf source before n] }
  else t

/-- The first interface that an interface extends. -/
def superInterface (source : Text) (n : Node) : Option Text :=
  match (n.first? .extendsTypeClause).bind fun c => (namedChildren c).head? with
  | none => none
  | some parent =>
    let shown := typeText source parent
    some (if shown = "any".toList then parent.text source else shown)

/-- An interface. -/
def interfaceOf (source : Text) (n : Node) (before : List Node) (anchor : Node) : TypeDecl :=
  let members := (((n.child? .body).map Tree.children).getD [])
  (withBefore [] members).foldl (addSignature source)
    { name := textOf source (n.child? .name)
      superType := superInterface source n
      isInterface := true
      startLine := startLine anchor
      endLine := endLine anchor
      comments := leadingComments source before anchor
      kind := "interface".toList }

/-! ## Statements -/

/-- What some statements contribute to an outline. -/
structure Contribution where
  decls : List Decl := []
  imports : List Import := []
  exports : List Export := []

/-- Both contributions, in order. -/
def Contribution.append (a b : Contribution) : Contribution :=
  ⟨a.decls ++ b.decls, a.imports ++ b.imports, a.exports ++ b.exports⟩

/-- A text without the quotes around it. -/
def unquote (t : Text) : Text :=
  match t, t.getLast? with
  | q :: _ :: _, some last =>
    if q = last ∧ (q = '"' ∨ q = '\'' ∨ q = '\x60') then (t.drop 1).dropLast else t
  | _, _ => t

/-- The names that one part of an import clause introduces. -/
def bindingsOf (source : Text) (n : Node) : List Binding :=
  if n.kind = .identifier then [{ name := n.text source, kind := "default".toList }]
  else if n.kind = .namespaceImport then
    [{ name := textOf source (n.first? .identifier), kind := "namespace".toList }]
  else if n.kind = .namedImports then
    ((namedChildren n).filter (·.kind = .importSpecifier)).map fun s =>
      let imported := textOf source (s.child? .name)
      { name := ((s.child? .newName).map (·.text source)).getD imported, imported := some imported }
  else []

/-- An import statement. -/
def importOf (source : Text) (n : Node) : Import :=
  let clauses := (namedChildren n).filter (·.kind = .importClause)
  { source := unquote (textOf source (n.child? .source))
    bindings := clauses.flatMap fun c => (namedChildren c).flatMap (bindingsOf source)
    startLine := startLine n }

/-- A function, a generator, a class or an abstract class is declared. -/
def isFunctionDeclaration (k : Kind) : Bool := k = .functionDeclaration || k = .generatorDeclaration

def isVariableDeclaration (k : Kind) : Bool := k = .lexicalDeclaration || k = .variableDeclaration

def isClass (k : Kind) : Bool :=
  k = .classDeclaration || k = .abstractClassDeclaration || k = .classExpression

def isFunctionValue (k : Kind) : Bool :=
  k = .arrowFunction || k = .functionExpression || k = .generatorExpression

/-- The variables of a declaration whose value is a function. -/
def functionVariables (source : Text) (n : Node) (before : List Node) (anchor : Node) : List FunctionDecl :=
  (namedChildren n).filterMap fun v =>
    if v.kind = .variableDeclarator then
      match v.child? .name, v.child? .value with
      | some name, some value =>
        if name.kind = .identifier && isFunctionValue value.kind && name.text source ≠ [] then
          some (functionOf source (name.text source) value before anchor)
        else none
      | _, _ => none
    else none

/-- What a statement other than an import or an export contributes; `anchor` is the statement at the top, which
is the export around it where there is one. -/
def declared (source : Text) (before : List Node) (anchor n : Node) : Contribution :=
  if isFunctionDeclaration n.kind then
    match textOf source (n.child? .name) with
    | [] => {}
    | name => { decls := [.function (functionOf source name n before anchor)] }
  else if isVariableDeclaration n.kind then
    { decls := (functionVariables source n before anchor).map .function }
  else if isClass n.kind then
    { decls := (classOf? source n before anchor).toList.map .type }
  else if n.kind = .interfaceDeclaration then
    { decls := [.type (interfaceOf source n before anchor)] }
  else if n.kind = .typeAlias then
    let definition := Text.joinWith [' '] (Text.words (textOf source (n.child? .value)))
    { exports := [{
        name := textOf source (n.child? .name)
        kind := "type-alias".toList
        definition := if definition = [] then none else some definition
        startLine := startLine n }] }
  else {}

/-- The names that a declaration declares, each with the kind of its export. -/
def declaredNames (source : Text) (n : Node) : List (Text × Text) :=
  if isFunctionDeclaration n.kind then [(textOf source (n.child? .name), "function".toList)]
  else if isVariableDeclaration n.kind then
    ((namedChildren n).filter (·.kind = .variableDeclarator)).map fun v =>
      (textOf source (v.child? .name), "variable".toList)
  else if isClass n.kind || n.kind = .interfaceDeclaration || n.kind = .enumDeclaration then
    ((n.child? .name).map fun name => (name.text source, "type".toList)).toList
  else []

/-- The name under which a value is the default export. -/
def defaultName (source : Text) (value : Option Node) : Text :=
  match value with
  | none => "default".toList
  | some v =>
    if isClass v.kind || isFunctionValue v.kind then
      match textOf source (v.child? .name) with
      | [] => "default".toList
      | name => name
    else if v.kind = .identifier then v.text source
    else "default".toList

/-- The names that an export statement makes visible, beside what the declaration in it contributes. -/
def exportsOf (source : Text) (n : Node) : List Export :=
  let line := startLine n
  let isDefault := n.has (.token "default")
  match n.child? .declaration with
  | some declaration =>
    let names := declaredNames source declaration
    if isDefault then
      [{ name := ((names.head?).map Prod.fst).getD "default".toList, kind := "default".toList, startLine := line }]
    else names.map fun (name, kind) => { name := name, kind := kind, startLine := line }
  | none =>
    if isDefault then
      [{ name := defaultName source (n.child? .value), kind := "default".toList, startLine := line }]
    else
      let clauses := (namedChildren n).filter (·.kind = .exportClause)
      let specifiers := clauses.flatMap fun c => (namedChildren c).filter (·.kind = .exportSpecifier)
      specifiers.map fun s =>
        { name := textOf source ((s.child? .newName).or (s.child? .name)), kind := "named".toList, startLine := line }

/-- What a statement contributes, with the nodes before it and its anchor, the statement at the top that it is or whose
declaration it is, with the nodes before that. -/
def contribution (source : Text) (before anchorBefore : List Node) (anchor : Node) : Node → Contribution
  | .node kind field start stop children =>
    let n := .node kind field start stop children
    if kind = .importStatement then { imports := [importOf source n] }
    else if kind = .exportStatement then
      (ofDeclaration before n [] children).append { exports := exportsOf source n }
    else declared source anchorBefore anchor n
where
  /-- What the declaration among the children of an export statement contributes. -/
  ofDeclaration (exportBefore : List Node) (exported : Node) (before : List Node) : List Node → Contribution
    | [] => {}
    | n :: rest =>
      if n.field = some .declaration then contribution source before exportBefore exported n
      else ofDeclaration exportBefore exported (n :: before) rest

/-- What a statement at the top contributes. -/
def ofStatement (source : Text) (statement : List Node × Node) : Contribution :=
  contribution source statement.1 statement.1 statement.2 statement.2

/-- The outline that a syntax tree gives. -/
def outlineOf (language path source : Text) (root : Node) : Outline :=
  let statements := (withBefore [] root.children).filter (·.2.kind.isNamed)
  let all := (statements.map (ofStatement source)).foldl Contribution.append {}
  { path := path, language := language, source := source
    decls := all.decls, imports := all.imports, exports := all.exports }

end SourceDoc.Script
