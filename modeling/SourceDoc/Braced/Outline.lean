import SourceDoc.Braced.TypeDecl

/-!
# The outline of a braced source

Reads the outline of a source whose blocks stand between braces, line by line and without a syntax tree.  A
function with a receiver is a method of the type of that name, and stays a symbol of its own.  Imports stand alone or in
a group between brackets.  Every symbol whose name starts with a capital letter is an export, and so is every other type
definition with such a name.
-/

namespace SourceDoc.Braced

open Text

/-! ## Imports -/

/-- The path between double quotes at the front of a text. -/
def quotedPath? : Text → Option Text
  | '"' :: rest =>
    match rest.takeWhile (· ≠ '"'), rest.dropWhile (· ≠ '"') with
    | c :: path, _ :: _ => some (c :: path)
    | _, _ => none
  | _ => none

/-- The other name under which a module is imported, if any, and the path of the module. -/
def importSpec? (t : Text) : Option (Option Text × Text) :=
  match quotedPath? t with
  | some path => some (none, path)
  | none =>
    let name? := match t with
      | '.' :: rest => some (['.'], rest)
      | _ => identifier? t
    name?.bind fun (name, rest) =>
      ((afterBlanks? rest).bind quotedPath?).map fun path => (some name, path)

/-- The name that an import introduces: the last part of the path unless it has another. -/
def bindingOf (name? : Option Text) (path : Text) : Binding :=
  match name? with
  | none => { name := afterLast '/' path, kind := "default".toList }
  | some name =>
    { name := name
      kind := if name = ['.'] then "namespace".toList else "default".toList
      imported := some path }

/-- The import on a line. -/
def importOn (line : Nat) (spec : Option (Option Text × Text)) : List Import :=
  spec.toList.map fun (name, path) => { source := path, bindings := [bindingOf name path], startLine := line }

/-- The imports on some lines, the first of which has a number. -/
def importsFrom (inGroup : Bool) (line : Nat) : List Text → List Import
  | [] => []
  | t :: rest =>
    let code := strip (uncommented t)
    if inGroup then
      if code = [')'] then importsFrom false (line + 1) rest
      else importOn line (importSpec? code) ++ importsFrom true (line + 1) rest
    else if opensGroup "import".toList code then importsFrom true (line + 1) rest
    else importOn line ((afterWord? "import".toList code).bind importSpec?) ++ importsFrom false (line + 1) rest

/-- The imports of a file. -/
def importsOf (lines : List Text) : List Import := importsFrom false 1 lines

/-! ## Exports -/

/-- The definition after the name of a type: an equals sign and type parameters before it do not belong to it, unless
nothing else is left. -/
def definitionOf (t : Text) : Option Text :=
  let body := stripLeft t
  let afterEquals := fun (t : Text) =>
    match stripLeft t with
    | '=' :: rest => if stripLeft rest = [] then some ['='] else some (stripLeft rest)
    | [] => none
    | bare => some bare
  ((afterSquare? body).bind afterEquals).or (afterEquals body)

/-- The name and the definition on a line that defines a type.  Where nothing follows the name, its last character
counts as the definition. -/
def definition? (t : Text) : Option (Text × Text) :=
  ((afterWord? "type".toList t).bind identifier?).bind fun (name, rest) =>
    match definitionOf rest with
    | some definition => some (name, definition)
    | none =>
      match name.dropLast, name.getLast? with
      | c :: front, some last => some (c :: front, [last])
      | _, _ => none

/-- The definition is that of a group or of a type with members. -/
def isStructured (definition : Text) : Bool :=
  ["struct", "interface", "("].any fun head => startsWith definition head.toList

/-- The type definitions that are exports, from line `i` on. -/
def definitionsOf (lines : List Text) : List Export :=
  (List.range lines.length).filterMap fun (i : Nat) =>
    let line := (lines[i]?).getD []
    if startsWith line "type".toList then
      match definition? (strip (uncommented line)) with
      | some (name, definition) =>
        if isStructured definition || !isPublic name then none
        else
          some { name := name, kind := "type-alias".toList, definition := some (strip definition), startLine := i + 1 }
      | none => none
    else none

/-- The exports of a file, in the order of their lines. -/
def exportsOf (lines : List Text) (functions : List FunctionDecl) (types : List SourceDoc.TypeDecl) :
    List Export :=
  let ofFunctions := (functions.filter fun f => f.receiver = [] ∧ isPublic f.name).map fun f =>
    ({ name := f.name, kind := "function".toList, startLine := f.startLine } : Export)
  let ofTypes := (types.filter fun t => isPublic t.name).map fun t =>
    ({ name := t.name, kind := "type".toList, startLine := t.startLine } : Export)
  (ofFunctions ++ ofTypes ++ definitionsOf lines).mergeSort fun a b => a.startLine ≤ b.startLine

/-! ## The outline -/

/-- The type with the functions that are its methods. -/
def attach (functions : List FunctionDecl) (t : SourceDoc.TypeDecl) : SourceDoc.TypeDecl :=
  { t with methods := t.methods ++ functions.filter fun f => f.receiver ≠ [] ∧ f.receiver = t.name }

/-- The outline of a source. -/
def outlineOf (language path source : Text) : Except Failure Outline :=
  let lines := Text.lines source
  let total := (boundaryLines source).length
  (functionsOf lines total).bind fun functions =>
    (typesOf lines total).map fun types =>
      let types := types.map (attach functions)
      { path := path, language := language, source := source
        decls := (functions.map Decl.function ++ types.map Decl.type).mergeSort fun a b => a.startLine ≤ b.startLine
        imports := importsOf lines
        exports := exportsOf lines functions types }

end SourceDoc.Braced
