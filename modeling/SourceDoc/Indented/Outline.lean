import SourceDoc.Indented.Symbol
import SourceDoc.Outline.Basic
import SourceDoc.Text.Pattern

/-!
# The outline of an indented source

Reads the outline of a source whose blocks are marked by indentation, line by line and without a syntax tree.
Symbols are the functions and classes whose header starts at the left margin.  An import stands on one line, or its
names stand between brackets over several lines.  The exported names are the items of the literals that are assigned or
added to `__all__`.
-/

namespace SourceDoc.Indented

open Text

/-- A line without its comment and the blanks around it. -/
def uncommented (line : Text) : Text := strip (before '#' line)

/-! ## Imports -/

/-- The name that an item of an import introduces. -/
def bindingOf (kind : Text) (item : Text) : Binding :=
  if item = ['*'] then { name := ['*'], kind := "namespace".toList }
  else
    match breakOn? " as ".toList item with
    | some (original, name) => { name := strip name, kind := kind, imported := some (strip original) }
    | none => { name := item, kind := kind }

/-- An import of names whose list is being read. -/
structure OpenImport where
  source : Text
  names : Text
  startLine : Int

/-- The import of names, from the list as written. -/
def OpenImport.close (i : OpenImport) : Import :=
  let bare := dropRight (· = '\\') (trim (fun c => c = '(' || c = ')') (strip i.names))
  { source := i.source
    bindings := (splitTopLevel ',' bare).map (bindingOf "named".toList)
    startLine := i.startLine }

/-- The list goes on below: it has an opening bracket and no closing one. -/
def OpenImport.isOpen (i : OpenImport) : Bool := startsWith i.names ['('] && !contains i.names [')']

/-- An import of names from a module. -/
def importOfNames? (line : Int) (t : Text) : Option OpenImport :=
  (afterWord? "from".toList t).bind fun rest =>
    let source := rest.takeWhile (!isBlank ·)
    (afterBlanks? (rest.drop source.length)).bind fun rest =>
      (afterWord? "import".toList rest).map fun names => ⟨source, names, line⟩

/-- The imports of whole modules on a line, one for each. -/
def importsOfModules (line : Int) (t : Text) : List Import :=
  match afterWord? "import".toList t with
  | none => []
  | some items =>
    (splitTopLevel ',' items).map fun item =>
      let binding := bindingOf "default".toList item
      let source := match binding.imported with
        | some (c :: rest) => c :: rest
        | _ => binding.name
      { source := source, bindings := [binding], startLine := line }

/-- The imports on some lines, the first of which has a number; `opened` is an import whose list goes on. -/
def importsFrom (opened : Option OpenImport) (line : Nat) : List Text → List Import
  | [] => opened.toList.map OpenImport.close
  | t :: rest =>
    let code := uncommented t
    match opened with
    | some i =>
      let i := { i with names := i.names ++ ' ' :: code }
      if contains code [')'] then i.close :: importsFrom none (line + 1) rest
      else importsFrom (some i) (line + 1) rest
    | none =>
      match importOfNames? line code with
      | some i =>
        if i.isOpen then importsFrom (some i) (line + 1) rest
        else i.close :: importsFrom none (line + 1) rest
      | none => importsOfModules line code ++ importsFrom none (line + 1) rest

/-- The imports of a file. -/
def importsOf (lines : List Text) : List Import := importsFrom none 1 lines

/-! ## Exports -/

/-- A literal of exported names that is being read, and the bracket that closes it. -/
structure OpenExport where
  literal : Text
  closing : Char
  startLine : Int

/-- The items of a literal are the exports. -/
def OpenExport.close (e : OpenExport) : List Export :=
  let inner := match breakLast? e.closing e.literal with
    | some (before, _) => before.drop 1
    | none => e.literal.drop 1
  ((splitTopLevel ',' inner).map (trim fun c => c = '\'' || c = '"')).filterMap fun name =>
    if name = [] then none else some { name := name, kind := "named".toList, startLine := e.startLine }

/-- The literal that a line assigns or adds to the exported names. -/
def exportLiteral? (line : Int) (t : Text) : Option OpenExport :=
  (after? "__all__".toList t).bind fun rest =>
    let rest := stripLeft rest
    (after? ['='] (dropHead ['+'] rest)).bind fun value =>
      let literal := uncommented value
      match literal with
      | '[' :: _ => some ⟨literal, ']', line⟩
      | '(' :: _ => some ⟨literal, ')', line⟩
      | _ => none

/-- The exports on some lines, the first of which has a number; `opened` is a literal that goes on. -/
def exportsFrom (opened : Option OpenExport) (line : Nat) : List Text → List Export
  | [] => opened.toList.flatMap OpenExport.close
  | t :: rest =>
    match opened with
    | some e =>
      let e := { e with literal := e.literal ++ ' ' :: uncommented t }
      if contains e.literal [e.closing] then e.close ++ exportsFrom none (line + 1) rest
      else exportsFrom (some e) (line + 1) rest
    | none =>
      match exportLiteral? line t with
      | none => exportsFrom none (line + 1) rest
      | some e =>
        if contains e.literal [e.closing] then e.close ++ exportsFrom none (line + 1) rest
        else exportsFrom (some e) (line + 1) rest

/-- The exports of a file. -/
def exportsOf (lines : List Text) : List Export := exportsFrom none 1 lines

/-! ## The outline -/

/-- The symbol whose header starts on line `i`, where it stands at the left margin. -/
def symbolAt? (lines : List Text) (total : Nat) (i : Nat) : Except Failure (Option Decl) :=
  let line := (lines[i]?).getD []
  let t := strip line
  if t = [] ∨ indentation line ≠ 0 then .ok none
  else if (functionStart? t).isSome then .ok ((functionAt? lines total false i).map .function)
  else if (classStart? t).isSome then (classAt? lines total i).map (·.map .type)
  else .ok none

/-- The symbols of a file. -/
def symbolsOf (lines : List Text) (total : Nat) : Except Failure (List Decl) :=
  ((List.range lines.length).mapM (symbolAt? lines total)).map fun found => found.filterMap id

/-- The outline of a source. -/
def outlineOf (language path source : Text) : Except Failure Outline :=
  let lines := Text.lines source
  (symbolsOf lines (boundaryLines source).length).map fun decls =>
    { path := path, language := language, source := source, decls := decls
      imports := importsOf lines, exports := exportsOf lines }

end SourceDoc.Indented
