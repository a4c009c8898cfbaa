import SourceDoc.Outline.Basic
import SourceDoc.Path
import SourceDoc.Prose.Basic

/-!
# Documents

A document pairs every symbol of an outline with the prose about it.  `Document.assemble` looks prose up by name, so
prose about names that the outline does not declare has no place in a document.
-/

namespace SourceDoc

/-- A function with its prose. -/
structure DocumentedFunction where
  decl : FunctionDecl
  description : Option Text := none
  parameters : List (Text × Text) := []
  returns : Option Text := none
  example? : Option Text := none
  deriving DecidableEq, Repr

/-- A type with its prose. -/
structure DocumentedType where
  decl : TypeDecl
  description : Option Text := none
  methods : List DocumentedFunction := []
  constructor? : Option DocumentedFunction := none
  properties : List (Text × Text) := []
  deriving DecidableEq, Repr

/-- An export with its prose. -/
structure DocumentedExport where
  decl : Export
  description : Option Text := none
  deriving DecidableEq, Repr

/-- An outline with its prose, or with the reason why there is none. -/
structure Document where
  outline : Outline
  title : Text
  description : Option Text := none
  functions : List DocumentedFunction := []
  types : List DocumentedType := []
  exports : List DocumentedExport := []
  usage : Option Text := none
  notes : Option Text := none
  proseError : Option Text := none
  deriving DecidableEq, Repr

namespace Document

def path (d : Document) : Text := d.outline.path

def language (d : Document) : Text := d.outline.language

/-- The entries of a table whose keys are among some names. -/
def among (names : List Text) (table : List (Text × Text)) : List (Text × Text) :=
  table.filter fun (name, _) => names.contains name

/-- A function with the prose about it. -/
def documentFunction (prose : Option FunctionProse) (f : FunctionDecl) : DocumentedFunction :=
  match prose with
  | none => { decl := f }
  | some p =>
    { decl := f
      description := p.description
      parameters := among (f.parameters.map Parameter.name) p.parameters
      returns := p.returns
      example? := p.example? }

/-- A type with the prose about it. -/
def documentType (prose : Option TypeProse) (t : TypeDecl) : DocumentedType :=
  let p := prose.getD {}
  { decl := t
    description := p.description
    methods := t.methods.map fun m => documentFunction (Table.get? m.name p.methods) m
    constructor? := t.constructor?.map fun c => documentFunction (Table.get? c.name p.methods) c
    properties := among (t.properties.map Property.name) p.properties }

/-- The document of an outline.  With an error there is no prose. -/
def assemble (o : Outline) (prose : Option Prose) (error : Option Text) : Document :=
  let p : Prose := if error.isSome then {} else prose.getD {}
  { outline := o
    title := (p.title.filter (· ≠ [])).getD (Path.fileName o.path)
    description := p.description
    functions := o.functions.map fun f => documentFunction (Table.get? f.name p.functions) f
    types := o.types.map fun t => documentType (Table.get? t.name p.types) t
    exports := o.exports.map fun e => { decl := e, description := Table.get? e.name p.exports }
    usage := p.usage
    notes := p.notes
    proseError := error }

end Document

end SourceDoc
