import SourceDoc.Document.Basic
import SourceDoc.Outline.Json

/-!
# Documents as JSON

The object for a document holds its prose and its symbols; the outline is written apart from it.
-/

namespace SourceDoc

open Json

/-- An object of texts. -/
def Json.ofTexts (pairs : List (Text × Text)) : Json := .object (pairs.map fun (k, v) => (k, .text v))

/-! ## Writing -/

/-- The members of the function itself, then its prose. -/
def DocumentedFunction.toJson (f : DocumentedFunction) : Json :=
  Json.record (f.decl.members ++
    [("description", .ofOption f.description), ("parameterDocs", Json.ofTexts f.parameters),
      ("returns", .ofOption f.returns), ("example", .ofOption f.example?)])

def DocumentedType.toJson (t : DocumentedType) : Json :=
  Json.record
    [("symbol", t.decl.toJson), ("description", .ofOption t.description),
      ("methods", .list (t.methods.map DocumentedFunction.toJson)),
      ("constructor", (t.constructor?.map DocumentedFunction.toJson).getD .null),
      ("propertyDocs", Json.ofTexts t.properties)]

def DocumentedExport.toJson (e : DocumentedExport) : Json :=
  Json.record (e.decl.members ++ [("description", .ofOption e.description)])

def Document.toJson (d : Document) : Json :=
  Json.record
    [("title", .text d.title), ("description", .ofOption d.description),
      ("functions", .list (d.functions.map DocumentedFunction.toJson)),
      ("classes", .list (d.types.map DocumentedType.toJson)),
      ("exports", .list (d.exports.map DocumentedExport.toJson)),
      ("usage", .ofOption d.usage), ("notes", .ofOption d.notes), ("proseError", .ofOption d.proseError)]

/-! ## Reading -/

/-- A table of texts in a member. -/
def Json.textsAt (name : String) (v : Json) : Except ShapeError (List (Text × Text)) :=
  (optionalD name .null v).bind textPairs

def DocumentedFunction.ofJson (v : Json) : Except ShapeError DocumentedFunction := do
  return {
    decl := ← FunctionDecl.ofJson v
    description := ← optionalTextAt "description" v
    parameters := ← Json.textsAt "parameterDocs" v
    returns := ← optionalTextAt "returns" v
    example? := ← optionalTextAt "example" v }

def DocumentedType.ofJson (v : Json) : Except ShapeError DocumentedType := do
  let _ ← optional "constructor" v
  return {
    decl := ← (required "symbol" v).bind TypeDecl.ofJson
    description := ← optionalTextAt "description" v
    methods := ← itemsAt "methods" DocumentedFunction.ofJson v
    constructor? := ← Json.recordAt? "constructor" DocumentedFunction.ofJson v
    properties := ← Json.textsAt "propertyDocs" v }

def DocumentedExport.ofJson (v : Json) : Except ShapeError DocumentedExport := do
  return {
    decl := ← Export.ofJson v
    description := ← optionalTextAt "description" v }

/-- Reads the document of an outline. -/
def Document.ofJson (o : Outline) (v : Json) : Except ShapeError Document := do
  return {
    outline := o
    title := ← textAt "title" v
    description := ← optionalTextAt "description" v
    functions := ← itemsAt "functions" DocumentedFunction.ofJson v
    types := ← itemsAt "classes" DocumentedType.ofJson v
    exports := ← itemsAt "exports" DocumentedExport.ofJson v
    usage := ← optionalTextAt "usage" v
    notes := ← optionalTextAt "notes" v
    proseError := ← optionalTextAt "proseError" v }

end SourceDoc
