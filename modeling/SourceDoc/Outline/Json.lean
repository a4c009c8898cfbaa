import SourceDoc.Json.Reader
import SourceDoc.Outline.Basic

/-!
# Outlines as JSON

Each kind of record has `toJson`, which writes every member in a fixed order, and `ofJson`, which reads them back;
members that are absent have the value that they have in a fresh record.
-/

namespace SourceDoc

open Json

/-- An object whose names are literals. -/
def Json.record (members : List (String × Json)) : Json :=
  .object (members.map fun (name, value) => (name.toList, value))

/-! ## Writing -/

def Parameter.toJson (p : Parameter) : Json :=
  Json.record [("name", .text p.name), ("type", .ofOption p.type), ("default", .ofOption p.initial),
    ("optional", .bool p.isOptional)]

/-- The members of the object for a function. -/
def FunctionDecl.members (f : FunctionDecl) : List (String × Json) :=
  [("name", .text f.name), ("parameters", .list (f.parameters.map Parameter.toJson)),
    ("returnType", .ofOption f.returnType), ("isAsync", .bool f.isAsync), ("isGenerator", .bool f.isGenerator),
    ("isStatic", .bool f.isStatic), ("visibility", .ofOption f.visibility), ("comments", .ofOption f.comments),
    ("startLine", .int f.startLine), ("endLine", .int f.endLine), ("isOptional", .bool f.isOptional),
    ("receiver", .text f.receiver)]

def FunctionDecl.toJson (f : FunctionDecl) : Json := Json.record f.members

def Property.toJson (p : Property) : Json :=
  Json.record [("name", .text p.name), ("type", .ofOption p.type), ("isStatic", .bool p.isStatic),
    ("visibility", .ofOption p.visibility), ("optional", .bool p.isOptional), ("comments", .ofOption p.comments)]

/-- The members of the object for a type. -/
def TypeDecl.members (t : TypeDecl) : List (String × Json) :=
  [("name", .text t.name), ("kind", .text t.kind), ("methods", .list (t.methods.map FunctionDecl.toJson)),
    ("properties", .list (t.properties.map Property.toJson)),
    ("constructor", (t.constructor?.map FunctionDecl.toJson).getD .null), ("superClass", .ofOption t.superType),
    ("isInterface", .bool t.isInterface), ("startLine", .int t.startLine), ("endLine", .int t.endLine),
    ("comments", .ofOption t.comments)]

def TypeDecl.toJson (t : TypeDecl) : Json := Json.record t.members

def Decl.toJson : Decl → Json
  | .function f => Json.record (("symbol", .ofString "function") :: f.members)
  | .type t => Json.record (("symbol", .ofString "type") :: t.members)

def Binding.toJson (b : Binding) : Json :=
  Json.record [("name", .text b.name), ("type", .text b.kind), ("imported", .ofOption b.imported)]

def Import.toJson (i : Import) : Json :=
  Json.record [("source", .text i.source), ("specifiers", .list (i.bindings.map Binding.toJson)),
    ("startLine", .int i.startLine)]

/-- The members of the object for an export. -/
def Export.members (e : Export) : List (String × Json) :=
  [("name", .text e.name), ("type", .text e.kind), ("typeDefinition", .ofOption e.definition),
    ("startLine", .int e.startLine)]

def Export.toJson (e : Export) : Json := Json.record e.members

/-- What is declared, imported and exported. -/
def Outline.structureMembers (o : Outline) : List (String × Json) :=
  [("symbols", .list (o.decls.map Decl.toJson)), ("imports", .list (o.imports.map Import.toJson)),
    ("exports", .list (o.exports.map Export.toJson))]

/-- The members of the object for an outline, without the source. -/
def Outline.members (o : Outline) : List (String × Json) :=
  ("filePath", .text o.path) :: ("language", .text o.language) :: o.structureMembers

def Outline.toJson (o : Outline) : Json := Json.record (o.members ++ [("rawText", .text o.source)])

/-! ## Reading -/

def Parameter.ofJson (v : Json) : Except ShapeError Parameter := do
  return {
    name := ← textAt "name" v
    type := ← optionalTextAt "type" v
    initial := ← optionalTextAt "default" v
    isOptional := ← flagAt "optional" v }

def FunctionDecl.ofJson (v : Json) : Except ShapeError FunctionDecl := do
  return {
    name := ← textAt "name" v
    parameters := ← itemsAt "parameters" Parameter.ofJson v
    returnType := ← optionalTextAt "returnType" v
    isAsync := ← flagAt "isAsync" v
    isGenerator := ← flagAt "isGenerator" v
    isStatic := ← flagAt "isStatic" v
    visibility := ← optionalTextAt "visibility" v
    comments := ← optionalTextAt "comments" v
    startLine := ← intAt "startLine" v
    endLine := ← intAt "endLine" v
    isOptional := ← flagAt "isOptional" v
    receiver := ← textAtD "receiver" [] v }

def Property.ofJson (v : Json) : Except ShapeError Property := do
  return {
    name := ← textAt "name" v
    type := ← optionalTextAt "type" v
    isStatic := ← flagAt "isStatic" v
    visibility := ← optionalTextAt "visibility" v
    isOptional := ← flagAt "optional" v
    comments := ← optionalTextAt "comments" v }

/-- A member that is read where it counts as true. -/
def Json.recordAt? {α : Type} (name : String) (read : Json → Except ShapeError α) (v : Json) :
    Except ShapeError (Option α) := do
  let member ← optionalD name .null v
  if member.isTruthy then return some (← read member) else return none

def TypeDecl.ofJson (v : Json) : Except ShapeError TypeDecl := do
  let _ ← optional "constructor" v
  return {
    name := ← textAt "name" v
    methods := ← itemsAt "methods" FunctionDecl.ofJson v
    properties := ← itemsAt "properties" Property.ofJson v
    constructor? := ← Json.recordAt? "constructor" FunctionDecl.ofJson v
    superType := ← optionalTextAt "superClass" v
    isInterface := ← flagAt "isInterface" v
    startLine := ← intAt "startLine" v
    endLine := ← intAt "endLine" v
    comments := ← optionalTextAt "comments" v
    kind := ← textAtD "kind" "class".toList v }

def Decl.ofJson (v : Json) : Except ShapeError Decl := do
  match ← optional "symbol" v with
  | some (.text word) =>
    if word = "type".toList then return .type (← TypeDecl.ofJson v)
    else return .function (← FunctionDecl.ofJson v)
  | _ => return .function (← FunctionDecl.ofJson v)

def Binding.ofJson (v : Json) : Except ShapeError Binding := do
  return {
    name := ← textAt "name" v
    kind := ← textAtD "type" "named".toList v
    imported := ← optionalTextAt "imported" v }

def Import.ofJson (v : Json) : Except ShapeError Import := do
  return {
    source := ← textAt "source" v
    bindings := ← itemsAt "specifiers" Binding.ofJson v
    startLine := ← intAt "startLine" v }

def Export.ofJson (v : Json) : Except ShapeError Export := do
  return {
    name := ← textAt "name" v
    kind := ← textAtD "type" "named".toList v
    definition := ← optionalTextAt "typeDefinition" v
    startLine := ← intAt "startLine" v }

def Outline.ofJson (v : Json) : Except ShapeError Outline := do
  return {
    path := ← textAt "filePath" v
    language := ← textAt "language" v
    source := ← textAtD "rawText" [] v
    decls := ← itemsAt "symbols" Decl.ofJson v
    imports := ← itemsAt "imports" Import.ofJson v
    exports := ← itemsAt "exports" Export.ofJson v }

end SourceDoc
