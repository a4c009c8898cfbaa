import SourceDoc.Outline.Basic

/-!
# Normal outlines

`Outline.normalize` fills in what an extractor leaves open, so that whoever reads an outline need not know its
language: texts lose the blanks around them, an empty optional text is none, an unknown type is the word for
"unknown" of the language, an unknown visibility is `unspecified`, and an impossible span is 0 and 0.
-/

namespace SourceDoc

/-- The word for a visibility that is not known. -/
def unspecified : Text := "unspecified".toList

/-- A text without the blanks around it, where anything is left. -/
def tidy (t : Option Text) : Option Text := t.bind Text.stripped?

/-- A text without the blanks around it, or a word instead of an empty one. -/
def tidyOr (word : Text) (t : Option Text) : Option Text := some ((tidy t).getD word)

/-- A span of lines, or 0 and 0 where it does not start at 1 or later or ends before it starts. -/
def tidySpan (start stop : Int) : Int × Int :=
  if start ≤ 0 ∨ stop < start then (0, 0) else (start, stop)

def Parameter.normalize (unknown : Text) (p : Parameter) : Parameter :=
  { p with name := Text.strip p.name, type := tidyOr unknown p.type, initial := tidy p.initial }

def FunctionDecl.normalize (unknown : Text) (f : FunctionDecl) : FunctionDecl :=
  { f with
    name := Text.strip f.name
    parameters := f.parameters.map (Parameter.normalize unknown)
    returnType := tidyOr unknown f.returnType
    visibility := tidyOr unspecified f.visibility
    comments := tidy f.comments
    startLine := (tidySpan f.startLine f.endLine).1
    endLine := (tidySpan f.startLine f.endLine).2
    receiver := Text.strip f.receiver }

def Property.normalize (unknown : Text) (p : Property) : Property :=
  { p with
    name := Text.strip p.name
    type := tidyOr unknown p.type
    visibility := tidyOr unspecified p.visibility
    comments := tidy p.comments }

def TypeDecl.normalize (unknown : Text) (t : TypeDecl) : TypeDecl :=
  { t with
    name := Text.strip t.name
    methods := t.methods.map (FunctionDecl.normalize unknown)
    properties := t.properties.map (Property.normalize unknown)
    constructor? := t.constructor?.map (FunctionDecl.normalize unknown)
    superType := tidy t.superType
    comments := tidy t.comments
    startLine := (tidySpan t.startLine t.endLine).1
    endLine := (tidySpan t.startLine t.endLine).2 }

def Decl.normalize (unknown : Text) : Decl → Decl
  | .function f => .function (f.normalize unknown)
  | .type t => .type (t.normalize unknown)

def Binding.normalize (b : Binding) : Binding :=
  { b with name := Text.strip b.name, imported := tidy b.imported }

def Import.normalize (i : Import) : Import :=
  { i with source := Text.strip i.source, bindings := i.bindings.map Binding.normalize }

def Export.normalize (e : Export) : Export :=
  { e with name := Text.strip e.name, definition := tidy e.definition }

/-- The outline with every gap filled. -/
def Outline.normalize (o : Outline) : Outline :=
  { o with
    decls := o.decls.map (Decl.normalize (unknownType o.language))
    imports := o.imports.map Import.normalize
    exports := o.exports.map Export.normalize }

end SourceDoc
