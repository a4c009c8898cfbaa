import SourceDoc.Text.Blank

/-!
# Outlines

The outline of a source file: what it declares, imports and exports, with line numbers and comments, as far as
documentation needs it.  Line numbers count from 1; a span of 0 and 0 means that none is known.
-/

namespace SourceDoc

/-- A source file: its path and its text. -/
structure SourceFile where
  path : Text
  text : Text
  deriving DecidableEq, Repr

/-- A declared parameter. -/
structure Parameter where
  name : Text
  type : Option Text := none
  initial : Option Text := none
  isOptional : Bool := false
  deriving DecidableEq, Repr

/-- A function, a method, or a variable whose value is a function. -/
structure FunctionDecl where
  name : Text
  parameters : List Parameter := []
  returnType : Option Text := none
  isAsync : Bool := false
  isGenerator : Bool := false
  isStatic : Bool := false
  visibility : Option Text := none
  comments : Option Text := none
  startLine : Int := 0
  endLine : Int := 0
  isOptional : Bool := false
  /-- The type that the function is a method of, where it is declared apart from that type. -/
  receiver : Text := []
  deriving DecidableEq, Repr

/-- A field of a class, a struct or an interface. -/
structure Property where
  name : Text
  type : Option Text := none
  isStatic : Bool := false
  visibility : Option Text := none
  isOptional : Bool := false
  comments : Option Text := none
  deriving DecidableEq, Repr

/-- A class, a struct or an interface. -/
structure TypeDecl where
  name : Text
  methods : List FunctionDecl := []
  properties : List Property := []
  constructor? : Option FunctionDecl := none
  superType : Option Text := none
  isInterface : Bool := false
  startLine : Int := 0
  endLine : Int := 0
  comments : Option Text := none
  kind : Text := "class".toList
  deriving DecidableEq, Repr

/-- A declared symbol. -/
inductive Decl where
  | function (f : FunctionDecl)
  | type (t : TypeDecl)
  deriving DecidableEq, Repr

/-- A local name that an import introduces; its kind is default, named or namespace. -/
structure Binding where
  name : Text
  kind : Text := "named".toList
  imported : Option Text := none
  deriving DecidableEq, Repr

/-- An import, with the name of the imported module as written. -/
structure Import where
  source : Text
  bindings : List Binding := []
  startLine : Int := 0
  deriving DecidableEq, Repr

/-- A name that is visible outside the file. -/
structure Export where
  name : Text
  kind : Text
  definition : Option Text := none
  startLine : Int := 0
  deriving DecidableEq, Repr

/-- What a source file declares, imports and exports. -/
structure Outline where
  path : Text
  language : Text
  source : Text
  decls : List Decl := []
  imports : List Import := []
  exports : List Export := []
  deriving DecidableEq, Repr

/-- The line on which a symbol starts. -/
def Decl.startLine : Decl → Int
  | .function f => f.startLine
  | .type t => t.startLine

/-- The line on which a symbol ends. -/
def Decl.endLine : Decl → Int
  | .function f => f.endLine
  | .type t => t.endLine

def Decl.name : Decl → Text
  | .function f => f.name
  | .type t => t.name

/-- The documentation of a symbol. -/
def Decl.comments : Decl → Option Text
  | .function f => f.comments
  | .type t => t.comments

/-- The symbol as a function. -/
def Decl.function? : Decl → Option FunctionDecl
  | .function f => some f
  | .type _ => none

/-- The symbol as a type. -/
def Decl.type? : Decl → Option TypeDecl
  | .function _ => none
  | .type t => some t

/-- The methods of a type and its constructor. -/
def TypeDecl.functions (t : TypeDecl) : List FunctionDecl := t.methods ++ t.constructor?.toList

namespace Outline

/-- The functions among the symbols. -/
def functions (o : Outline) : List FunctionDecl := o.decls.filterMap Decl.function?

/-- The types among the symbols. -/
def types (o : Outline) : List TypeDecl := o.decls.filterMap Decl.type?

/-- The number of lines of the source. -/
def lineCount (o : Outline) : Nat := Text.lineCount o.source

end Outline

/-- The type that stands for "unknown" in a language. -/
def unknownType (language : Text) : Text :=
  if language = "javascript".toList then "any".toList
  else if language = "typescript".toList then "any".toList
  else if language = "python".toList then "Any".toList
  else if language = "go".toList then "interface\x7b\x7d".toList
  else "any".toList

end SourceDoc
