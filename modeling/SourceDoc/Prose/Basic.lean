import SourceDoc.Json.Basic
import SourceDoc.Text.Blank

/-!
# Prose

What somebody has written about a source file: descriptions of the file and of what it declares, by name.  Prose is
read off a JSON value with no demands on its shape: whatever is not a description where one belongs counts as absent,
and of two entries with one name the later one counts.
-/

namespace SourceDoc

/-- Prose about a function. -/
structure FunctionProse where
  description : Option Text := none
  parameters : List (Text × Text) := []
  returns : Option Text := none
  example? : Option Text := none
  deriving DecidableEq, Repr

/-- Prose about a type. -/
structure TypeProse where
  description : Option Text := none
  methods : List (Text × FunctionProse) := []
  properties : List (Text × Text) := []
  deriving DecidableEq, Repr

/-- Prose about a source file. -/
structure Prose where
  title : Option Text := none
  description : Option Text := none
  functions : List (Text × FunctionProse) := []
  types : List (Text × TypeProse) := []
  exports : List (Text × Text) := []
  usage : Option Text := none
  notes : Option Text := none
  deriving DecidableEq, Repr

namespace Prose

/-- The text of a member without the blanks around it, where anything is left. -/
def textOf (name : String) (m : Json.Members) : Option Text :=
  ((Table.get? name.toList m).bind Json.text?).bind Text.stripped?

/-- The entries of a list that are objects with a name. -/
def entries : Option Json → List (Text × Json.Members)
  | some (.list items) =>
    items.filterMap fun item =>
      match item with
      | .object m => ((Table.get? "name".toList m).bind Json.text?).map fun name => (name, m)
      | _ => none
  | _ => []

/-- The entries of a member. -/
def entriesOf (name : String) (m : Json.Members) : List (Text × Json.Members) := entries (Table.get? name.toList m)

/-- The descriptions of the entries of a member, by name. -/
def described (name : String) (m : Json.Members) : List (Text × Text) :=
  Table.ofPairs ((entriesOf name m).filterMap fun (entry, m) => (textOf "description" m).map fun text => (entry, text))

/-- Prose about a function. -/
def ofFunction (m : Json.Members) : FunctionProse :=
  { description := textOf "description" m
    parameters := described "parameters" m
    returns :=
      match Table.get? "returns".toList m with
      | some (.object inner) => textOf "description" inner
      | _ => textOf "returns" m
    example? := textOf "example" m }

/-- Prose about functions, by name. -/
def functionsOf (name : String) (m : Json.Members) : List (Text × FunctionProse) :=
  Table.ofPairs ((entriesOf name m).map fun (entry, m) => (entry, ofFunction m))

/-- Prose about a type. -/
def ofType (m : Json.Members) : TypeProse :=
  { description := textOf "description" m
    methods := functionsOf "methods" m
    properties := described "properties" m }

/-- Prose about a source file, from the members of an object. -/
def ofMembers (m : Json.Members) : Prose :=
  { title := textOf "title" m
    description := textOf "description" m
    functions := functionsOf "functions" m
    types := Table.ofPairs ((entriesOf "classes" m).map fun (entry, m) => (entry, ofType m))
    exports := described "exports" m
    usage := textOf "usage" m
    notes := textOf "notes" m }

end Prose

end SourceDoc
