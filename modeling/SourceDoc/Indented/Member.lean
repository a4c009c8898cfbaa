import SourceDoc.Indented.Block
import SourceDoc.Outline.Basic

/-!
# Parameters and attributes

What stands on one line, or between the brackets of a header: parameters of a function, attributes of a class,
and attributes that a constructor sets.
-/

namespace SourceDoc.Indented

open Text

/-- A leading underscore makes a name private, unless the name starts and ends with two. -/
def visibilityOf (name : Text) : Text :=
  let two := ['_', '_']
  if startsWith name two && endsWith name two then "public".toList
  else if startsWith name ['_'] then "private".toList
  else "public".toList

/-- A declared parameter. -/
def parameterOf (piece : Text) : Parameter :=
  let (declaration, initial) := splitOnceTopLevel '=' piece
  let (name, type) := splitOnceTopLevel ':' declaration
  { name := strip name
    type := type.bind stripped?
    initial := initial.bind stripped?
    isOptional := initial.isSome }

/-- The parameters between the brackets of a header; the marks that only separate kinds of parameters are none. -/
def parametersOf (t : Text) : List Parameter :=
  ((splitTopLevel ',' t).filter fun piece => piece ≠ ['*'] ∧ piece ≠ ['/']).map parameterOf

/-- The type after a name, and the text from the equals sign on: a type is set off by a colon and holds no equals
sign, and may be blank only before an equals sign. -/
def typeAndRest? (t : Text) : Option (Option Text × Text) :=
  match stripLeft t with
  | ':' :: rest =>
    let type := before '=' rest
    if type = [] then none else some (stripped? type, rest.drop type.length)
  | bare => some (none, bare)

/-- An attribute of a class: a name with a type, or a value, or both. -/
def attribute? (t : Text) : Option Property :=
  (identifier? t).bind fun (name, rest) =>
    (typeAndRest? rest).bind fun (type, rest) =>
      let property : Property := { name := name, type := type, visibility := some (visibilityOf name) }
      match rest with
      | [] => if type.isSome then some property else none
      | '=' :: _ :: _ => some { property with isOptional := true }
      | _ => none

/-- An attribute of the instance that is set. -/
def instanceAttribute? (t : Text) : Option Property :=
  (after? "self.".toList t).bind fun t =>
    (identifier? t).bind fun (name, rest) =>
      (typeAndRest? rest).bind fun (type, rest) =>
        match rest with
        | '=' :: c :: _ =>
          if c = '=' then none
          else some { name := name, type := type, visibility := some (visibilityOf name) }
        | _ => none

/-- The attributes of the instance that some lines set. -/
def instanceAttributes (lines : List Text) (start stop : Nat) : List Property :=
  ((lines.take stop).drop start).filterMap fun line => instanceAttribute? (strip line)

end SourceDoc.Indented
