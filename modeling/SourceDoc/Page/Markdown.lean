import SourceDoc.Page.Basic
import SourceDoc.Page.Layout

/-!
# Markdown pages

Each part of a page is a list of lines; a page is laid out once at the end.
-/

namespace SourceDoc.Markdown

open Text

/-- A text in the font of code. -/
def code (t : Text) : Text := '\x60' :: (t ++ ['\x60'])

/-- A type in the font of code; an absent one has a word of its own. -/
def typeCode (t : Option Text) : Text := code (t.getD "None".toList)

/-- A label in bold, and what follows it. -/
def labelled (label : String) (rest : Text) : Text := "**".toList ++ label.toList ++ ":**".toList ++ rest

/-- Code between fences. -/
def fenced (language t : Text) : List Text := [fence ++ language, t, fence, []]

/-- A section with a heading, where it has any lines. -/
def sectionOf (title : String) (body : List Text) : List Text :=
  if body = [] then [] else ("## ".toList ++ title.toList) :: [] :: body

/-- The line about a parameter. -/
def parameterLine (docs : List (Text × Text)) (p : Parameter) : Text :=
  let initial := (p.initial.map fun v => ", default ".toList ++ code v).getD []
  "- ".toList ++ code p.name ++ " (".toList ++ typeCode p.type ++ initial ++ "): ".toList ++
    partDescription p.name docs

/-- A function under a heading. -/
def functionLines (unknown language : Text) (level : Nat) (f : DocumentedFunction) : List Text :=
  let d := f.decl
  let tags := badges d
  let head := [List.replicate level '#' ++ ' ' :: code d.name, []]
  let tagLines := if tags = [] then [] else [joinWith [' '] (tags.map code), []]
  let parameters :=
    if d.parameters = [] then []
    else labelled "Parameters" [] :: [] :: (d.parameters.map (parameterLine f.parameters) ++ [[]])
  let returns :=
    if returnsValue d then
      let prose := ((present? f.returns).map (" - ".toList ++ ·)).getD []
      [labelled "Returns" (' ' :: typeCode d.returnType ++ prose), []]
    else []
  let sample := match present? f.example? with
    | some t => labelled "Example" [] :: [] :: fenced language t
    | none => []
  head ++ tagLines ++ [described f.description, []] ++ fenced language (signature unknown d) ++ parameters ++
    returns ++ sample

/-- The line about a property. -/
def propertyLine (docs : List (Text × Text)) (p : Property) : Text :=
  let tags := (if p.isStatic then ["static".toList] else []) ++ (restricted? p.visibility).toList ++
    (if p.isOptional then ["optional".toList] else [])
  "- ".toList ++ (tags.flatMap fun tag => code tag ++ [' ']) ++ code p.name ++ " (".toList ++ typeCode p.type ++
    "): ".toList ++ partDescription p.name docs

/-- A type under a heading. -/
def typeLines (unknown language : Text) (t : DocumentedType) : List Text :=
  let d := t.decl
  let kind := if d.kind = "class".toList then [] else [code d.kind, []]
  let parent := match present? d.superType with
    | some name => [labelled "Extends" (' ' :: code name), []]
    | none => []
  let constructor := match t.constructor? with
    | some c => labelled "Constructor" [] :: [] :: fenced language (signature unknown c.decl)
    | none => []
  let properties :=
    if d.properties = [] then []
    else labelled "Properties" [] :: [] :: (d.properties.map (propertyLine t.properties) ++ [[]])
  let methods :=
    if t.methods = [] then []
    else labelled "Methods" [] :: [] :: t.methods.flatMap (functionLines unknown language 4)
  ["### ".toList ++ code d.name, []] ++ kind ++ parent ++ [described t.description, []] ++ constructor ++
    properties ++ methods

/-- The lines about an export. -/
def exportLines (e : DocumentedExport) : List Text :=
  let prose := ((present? e.description).map (": ".toList ++ ·)).getD []
  let definition := (present? e.decl.definition).toList.map fun t => "  - Type definition: ".toList ++ code t
  ("- ".toList ++ code e.decl.name ++ " (".toList ++ e.decl.kind ++ ")".toList ++ prose) :: definition

/-- A section of prose. -/
def proseSection (title : String) (t : Option Text) : List Text :=
  sectionOf title ((present? t).toList.flatMap fun t => [t, []])

/-- The lines of the page of a document before it is laid out, with a mark for the table of contents. -/
def documentLines (now : Text) (d : Document) : List Text :=
  let note := match present? d.proseError with
    | some reason => ["> **Note:** ".toList ++ unavailable ++ ": ".toList ++ reason, []]
    | none => []
  let exports := d.exports.flatMap exportLines
  ["# ".toList ++ d.title, [], labelled "File" (' ' :: code d.path ++ "  ".toList),
      labelled "Language" (' ' :: d.language), [], described d.description, []] ++
    note ++ [contentsMark, []] ++
    sectionOf "Functions" (d.functions.flatMap (functionLines d.unknown d.language 3)) ++
    sectionOf "Classes" (d.types.flatMap (typeLines d.unknown d.language)) ++
    sectionOf "Exports" (if exports = [] then [] else exports ++ [[]]) ++
    proseSection "Usage" d.usage ++ proseSection "Notes" d.notes ++
    ["---".toList, [], "*Generated by autodocs on ".toList ++ now ++ ['*']]

/-- The page of a document. -/
def documentPage (now : Text) (d : Document) : Text := lint (addContents (joinLines (documentLines now d)))

/-- The entry of a document in an index. -/
def indexEntry (d : Document) : List Text :=
  let n := d.counts
  ["### [".toList ++ d.title ++ "](".toList ++ outputName d.path Format.markdown.extension ++ [')'], [],
    labelled "File" (' ' :: code (Path.fileName d.path) ++ "  ".toList),
    labelled "Description" (' ' :: described d.description ++ "  ".toList),
    labelled "Functions" (' ' :: ofNat n.functions ++ " | ".toList) ++
      labelled "Classes" (' ' :: ofNat n.types ++ " | ".toList) ++ labelled "Exports" (' ' :: ofNat n.exports), []]

/-- The index of some documents. -/
def indexPage (now : Text) (ds : List Document) : Text :=
  lint (joinLines (["# Documentation Index".toList, [], "Generated on ".toList ++ now, [], "## Files".toList, []] ++
    ds.flatMap indexEntry))

end SourceDoc.Markdown
