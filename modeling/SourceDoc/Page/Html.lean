import SourceDoc.Page.Basic
import SourceDoc.Page.Markup
import SourceDoc.Page.Style
import SourceDoc.Page.Template

/-!
# HTML pages

The parts of a page are markup; the page of a document is a template with the parts in its slots.
-/

namespace SourceDoc.Html

open Markup

/-! ## Functions and types -/

/-- A badge. -/
def badge (tag : Text) : Markup :=
  element "span" [("class", "badge badge-".toList ++ tag)] [text tag]

/-- A name and a type with prose below; `after` stands behind the type. -/
def partBlock (tags : List Text) (name type : Text) (after : List Markup) (prose : Text) : Markup :=
  classed "div" "param"
    (tags.map badge ++ [classed "span" "param-name" [text name], literal " ",
      classed "span" "param-type" [text type]] ++ after ++ [plain "div" [text prose]])

/-- A type that is neither absent nor empty, or the word for "unknown". -/
def shownType (unknown : Text) (type : Option Text) : Text := (present? type).getD unknown

/-- A parameter. -/
def parameterBlock (unknown : Text) (docs : List (Text × Text)) (p : Parameter) : Markup :=
  let initial := match p.initial with
    | some v => [literal " ", plain "em" [text ("(default: ".toList ++ v ++ [')'])]]
    | none => []
  partBlock [] p.name (shownType unknown p.type) initial (partDescription p.name docs)

/-- A property. -/
def propertyBlock (unknown : Text) (docs : List (Text × Text)) (p : Property) : Markup :=
  let tags := (if p.isStatic then ["static".toList] else []) ++ (restricted? p.visibility).toList
  let after := if p.isOptional then [literal " ", plain "em" [literal "(optional)"]] else []
  partBlock tags p.name (shownType unknown p.type) after (partDescription p.name docs)

/-- A box with a label. -/
def signatureBox (label : String) (t : Text) : Markup :=
  classed "div" "signature" [plain "strong" [literal (label ++ ":")], text (' ' :: t)]

/-- A group of blocks under a small heading, where there are any. -/
def group (cls label : String) (blocks : List Markup) : List Markup :=
  if blocks.isEmpty then [] else [classed "div" cls (plain "h4" [literal (label ++ ":")] :: blocks)]

/-- A function; `anchor` goes as it is in front of its name in its identifier. -/
def functionBlock (unknown anchor : Text) (f : DocumentedFunction) : Markup :=
  let d := f.decl
  let returns :=
    if returnsValue d then
      [classed "div" "returns"
        [plain "h4" [literal "Returns:"],
          classed "div" "param"
            [classed "span" "param-type" [text (shownType unknown d.returnType)],
              plain "div" [text ((present? f.returns).getD noDescription)]]]]
    else []
  let sample := match present? f.example? with
    | some t => [classed "div" "example" [plain "h4" [literal "Example:"], plain "pre" [plain "code" [text t]]]]
    | none => []
  element "div" [("class", "function".toList), ("id", anchor ++ '-' :: escape d.name)]
    ([plain "h3" ((badges d).map badge ++ [text d.name]), plain "p" [text (described f.description)],
        signatureBox "Signature" (signature unknown d)] ++
      group "parameters" "Parameters" (d.parameters.map (parameterBlock unknown f.parameters)) ++
      returns ++ sample)

/-- A type. -/
def typeBlock (unknown : Text) (t : DocumentedType) : Markup :=
  let d := t.decl
  let kind := if d.kind = "class".toList then [] else [plain "p" [plain "code" [text d.kind]]]
  let parent := match present? d.superType with
    | some name => [plain "p" [plain "strong" [literal "Extends:"], literal " ", plain "code" [text name]]]
    | none => []
  let constructor := match t.constructor? with
    | some c => [signatureBox "Constructor" (signature unknown c.decl)]
    | none => []
  let methods := t.methods.map fun m =>
    classed "div" "method" [functionBlock unknown ("method-".toList ++ d.name) m]
  element "div" [("class", "class".toList), ("id", "class-".toList ++ escape d.name)]
    ([plain "h3" [text d.name]] ++ kind ++ [plain "p" [text (described t.description)]] ++ parent ++ constructor ++
      group "properties" "Properties" (d.properties.map (propertyBlock unknown t.properties)) ++
      group "methods" "Methods" methods)

/-- An export. -/
def exportBlock (e : DocumentedExport) : Markup :=
  let prose := (present? e.description).toList.map fun t => plain "p" [text t]
  let definition := (present? e.decl.definition).toList.map (signatureBox "Type Definition")
  element "div" [("class", "export".toList), ("id", "export-".toList ++ escape e.decl.name)]
    ([plain "h3" [text e.decl.name],
        plain "p" [plain "strong" [literal "Type:"], literal " ", plain "code" [text e.decl.kind]]] ++
      prose ++ definition)

/-! ## Sections -/

/-- A section, where it has any blocks. -/
def sectionOf (heading : String) (blocks : List Markup) : List Markup :=
  if blocks.isEmpty then [] else [classed "div" "section" (plain "h2" [literal heading] :: blocks)]

/-- A section of prose. -/
def proseSection (heading : String) (t : Option Text) : List Markup :=
  sectionOf heading ((present? t).toList.map fun t => plain "p" [text t])

/-- A group of links in the table of contents, where there are any. -/
def linkGroup (heading anchor suffix : String) (names : List Text) : List Markup :=
  if names = [] then []
  else
    [plain "h3" [literal heading],
      plain "ul" (names.map fun name =>
        plain "li" [element "a" [("href", '#' :: (anchor.toList ++ '-' :: escape name))] [text (name ++ suffix.toList)]])]

/-- The table of contents, where it has any links. -/
def contents (d : Document) : List Markup :=
  let links := linkGroup "Functions" "func" "()" (d.functions.map (·.decl.name)) ++
    linkGroup "Classes" "class" "" (d.types.map (·.decl.name)) ++
    linkGroup "Exports" "export" "" (d.exports.map (·.decl.name))
  if links.isEmpty then [] else [classed "div" "toc" (plain "h2" [literal "Table of Contents"] :: links)]

/-- The description of a document, and the reason why it has no prose. -/
def description (d : Document) : List Markup :=
  plain "p" [text (described d.description)] ::
    (present? d.proseError).toList.map fun reason =>
      classed "p" "unavailable" [plain "strong" [text (unavailable ++ [':'])], text (' ' :: reason)]

/-! ## Pages -/

/-- What goes into the slots of the page of a document. -/
def slotValues (now : Text) (d : Document) : List (Text × Text) :=
  let values : List (String × List Markup) :=
    [("TITLE", [text d.title]), ("FILE_PATH", [text d.path]), ("LANGUAGE", [text d.language]),
      ("DESCRIPTION", description d), ("TABLE_OF_CONTENTS", contents d),
      ("FUNCTIONS", sectionOf "Functions" (d.functions.map (functionBlock d.unknown "func".toList))),
      ("CLASSES", sectionOf "Classes" (d.types.map (typeBlock d.unknown))),
      ("EXPORTS", sectionOf "Exports" (d.exports.map exportBlock)),
      ("USAGE", proseSection "Usage" d.usage), ("NOTES", proseSection "Notes" d.notes),
      ("GENERATED_DATE", [text now])]
  values.map fun (slot, markup) => (slot.toList, allText markup)

/-- The page of a document. -/
def documentPage (template now : Text) (d : Document) : Text := Template.fill (slotValues now d) template

/-- A paragraph with a label. -/
def labelled (label : String) (rest : List Markup) : List Markup :=
  [plain "strong" [literal (label ++ ":")], literal " "] ++ rest

/-- The entry of a document in an index. -/
def indexEntry (d : Document) : Markup :=
  let n := d.counts
  classed "div" "file-item"
    [plain "h3" [element "a" [("href", escape (outputName d.path Format.html.extension))] [text d.title]],
      plain "p" (labelled "File" [plain "code" [text (Path.fileName d.path)]]),
      plain "p" (labelled "Description" [text (described d.description)]),
      plain "p" (labelled "Functions" [text (Text.ofNat n.functions ++ [' '])] ++
        labelled "Classes" [text (Text.ofNat n.types ++ [' '])] ++ labelled "Exports" [text (Text.ofNat n.exports)])]

/-- The lines of an index before the style sheet; the last one goes on behind it. -/
def indexHead : List String :=
  ["<!DOCTYPE html>", "<html lang=\"en\">", "<head>", "    <meta charset=\"UTF-8\">",
    "    <title>Documentation Index</title>", "    <style>"]

/-- The lines of an index after the style sheet and before the date. -/
def indexMiddle : List String :=
  ["    </style>", "</head>", "<body>", "    <h1>Documentation Index</h1>", "    <p>Generated on "]

/-- The index of some documents. -/
def indexPage (now : Text) (ds : List Document) : Text :=
  let lines := fun (ls : List String) => Text.joinLines (ls.map String.toList)
  let entries := ds.map fun d => toText (indexEntry d)
  lines indexHead ++ style ++ lines indexMiddle ++ escape now ++
    "</p>\n    ".toList ++ Text.joinWith "\n    ".toList entries ++ "\n</body>\n</html>\n".toList

end SourceDoc.Html
