import SourceDoc.Document.Json
import SourceDoc.Json.Parser
import SourceDoc.Json.Printer
import SourceDoc.Page.Basic

/-!
# JSON pages

The page of a document holds the document and its outline, so that both can be read back (`readPage`).  Besides the
index there is a page that combines all documents.
-/

namespace SourceDoc.JsonPage

open Json

/-- The name of the program in the pages that it writes. -/
def generator : Json := .ofString "autodocs"

/-- A page with an indented value. -/
def pageOf (v : Json) : Text := v.write indented ++ ['\n']

/-- The value for the page of a document. -/
def documentValue (now : Text) (d : Document) : Json :=
  let o := d.outline
  record
    [("meta", record
        [("file", .text d.path), ("fileName", .text (Path.fileName d.path)), ("language", .text d.language),
          ("generatedAt", .text now), ("generatedBy", generator)]),
      ("documentation", d.toJson),
      ("sourceInfo", record
        [("totalLines", .ofNat o.lineCount), ("functionsCount", .ofNat o.functions.length),
          ("classesCount", .ofNat o.types.length), ("importsCount", .ofNat o.imports.length),
          ("exportsCount", .ofNat o.exports.length)]),
      ("parsing", o.toJson)]

/-- The page of a document. -/
def documentPage (now : Text) (d : Document) : Text := pageOf (documentValue now d)

/-- The entry of a document in an index. -/
def indexEntry (d : Document) : Json :=
  record
    [("file", .text d.path), ("title", .text d.title), ("description", .ofOption d.description),
      ("link", .text (outputName d.path Format.json.extension)), ("functions", .ofNat d.counts.functions),
      ("classes", .ofNat d.counts.types), ("exports", .ofNat d.counts.exports)]

/-- The index of some documents. -/
def indexPage (now : Text) (ds : List Document) : Text :=
  pageOf (record
    [("title", .ofString "Documentation Index"), ("generated", .text now), ("files", .list (ds.map indexEntry))])

/-! ## The combined page -/

/-- The name of the file for the combined page. -/
def combinedName : Text := "combined-documentation.json".toList

/-- The summary of a document. -/
def summaryEntry (d : Document) : Json :=
  record
    [("file", .text d.path), ("language", .text d.language), ("title", .text d.title),
      ("description", .ofOption d.description), ("functionsCount", .ofNat d.counts.functions),
      ("classesCount", .ofNat d.counts.types), ("exportsCount", .ofNat d.counts.exports),
      ("sourceLines", .ofNat d.outline.lineCount)]

/-- A document under the name of its file without the extension. -/
def namedEntry (d : Document) : Text × Json :=
  ((Path.splitExtension (Path.fileName d.path)).1,
    record [("file", .text d.path), ("language", .text d.language), ("documentation", d.toJson)])

/-- The sum of a count over some documents. -/
def total (count : Counts → Nat) (ds : List Document) : Json := .ofNat (ds.foldl (fun n d => n + count d.counts) 0)

/-- The page that combines some documents; of two under one name it keeps the later one. -/
def combinedPage (now : Text) (ds : List Document) : Text :=
  pageOf (record
    [("meta", record
        [("generatedAt", .text now), ("generatedBy", generator), ("totalFiles", .ofNat ds.length),
          ("outputFormat", .text Format.json.name)]),
      ("summary", record
        [("totalFunctions", total Counts.functions ds), ("totalClasses", total Counts.types ds),
          ("totalExports", total Counts.exports ds),
          ("languages", .list ((ds.map Document.language).eraseDups.map .text))]),
      ("files", .list (ds.map summaryEntry)),
      ("documentation", .object (Table.ofPairs (ds.map namedEntry)))])

/-! ## Reading a page -/

/-- Why a page cannot be read. -/
inductive ReadError where
  /-- It is not JSON. -/
  | malformed (e : ParseError)
  /-- It is JSON of another shape. -/
  | misshapen (e : ShapeError)
  deriving DecidableEq, Repr

/-- The wording of the reason. -/
def ReadError.message (page : Text) : ReadError → Text
  | malformed e => e.message page
  | misshapen e => e.message

/-- The document that a value for a page holds. -/
def documentOf (v : Json) : Except ShapeError Document := do
  let outline ← (required "parsing" v).bind Outline.ofJson
  (required "documentation" v).bind (Document.ofJson outline)

/-- The document of a page. -/
def readPage (page : Text) : Except ReadError Document :=
  match Json.parse page with
  | .error e => .error (.malformed e)
  | .ok v => (documentOf v).mapError .misshapen

end SourceDoc.JsonPage
