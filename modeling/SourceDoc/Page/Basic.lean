import SourceDoc.Document.Basic
import SourceDoc.Text.Case

/-!
# Pages

A page is the text of a document, or of an index of documents, in one of three formats.  This module holds what the
formats share: their names, the wording for what is missing, and the signature of a function on one line.
-/

namespace SourceDoc

/-! ## Formats -/

/-- A format of pages. -/
inductive Format where
  | markdown
  | html
  | json
  deriving DecidableEq, Repr

namespace Format

/-- All formats. -/
def all : List Format := [markdown, html, json]

/-- The name of a format. -/
def name : Format → Text
  | markdown => "markdown".toList
  | html => "html".toList
  | json => "json".toList

/-- The extension of files in a format. -/
def extension : Format → Text
  | markdown => "md".toList
  | html => "html".toList
  | json => "json".toList

/-- Other names of formats. -/
def aliases : List (Text × Text) :=
  [("md".toList, "markdown".toList), ("htm".toList, "html".toList)]

/-- The format with a name, in any case and with blanks around it. -/
def ofName? (t : Text) : Option Format :=
  let key := Text.lower (Text.strip t)
  let key := (Table.get? key aliases).getD key
  all.find? fun f => f.name = key

/-- The message about a name that is that of no format. -/
def unsupportedMessage (t : Text) : Text :=
  "Unsupported output format '".toList ++ t ++ "' (expected one of: ".toList ++
    Text.joinWith [',', ' '] (all.map name) ++ [')']

end Format

/-! ## Artifacts and the clock -/

/-- A page with the name of the file that it goes into. -/
structure Artifact where
  name : Text
  content : Text
  deriving DecidableEq, Repr

/-- The name of the file for the page of a source: the last part of its path with another extension. -/
def outputName (path extension : Text) : Text :=
  (Path.splitExtension (Path.fileName path)).1 ++ '.' :: extension

/-- A clock: what it shows at each reading, counted from 1, or nothing where it fails; and how often it was read. -/
structure Clock where
  reading : Nat → Option Text
  count : Nat := 0

/-- What the clock shows now, and the clock after that. -/
def Clock.read (c : Clock) : Option Text × Clock :=
  (c.reading (c.count + 1), { c with count := c.count + 1 })

/-! ## Wording -/

/-- In the place of a description that is missing. -/
def placeholder : Text := "No description available".toList

/-- In the place of a description of a part. -/
def noDescription : Text := "No description".toList

/-- In front of the reason why there is no prose. -/
def unavailable : Text := "Documentation unavailable".toList

/-- A text that is neither absent nor empty. -/
def present? (t : Option Text) : Option Text := t.filter (· ≠ [])

/-- A description, or the placeholder. -/
def described (t : Option Text) : Text := (present? t).getD placeholder

/-- The description of a part, from a table by name. -/
def partDescription (name : Text) (table : List (Text × Text)) : Text := (Table.get? name table).getD noDescription

/-- The word for "unknown" in the language of a document. -/
def Document.unknown (d : Document) : Text := unknownType d.language

/-- A type that says something: it is there, and is not the word for "unknown". -/
def telling? (unknown : Text) (type : Option Text) : Option Text := (present? type).filter (· ≠ unknown)

/-- A parameter with its type, if that says something, and its initial value. -/
def parameterText (unknown : Text) (p : Parameter) : Text :=
  p.name ++ ((telling? unknown p.type).map (":".toList ++ ' ' :: ·)).getD [] ++
    (p.initial.map (" = ".toList ++ ·)).getD []

/-- A function with its parameters and its result on one line. -/
def signature (unknown : Text) (f : FunctionDecl) : Text :=
  f.name ++ '(' :: (Text.joinWith [',', ' '] (f.parameters.map (parameterText unknown)) ++ [')']) ++
    ((telling? unknown f.returnType).map (" -> ".toList ++ ·)).getD []

/-- A visibility that is worth a badge. -/
def restricted? (visibility : Option Text) : Option Text :=
  visibility.filter fun v => v = "private".toList || v = "protected".toList

/-- The badges of a function. -/
def badges (f : FunctionDecl) : List Text :=
  (if f.isAsync then ["async".toList] else []) ++ (if f.isGenerator then ["generator".toList] else []) ++
    (if f.isStatic then ["static".toList] else []) ++ (restricted? f.visibility).toList

/-- The function has a result. -/
def returnsValue (f : FunctionDecl) : Bool := (present? f.returnType).any (· ≠ "void".toList)

/-- The sums of an entry in an index. -/
structure Counts where
  functions : Nat
  types : Nat
  exports : Nat
  deriving DecidableEq, Repr

def Document.counts (d : Document) : Counts := ⟨d.functions.length, d.types.length, d.exports.length⟩

end SourceDoc
