import SourceDoc.Braced.Outline
import SourceDoc.Indented.Outline
import SourceDoc.Script.Outline
import SourceDoc.Text.Case

/-!
# Extractors

An extractor reads outlines of the sources of one language.  It is a built-in one, a plug-in that knows only the
language and leaves the outline empty, or a plug-in that reads in a way of its own and may fail in any way.
-/

namespace SourceDoc

/-- The languages with an extractor of their own. -/
inductive Language where
  | javascript
  | typescript
  | python
  | go
  deriving DecidableEq, Repr

/-- The name of a language. -/
def Language.name : Language → Text
  | javascript => "javascript".toList
  | typescript => "typescript".toList
  | python => "python".toList
  | go => "go".toList

/-- The extensions of the files of a language. -/
def Language.extensions : Language → List Text
  | javascript => [".js", ".jsx", ".mjs", ".cjs"].map String.toList
  | typescript => [".ts", ".tsx"].map String.toList
  | python => [".py".toList]
  | go => [".go".toList]

/-- A text that does not follow the grammar of its language: the path of the file, and what is wrong. -/
structure Malformation where
  path : Text
  reason : Text := "syntax error".toList
  deriving DecidableEq, Repr

/-- What makes an extractor fail. -/
inductive Cause where
  | indented (f : Indented.Failure)
  | braced (f : Braced.Failure)
  /-- A failure of a plug-in, with its name and a message that may be empty. -/
  | plugin (name message : Text)
  deriving DecidableEq, Repr

namespace Cause

def message : Cause → Text
  | indented f => f.message
  | braced f => f.message
  | plugin _ message => message

/-- The message, or the name where there is none. -/
def reason : Cause → Text
  | indented f => f.message
  | braced f => f.message
  | plugin name message => if message = [] then name else message

end Cause

/-- Why there is no outline of a source. -/
inductive ExtractError where
  /-- The text does not follow the grammar of the language. -/
  | malformed (m : Malformation)
  /-- The extractor failed. -/
  | failed (cause : Cause)
  /-- No extractor takes files with the extension. -/
  | unsupported (path extension : Text)
  deriving DecidableEq, Repr

/-- A message about a file, with its path in front where it has one. -/
def withPath (path message : Text) : Text :=
  if path = [] then message else path ++ [':', ' '] ++ message

/-- The wording of the reason. -/
def ExtractError.reason : ExtractError → Text
  | malformed m => m.reason
  | failed cause => cause.message
  | unsupported _ extension =>
    let shown := if extension = [] then "<none>".toList else extension
    "no extractor for extension '".toList ++ shown ++ ['\'']

/-- The wording of the reason, with the path where the file is to blame. -/
def ExtractError.message (e : ExtractError) : Text :=
  match e with
  | malformed m => withPath m.path e.reason
  | failed _ => e.reason
  | unsupported path _ => withPath path e.reason

/-- How an extractor reads a source. -/
inductive Reader where
  | builtIn (language : Language)
  /-- Keeps the text and finds nothing in it. -/
  | empty
  /-- Reads the outline off a path and a source in a way of its own. -/
  | plugin (read : Text → Text → Except ExtractError Outline)

/-- An extractor: the language that it names, the extensions that it declares, and how it reads. -/
structure Extractor where
  language : Text
  extensions : List Text
  reader : Reader

namespace Extractor

/-- The extractor of a language. -/
def builtIn (l : Language) : Extractor := ⟨l.name, l.extensions, .builtIn l⟩

/-- The built-in extractors. -/
def all : List Extractor := [.javascript, .typescript, .python, .go].map builtIn

/-- The lower case of the path ends in one of the extensions as declared. -/
def supports (e : Extractor) (path : Text) : Bool :=
  e.extensions.any fun x => Text.endsWith (Text.lower path) x

/-- The dialect of a script, by its path. -/
def dialectOf (l : Language) (path : Text) : Script.Dialect :=
  if l = .javascript then .plain
  else if Text.endsWith (Text.lower path) ".tsx".toList then .typedMarkup
  else .typed

/-- The outline of a script that a parser reads. -/
def scriptOutlineBy (parse? : Script.Dialect → Text → Option Script.Node) (l : Language) (path source : Text) :
    Except ExtractError Outline :=
  match parse? (dialectOf l path) source with
  | some root => .ok (Script.outlineOf l.name path source root)
  | none => .error (.malformed { path })

/-- The outline of a script. -/
def scriptOutline (l : Language) (path source : Text) : Except ExtractError Outline :=
  scriptOutlineBy Script.parse? l path source

/-- Reads the outline of a source. -/
def extract (e : Extractor) (path source : Text) : Except ExtractError Outline :=
  match e.reader with
  | .empty => .ok { path := path, language := e.language, source := source }
  | .plugin read => read path source
  | .builtIn .python =>
    (Indented.outlineOf Language.python.name path source).mapError fun f => .failed (.indented f)
  | .builtIn .go => (Braced.outlineOf Language.go.name path source).mapError fun f => .failed (.braced f)
  | .builtIn l => scriptOutline l path source

end Extractor

end SourceDoc
