import SourceDoc.Extractor.Basic
import SourceDoc.Json.Parser
import SourceDoc.Page.Basic
import SourceDoc.Prose.Prompt

/-!
# Requests to the service

The service documents a piece of code that comes in the body of a request, a JSON object.  A body that is none, or has
members of the wrong kind, is refused with all problems that it has.
-/

namespace SourceDoc.Service

/-- What is wrong at one place of a body. -/
inductive ProblemKind where
  | missing
  | notText
  | tooShort
  | notOneOf
  | notObject
  | notJson
  deriving DecidableEq, Repr

def ProblemKind.name : ProblemKind → Text
  | missing => "missing".toList
  | notText => "string_type".toList
  | tooShort => "string_too_short".toList
  | notOneOf => "literal_error".toList
  | notObject => "model_attributes_type".toList
  | notJson => "json_invalid".toList

/-- A problem: the place, from the body on, and what is wrong there. -/
structure Problem where
  place : List Text
  kind : ProblemKind
  deriving DecidableEq, Repr

/-- Why a body is refused. -/
inductive Refusal where
  | problems (ps : List Problem)
  /-- The body cannot be read at all. -/
  | unreadable
  deriving DecidableEq, Repr

/-- A request for documentation. -/
structure DocsRequest where
  code : Text
  language : Language
  format : Format := .markdown
  style : Style := .detailed
  fileName? : Option Text := none
  deriving DecidableEq, Repr

/-- The path that stands for the code. -/
def DocsRequest.path (r : DocsRequest) : Text :=
  (r.fileName?.filter (· ≠ [])).getD ("snippet".toList ++ r.language.extensions.headD [])

/-- A problem with a member. -/
def problemAt (name : String) (kind : ProblemKind) : Problem := ⟨["body".toList, name.toList], kind⟩

/-- A member, or its problem where it has to be there. -/
def required {α : Type} (name : String) (read : Json → Except ProblemKind α) (m : Json.Members) : Except Problem α :=
  match Table.get? name.toList m with
  | none => .error (problemAt name .missing)
  | some v => (read v).mapError (problemAt name)

/-- A member, or what counts where it is not there. -/
def optional {α : Type} (name : String) (usual : α) (read : Json → Except ProblemKind α) (m : Json.Members) :
    Except Problem α :=
  match Table.get? name.toList m with
  | none => .ok usual
  | some v => (read v).mapError (problemAt name)

/-- A text that is not empty. -/
def someText : Json → Except ProblemKind Text
  | .text [] => .error .tooShort
  | .text t => .ok t
  | _ => .error .notText

/-- A text or null. -/
def textOrNull : Json → Except ProblemKind (Option Text)
  | .null => .ok none
  | .text t => .ok (some t)
  | _ => .error .notText

/-- One of some values, by its name. -/
def oneOf {α : Type} (values : List α) (name : α → Text) : Json → Except ProblemKind α
  | .text t =>
    match values.find? fun v => name v = t with
    | some v => .ok v
    | none => .error .notOneOf
  | _ => .error .notOneOf

/-- The problem with a member, if it has one. -/
def problem? {α : Type} : Except Problem α → List Problem
  | .ok _ => []
  | .error p => [p]

namespace DocsRequest

/-- The request in the members of a body; the problems come in the order of their members. -/
def ofMembers (m : Json.Members) : Except (List Problem) DocsRequest :=
  let code := required "code" someText m
  let language := required "language" (oneOf [.javascript, .typescript, .python, .go] Language.name) m
  let format := optional "format" .markdown (oneOf Format.all Format.name) m
  let style := optional "style" .detailed (oneOf [.concise, .detailed] Style.name) m
  let fileName := optional "filename" none textOrNull m
  match code, language, format, style, fileName with
  | .ok code, .ok language, .ok format, .ok style, .ok fileName? => .ok { code, language, format, style, fileName? }
  | _, _, _, _, _ =>
    .error (problem? code ++ problem? fileName ++ problem? format ++ problem? language ++ problem? style)

/-- The request in a body. -/
def ofJson : Json → Except (List Problem) DocsRequest
  | .object m => ofMembers m
  | .null => .error [⟨["body".toList], .missing⟩]
  | _ => .error [⟨["body".toList], .notObject⟩]

/-- The request in the text of a body. -/
def ofText (t : Text) : Except Refusal DocsRequest :=
  if t = [] then .error (.problems [⟨["body".toList], .missing⟩])
  else
    match Json.parse (Text.dropHead ['\ufeff'] t) with
    | .ok v => (ofJson v).mapError .problems
    | .error e =>
      match e.fault with
      | .number _ => .error .unreadable
      | _ => .error (.problems [⟨["body".toList, Text.ofNat e.offset], .notJson⟩])

end DocsRequest

end SourceDoc.Service
