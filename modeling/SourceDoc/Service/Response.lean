import SourceDoc.Run.Report
import SourceDoc.Service.Request

/-!
# Responses of the service

The service documents the code of a request in all formats and answers with the pages.
-/

namespace SourceDoc.Service

/-- What the service answers when there is a document. -/
structure Response where
  format : Format
  /-- The page of each format, empty where there is none. -/
  page : Format → Text
  functionCount : Nat
  typeCount : Nat
  exportCount : Nat
  proseError : Option Text

/-- The page in the format of the request. -/
def Response.content (r : Response) : Text := r.page r.format

/-- Why the service has no pages. -/
inductive ServiceError where
  | run (e : RunError)
  /-- The code was left out. -/
  | skipped (path reason : Text)
  | nothing
  deriving DecidableEq, Repr

def ServiceError.message : ServiceError → Text
  | run e => e.message
  | skipped path reason => withPath path reason
  | nothing => "no documentation produced".toList

/-- The page in a list of artifacts that is about a document; an index has a name of its own. -/
def documentPage (artifacts : List Artifact) : Text :=
  (((artifacts.filter fun a => !Text.startsWith a.name "index.".toList).getLast?).map (·.content)).getD []

/-- The response to a request after the run for it. -/
def responseOf (format : Format) (report : Report) : Except ServiceError Response :=
  match report.documents, report.skipped with
  | d :: _, _ =>
    .ok {
      format
      page := fun f => ((report.artifacts.lookup f).map documentPage).getD []
      functionCount := d.functions.length
      typeCount := d.types.length
      exportCount := d.exports.length
      proseError := d.proseError }
  | [], (path, reason) :: _ => .error (.skipped path reason)
  | [], [] => .error .nothing

/-- Answers a request; the provider of prose depends on its style. -/
def answer (provide : Style → Outline → ProseAnswer) (clock : Clock) (r : DocsRequest) : Except ServiceError Response :=
  let workshop : Workshop Unit := { provide := fun o s => (provide r.style o, s) }
  let options : RunOptions := { formats := Format.all.map Format.name, isCombined := false, clock }
  match (workshop.run options [⟨r.path, r.code⟩] ()).1 with
  | .error e => .error (.run e)
  | .ok (report, _) => responseOf r.format report

end SourceDoc.Service
