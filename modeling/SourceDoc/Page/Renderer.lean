import SourceDoc.Page.Html
import SourceDoc.Page.Json
import SourceDoc.Page.Markdown

/-!
# Renderers

A renderer writes pages in one format.  Every page shows the time, so it reads the clock once; the page of a document
needs a template with all required slots, which is looked at before the clock.
-/

namespace SourceDoc

/-- A renderer: its format, and the template of HTML pages, if not the default one. -/
structure Renderer where
  format : Format
  template : Option Text := none
  deriving DecidableEq, Repr

/-- Why a page cannot be written. -/
inductive RenderError where
  | missingSlots (slots : List Text)
  | clockStopped
  deriving DecidableEq, Repr

/-- The wording of the reason. -/
def RenderError.message : RenderError → Text
  | missingSlots slots => Template.missingMessage slots
  | clockStopped => "clock stopped".toList

namespace Renderer

/-- The template of pages. -/
def pageTemplate (r : Renderer) : Text := r.template.getD Html.defaultTemplate

/-- The page of a document at a time. -/
def documentPage (r : Renderer) (now : Text) (d : Document) : Text :=
  match r.format with
  | .markdown => Markdown.documentPage now d
  | .html => Html.documentPage r.pageTemplate now d
  | .json => JsonPage.documentPage now d

/-- The index of some documents at a time. -/
def indexPage (r : Renderer) (now : Text) (ds : List Document) : Text :=
  match r.format with
  | .markdown => Markdown.indexPage now ds
  | .html => Html.indexPage now ds
  | .json => JsonPage.indexPage now ds

/-- The required slots that the template does not have. -/
def missing (r : Renderer) : List Text :=
  if r.format = .html then Template.missingSlots r.pageTemplate else []

/-- A page that needs the time and nothing else. -/
def timed (name : Text) (page : Text → Text) (c : Clock) : Except RenderError Artifact × Clock :=
  let (now, c) := c.read
  match now with
  | some now => (.ok ⟨name, page now⟩, c)
  | none => (.error .clockStopped, c)

/-- Writes the page of a document. -/
def renderDocument (r : Renderer) (d : Document) (c : Clock) : Except RenderError Artifact × Clock :=
  match r.missing with
  | [] => timed (outputName d.path r.format.extension) (fun now => r.documentPage now d) c
  | slots => (.error (.missingSlots slots), c)

/-- Writes the index of some documents. -/
def renderIndex (r : Renderer) (ds : List Document) (c : Clock) : Except RenderError Artifact × Clock :=
  timed ("index.".toList ++ r.format.extension) (fun now => r.indexPage now ds) c

/-- Writes the page that combines some documents. -/
def renderCombined (ds : List Document) (c : Clock) : Except RenderError Artifact × Clock :=
  timed JsonPage.combinedName (fun now => JsonPage.combinedPage now ds) c

end Renderer

end SourceDoc
