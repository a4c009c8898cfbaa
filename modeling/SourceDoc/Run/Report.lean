import SourceDoc.Page.Renderer
import SourceDoc.Run.Outcome

/-!
# Runs

A run documents some source files and writes their pages in some formats.  `Workshop.run` gives a report of what became
of each file and each format, and tells its progress.  A file or a page that fails is left out and named in the report.
-/

namespace SourceDoc

/-- Why a run cannot be made. -/
inductive RunError where
  | noSources
  | noFormats
  | badFormat (name : Text)
  /-- The page that lists the documents cannot be written. -/
  | noIndex (e : RenderError)
  deriving DecidableEq, Repr

def RunError.message : RunError → Text
  | noSources => "no source files to document".toList
  | noFormats => "no output formats requested".toList
  | badFormat name => Format.unsupportedMessage name
  | noIndex e => e.message

/-- The pages of one format. -/
structure Pages where
  format : Format
  /-- The page of each document, or why there is none. -/
  pages : List (Document × Except RenderError Artifact)
  /-- The pages about all documents. -/
  extra : List Artifact

namespace Pages

/-- The pages that could be written. -/
def artifacts (p : Pages) : List Artifact := p.pages.filterMap (·.2.toOption) ++ p.extra

/-- The documents whose pages could be written. -/
def rendered (p : Pages) : List Document := (p.pages.filter (·.2.isOk)).map Prod.fst

/-- The documents whose pages could not be written, and why. -/
def failures (p : Pages) : List (Document × RenderError) :=
  p.pages.filterMap fun (d, r) =>
    match r with
    | .ok _ => none
    | .error e => some (d, e)

end Pages

/-- What became of a format: its pages, or why it has none. -/
inductive FormatOutcome where
  | pages (p : Pages)
  | disabled (format : Format) (e : RenderError)

/-- The report of a run, with the files in the order in which they were done. -/
structure Report where
  outcomes : List Outcome
  formats : List FormatOutcome

namespace Report

/-- How many files there were. -/
def attempted (r : Report) : Nat := r.outcomes.length

/-- The documents, in the order of their paths. -/
def documents (r : Report) : List Document :=
  Text.sortOn Document.path (r.outcomes.filterMap Outcome.document?)

/-- The files that were left out and why, in the order of their paths. -/
def skipped (r : Report) : List (Text × Text) :=
  Text.sortOn Prod.fst (r.outcomes.filterMap fun o => o.reason?.map fun reason => (o.path, reason))

/-- How many documents there are. -/
def succeeded (r : Report) : Nat := r.documents.length

/-- The pages by format. -/
def artifacts (r : Report) : List (Format × List Artifact) :=
  r.formats.filterMap fun f =>
    match f with
    | .pages p => some (p.format, p.artifacts)
    | .disabled _ _ => none

/-- The pages of all formats. -/
def allArtifacts (r : Report) : List Artifact := r.artifacts.flatMap Prod.snd

/-- The formats without pages and why. -/
def formatErrors (r : Report) : List (Format × RenderError) :=
  r.formats.filterMap fun f =>
    match f with
    | .pages _ => none
    | .disabled format e => some (format, e)

/-- The documents without a page in some format, and why. -/
def renderErrors (r : Report) : List (Document × Format × RenderError) :=
  r.formats.flatMap fun f =>
    match f with
    | .pages p => p.failures.map fun (d, e) => (d, p.format, e)
    | .disabled _ _ => []

/-- The last thing that a run tells. -/
def summary (r : Report) : Text :=
  "Documented ".toList ++ Text.ofNat r.succeeded ++ " of ".toList ++ Text.ofNat r.attempted ++
    " file(s), skipped ".toList ++ Text.ofNat r.skipped.length

end Report

/-! ## Telling -/

/-- What a run tells about the outcome of a file, the `current`th of `total`. -/
def Outcome.notes (total current : Nat) (o : Outcome) : List Note :=
  let event := fun (kind : EventKind) (stage : Stage) (message : Text) =>
    Note.event { kind, stage, path? := some o.path, current, total, message }
  let skip := fun (path reason : Text) =>
    event .skip .extract ("Skipped ".toList ++ path ++ ": ".toList ++ reason)
  match o with
  | .documented path d =>
    let unavailable :=
      match present? d.proseError with
      | none => []
      | some reason =>
        [event .error .prose ("Prose unavailable for ".toList ++ path ++ ": ".toList ++ reason)]
    unavailable ++ [event .progress .document ("Documented ".toList ++ path)]
  | .skipped path reason => [skip path reason]
  | .crashed path reason message =>
    [.ofRun .error ("Unexpected failure documenting ".toList ++ path ++ ": ".toList ++ message), skip path reason]

/-- What a run tells about the pages of a format. -/
def FormatOutcome.notes (f : FormatOutcome) : List Note :=
  let event := fun (kind : EventKind) (path? : Option Text) (message : Text) =>
    Note.event { kind, stage := .render, path?, message }
  match f with
  | .disabled format e =>
    [.ofRun .error ("HTML rendering disabled: ".toList ++ e.message),
      event .error none (format.name ++ ": ".toList ++ e.message)]
  | .pages p =>
    (p.failures.flatMap fun (d, e) =>
      [.ofRun .error ("Failed to render ".toList ++ d.path ++ " as ".toList ++ p.format.name ++ ": ".toList ++ e.message),
        event .error (some d.path) (p.format.name ++ ": ".toList ++ e.message)]) ++
    [event .progress none
      ("Rendered ".toList ++ Text.ofNat p.artifacts.length ++ [' '] ++ p.format.name ++ " artifact(s)".toList)]

/-- What a run tells before the files are looked at. -/
def startNote (total : Nat) : Note :=
  .event { kind := .start, stage := .run, total, message := "Documenting ".toList ++ Text.ofNat total ++ " file(s)".toList }

/-- What a run tells at its end. -/
def Report.completeNote (r : Report) : Note :=
  .event { kind := .complete, stage := .run, current := r.attempted, total := r.attempted, message := r.summary }

/-! ## Pages -/

/-- Writes the pages of some documents. -/
def Renderer.renderEach (r : Renderer) : List Document → Clock → List (Document × Except RenderError Artifact) × Clock
  | [], c => ([], c)
  | d :: rest, c =>
    let (page, c) := r.renderDocument d c
    let (pages, c) := renderEach r rest c
    ((d, page) :: pages, c)

/-- Writes the pages about some documents that have pages: the index, and for JSON, where that is asked for, the page
that combines them. -/
def Renderer.renderExtra (r : Renderer) (isCombined : Bool) (ds : List Document) (c : Clock) :
    Except RenderError (List Artifact) × Clock :=
  if ds = [] then (.ok [], c)
  else
    match r.renderIndex ds c with
    | (.error e, c) => (.error e, c)
    | (.ok index, c) =>
      if isCombined && r.format = .json then
        let (combined, c) := Renderer.renderCombined ds c
        (combined.map fun a => [index, a], c)
      else (.ok [index], c)

/-- Writes the pages of a format. -/
def Renderer.renderFormat (r : Renderer) (isCombined : Bool) (ds : List Document) (c : Clock) :
    Except RenderError FormatOutcome × Clock :=
  match r.missing with
  | [] =>
    let (pages, c) := r.renderEach ds c
    let (extra, c) := r.renderExtra isCombined (Pages.rendered ⟨r.format, pages, []⟩) c
    (extra.map fun extra => .pages ⟨r.format, pages, extra⟩, c)
  | slots => (.ok (.disabled r.format (.missingSlots slots)), c)

/-- Writes the pages of some formats. -/
def renderFormats (template? : Option Text) (isCombined : Bool) (ds : List Document) :
    List Format → Clock → Except RenderError (List FormatOutcome)
  | [], _ => .ok []
  | f :: rest, c =>
    match Renderer.renderFormat ⟨f, template?⟩ isCombined ds c with
    | (.error e, _) => .error e
    | (.ok outcome, c) => (renderFormats template? isCombined ds rest c).map (outcome :: ·)

/-! ## Running -/

/-- What is asked of a run. -/
structure RunOptions where
  /-- The names of the formats; a format counts once. -/
  formats : List Text
  template? : Option Text := none
  isCombined : Bool := true
  clock : Clock

/-- The format with a name. -/
def Format.named (name : Text) : Except RunError Format :=
  match Format.ofName? name with
  | none => .error (.badFormat name)
  | some f => .ok f

/-- The formats with some names, each once. -/
def Format.resolve (names : List Text) : Except RunError (List Format) :=
  (names.mapM Format.named).map List.eraseDups

/-- The formats that a run is asked for. -/
def RunOptions.resolved (o : RunOptions) (sources : List SourceFile) : Except RunError (List Format) :=
  if sources = [] then .error .noSources
  else if o.formats = [] then .error .noFormats
  else Format.resolve o.formats

/-- Documents some source files and writes their pages. -/
def Workshop.run {σ : Type} (w : Workshop σ) (o : RunOptions) (sources : List SourceFile) (s : σ) :
    Except RunError (Report × List Note) × σ :=
  match o.resolved sources with
  | .error e => (.error e, s)
  | .ok formats =>
    let ((made, documenting), s) := w.documentAll sources s
    let outcomes := w.pool.arrange made
    let total := sources.length
    let reporting := (outcomes.mapIdx fun i outcome => outcome.notes total (i + 1)).flatten
    match renderFormats o.template? o.isCombined (Report.documents ⟨outcomes, []⟩) formats o.clock with
    | .error e => (.error (.noIndex e), s)
    | .ok rendered =>
      let report : Report := ⟨outcomes, rendered⟩
      (.ok (report, startNote total :: documenting ++ reporting ++ rendered.flatMap FormatOutcome.notes ++
        [report.completeNote]), s)

end SourceDoc
