import SourceDoc.Run.Report

/-!
# What a run does

A run has source files read and tells notes.  `Workshop.acts` lists both in order, also for a run that breaks off: then
the list ends where the run does.
-/

namespace SourceDoc

/-- Something that a run does. -/
inductive Act where
  /-- It has a source file read by an extractor. -/
  | extract (f : SourceFile)
  | tell (n : Note)
  deriving DecidableEq, Repr

namespace Act

def extracted? : Act → Option SourceFile
  | extract f => some f
  | tell _ => none

def told? : Act → Option Note
  | extract _ => none
  | tell n => some n

end Act

/-- What a run tells about some formats; of a format whose index cannot be written, it tells no more than which pages
there are not. -/
def formatNotes (template? : Option Text) (isCombined : Bool) (ds : List Document) : List Format → Clock → List Note
  | [], _ => []
  | f :: rest, c =>
    match Renderer.renderFormat ⟨f, template?⟩ isCombined ds c with
    | (.error _, _) =>
      (FormatOutcome.notes (.pages ⟨f, (Renderer.renderEach ⟨f, template?⟩ ds c).1, []⟩)).dropLast
    | (.ok outcome, c) => outcome.notes ++ formatNotes template? isCombined ds rest c

namespace Workshop

variable {σ : Type} (w : Workshop σ)

/-- What is done to document some source files. -/
def documentActs : List SourceFile → σ → List Act
  | [], _ => []
  | f :: rest, s =>
    let ((_, notes), s) := w.document f s
    .extract f :: notes.map .tell ++ documentActs rest s

/-- What a run does, in order.  A run that cannot be made does nothing. -/
def acts (o : RunOptions) (sources : List SourceFile) (s : σ) : List Act :=
  match o.resolved sources with
  | .error _ => []
  | .ok formats =>
    let outcomes := w.pool.arrange (w.documentAll sources s).1.1
    let total := sources.length
    let reporting := (outcomes.mapIdx fun i outcome => outcome.notes total (i + 1)).flatten
    let ds := Report.documents ⟨outcomes, []⟩
    let ending :=
      match renderFormats o.template? o.isCombined ds formats o.clock with
      | .error _ => []
      | .ok rendered => [Report.completeNote ⟨outcomes, rendered⟩]
    .tell (startNote total) :: w.documentActs sources s ++
      (reporting ++ formatNotes o.template? o.isCombined ds formats o.clock ++ ending).map .tell

end Workshop

end SourceDoc
