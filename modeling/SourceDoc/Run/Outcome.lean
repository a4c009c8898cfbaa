import SourceDoc.Document.Basic
import SourceDoc.Extractor.Registry
import SourceDoc.Outline.Normal
import SourceDoc.Prose.Reply
import SourceDoc.Run.Event

/-!
# Outcomes

What becomes of one source file: a document, or a reason why it is left out.  A file whose prose does not come is
documented without it.
-/

namespace SourceDoc

/-- What became of a source file. -/
inductive Outcome where
  | documented (path : Text) (d : Document)
  | skipped (path reason : Text)
  /-- Something went wrong that nobody has foreseen. -/
  | crashed (path reason message : Text)
  deriving DecidableEq, Repr

namespace Outcome

def path : Outcome → Text
  | documented path _ => path
  | skipped path _ => path
  | crashed path _ _ => path

def document? : Outcome → Option Document
  | documented _ d => some d
  | _ => none

/-- A reason as it is reported: in the place of one that says nothing stand words for that. -/
def reported (reason : Text) : Text := if reason = [] then "unknown failure".toList else reason

/-- Why the file is left out. -/
def reason? : Outcome → Option Text
  | documented _ _ => none
  | skipped _ reason => some (reported reason)
  | crashed _ reason _ => some (reported reason)

end Outcome

/-- The workers of a run: the order in which they are done with some files.  They are done with each file once. -/
structure Pool where
  arrange : List Outcome → List Outcome
  arrange_perm : ∀ os, (arrange os).Perm os

/-- Workers that are done with files in the order in which they get them. -/
def Pool.inOrder : Pool := ⟨id, fun _ => .refl _⟩

/-- What documents source files: extractors, a provider of prose that may keep a state, and workers. -/
structure Workshop (σ : Type) where
  registry : Registry := .builtIn
  provide : Outline → σ → ProseAnswer × σ
  pool : Pool := .inOrder

namespace Workshop

variable {σ : Type}

/-- What becomes of a file with an outline, by the prose about it. -/
def withProse (path : Text) (o : Outline) : Except ProseError Prose → Outcome × List Note
  | .ok prose => (.documented path (Document.assemble o (some prose) none), [])
  | .error e =>
    if e.isReported then
      (.documented path (Document.assemble o none (some e.message)),
        [.ofRun .warning ("Prose generation failed for ".toList ++ path ++ ": ".toList ++ e.message)])
    else (.crashed path e.crashMessage e.message, [])

/-- Documents one source file. -/
def document (w : Workshop σ) (f : SourceFile) (s : σ) : (Outcome × List Note) × σ :=
  match w.registry.extract f.path f.text with
  | .error (.failed cause) => ((.crashed f.path cause.reason cause.message, []), s)
  | .error e =>
    ((.skipped f.path e.reason,
      [.ofRun .debug ("Skipping ".toList ++ f.path ++ ": ".toList ++ e.reason)]), s)
  | .ok outline =>
    let o := outline.normalize
    let (answer, s) := w.provide o s
    let (outcome, notes) := withProse f.path o answer.prose
    ((outcome, answer.log.map Note.entry ++ notes), s)

/-- Documents some source files, one after another. -/
def documentAll (w : Workshop σ) : List SourceFile → σ → (List Outcome × List Note) × σ
  | [], s => (([], []), s)
  | f :: rest, s =>
    let ((outcome, notes), s) := w.document f s
    let ((outcomes, more), s) := documentAll w rest s
    ((outcome :: outcomes, notes ++ more), s)

end Workshop

end SourceDoc
