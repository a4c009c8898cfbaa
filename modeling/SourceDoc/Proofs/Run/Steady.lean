import SourceDoc.Proofs.Run.Pages
import SourceDoc.Proofs.Run.Request

/-!
# Steady runs

A run is steady if the prose depends on the outline alone and the clock stands still.  A steady run always has a report,
which depends on the files alone (`run_steady`).
-/

namespace SourceDoc

/-- What is asked of a run can be done, and the clock of it stands still. -/
structure RunOptions.IsSteady (o : RunOptions) (now? : Option Text) : Prop where
  formats_ne : o.formats ≠ []
  known : ∀ name ∈ o.formats, (Format.ofName? name).isSome
  clock : o.clock.IsSteady now?

/-! ## The report of a steady run -/

/-- What is told of some documents in all formats that were asked for. -/
def RunOptions.formatsAt (o : RunOptions) (now? : Option Text) (ds : List Document) : List FormatOutcome :=
  o.requested.map fun f => Renderer.formatAt ⟨f, o.template?⟩ o.isCombined now? ds

/-- The report on some outcomes, in the order in which the files were done. -/
def RunOptions.reportAt (o : RunOptions) (now? : Option Text) (done : List Outcome) : Report :=
  ⟨done, o.formatsAt now? (Report.documents ⟨done, []⟩)⟩

namespace Workshop

variable {σ : Type} (w : Workshop σ) (prose : Outline → Except ProseError Prose)

/-- A run on some files has a report. -/
def Reports (o : RunOptions) (sources : List SourceFile) (s : σ) (r : Report) : Prop :=
  ∃ notes, (w.run o sources s).1 = .ok (r, notes)

/-- The files as the workers are done with them. -/
def doneWith (sources : List SourceFile) : List Outcome :=
  w.pool.arrange (sources.map (outcomeOf w.registry prose))

theorem doneWith_perm (sources : List SourceFile) :
    (w.doneWith prose sources).Perm (sources.map (outcomeOf w.registry prose)) :=
  w.pool.arrange_perm _

theorem doneWith_singleton (f : SourceFile) : w.doneWith prose [f] = [outcomeOf w.registry prose f] :=
  List.perm_singleton.mp (w.doneWith_perm prose [f])

/-- What is asked of a run decides whether it has a report. -/
theorem reports_of_isSteady (o : RunOptions) (now? : Option Text) (ho : o.IsSteady now?) (sources : List SourceFile)
    (hs : sources ≠ []) (s : σ) :
    w.Reports o sources s (o.reportAt now? (w.pool.arrange (w.documentAll sources s).1.1)) :=
  ⟨_, (w.run_eq_ok_iff o sources s _ _).mpr
    ⟨hs, ho.formats_ne, ho.known, rfl, renderFormats_steady _ _ _ _ _ _ ho.clock, rfl⟩⟩

/-- **A steady run has a report,** which depends on the files alone. -/
theorem run_steady (hw : w.IsSteady prose) (o : RunOptions) (now? : Option Text) (ho : o.IsSteady now?)
    (sources : List SourceFile) (hs : sources ≠ []) (s : σ) :
    w.Reports o sources s (o.reportAt now? (w.doneWith prose sources)) := by
  have h := w.reports_of_isSteady o now? ho sources hs s
  rw [w.documentAll_steady prose hw] at h
  exact h

end Workshop

/-! ## A steady run -/

namespace Sample

/-- Reads the files of one language, and fails with those of another. -/
def registry : Registry :=
  .ofExtractors
    [⟨"plain".toList, [".txt".toList], .empty⟩,
      ⟨"broken".toList, [".bad".toList], .plugin fun _ _ => .error (.failed (.plugin "ValueError".toList []))⟩]

theorem registry_keepsPaths : registry.KeepsPaths := by
  refine Registry.keepsPaths_ofExtractors _ ?_
  simp only [List.forall_mem_cons]
  refine ⟨?_, ?_, by simp⟩
  · intro path source o h
    cases h
    rfl
  · intro path source o h
    cases h

/-- There is no prose about one of the files. -/
def prose (o : Outline) : Except ProseError Prose :=
  if o.path = "b.txt".toList then .error (.refused "no model".toList) else .ok {}

def workshop : Workshop Unit where
  registry := registry
  provide o s := (⟨prose o, []⟩, s)

/-- The template of HTML pages lacks its slots. -/
def options : RunOptions where
  formats := ["markdown".toList, "html".toList, " MD".toList]
  template? := some []
  clock := { reading := fun _ => some "now".toList }

theorem options_isSteady : options.IsSteady (some "now".toList) where
  formats_ne := by simp [options]
  known := by decide
  clock := fun _ => rfl

def sources : List SourceFile :=
  ["b.txt", "c.bad", "a.txt", "d"].map fun path => ⟨path.toList, []⟩

end Sample

end SourceDoc
