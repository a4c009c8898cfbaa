import SourceDoc.Proofs.List
import SourceDoc.Proofs.Run.Outcome
import SourceDoc.Run.Report

/-!
# Runs that can be made

A run can be made if there are files and formats, and all formats are known (`resolved_eq_ok_iff`).  It has a report
if its indexes can be written; what it reports and what it tells is `Workshop.Ran` (`run_eq_ok_iff`).
-/

namespace SourceDoc

/-! ## The formats that are asked for -/

theorem Format.mapM_named (names : List Text) (fs : List Format) :
    names.mapM Format.named = .ok fs ↔
      (∀ name ∈ names, (Format.ofName? name).isSome) ∧ fs = names.filterMap Format.ofName? := by
  induction names generalizing fs with
  | nil =>
    simp only [List.mapM_nil, List.not_mem_nil, false_implies, implies_true, true_and, List.filterMap_nil]
    exact ⟨fun he => by cases he; rfl, fun he => by rw [he]; rfl⟩
  | cons name rest ih =>
    rw [List.mapM_cons, List.forall_mem_cons, List.filterMap_cons]
    cases h : Format.ofName? name with
    | none => simp [Format.named, h, bind, Except.bind]
    | some f =>
      cases hrest : rest.mapM Format.named with
      | error e =>
        have hnone := (ih (rest.filterMap Format.ofName?)).not.mp (by simp [hrest])
        simp only [and_true] at hnone
        simp [Format.named, h, bind, Except.bind, hnone]
      | ok more =>
        obtain ⟨hall, rfl⟩ := (ih more).mp hrest
        simp only [Format.named, h, bind, Except.bind, pure, Except.pure, Option.isSome_some, true_and]
        constructor
        · intro he
          cases he
          exact ⟨hall, rfl⟩
        · rintro ⟨-, rfl⟩
          rfl

/-- The formats that a run is asked for, each once. -/
def RunOptions.requested (o : RunOptions) : List Format := (o.formats.filterMap Format.ofName?).eraseDups

theorem RunOptions.nodup_requested (o : RunOptions) : o.requested.Nodup := nodup_eraseDups _

/-- A run can be made exactly if there are files and formats, all of them known. -/
theorem RunOptions.resolved_eq_ok_iff (o : RunOptions) (sources : List SourceFile) (fs : List Format) :
    o.resolved sources = .ok fs ↔
      sources ≠ [] ∧ o.formats ≠ [] ∧ (∀ name ∈ o.formats, (Format.ofName? name).isSome) ∧ fs = o.requested := by
  unfold RunOptions.resolved
  by_cases hs : sources = []
  · simp [hs]
  · by_cases hf : o.formats = []
    · simp [hs, hf]
    · rw [if_neg hs, if_neg hf]
      unfold Format.resolve RunOptions.requested
      cases h : o.formats.mapM Format.named with
      | error e =>
        have hnone := (Format.mapM_named o.formats (o.formats.filterMap Format.ofName?)).not.mp (by simp [h])
        simp only [and_true] at hnone
        simp [Except.map, hnone]
      | ok all =>
        obtain ⟨hall, rfl⟩ := (Format.mapM_named o.formats all).mp h
        simp only [Except.map, Except.ok.injEq, hs, hf, ne_eq, not_false_eq_true, true_and]
        exact ⟨fun he => ⟨hall, he.symm⟩, fun he => he.2.symm⟩

/-! ## The run -/

/-- A run reports something and tells some notes. -/
structure Workshop.Ran {σ : Type} (w : Workshop σ) (o : RunOptions) (sources : List SourceFile) (s : σ) (r : Report)
    (notes : List Note) : Prop where
  sources_ne : sources ≠ []
  formats_ne : o.formats ≠ []
  known : ∀ name ∈ o.formats, (Format.ofName? name).isSome
  outcomes : r.outcomes = w.pool.arrange (w.documentAll sources s).1.1
  formats : renderFormats o.template? o.isCombined r.documents o.requested o.clock = .ok r.formats
  notes : notes = startNote sources.length :: (w.documentAll sources s).1.2 ++
    (r.outcomes.mapIdx fun i outcome => outcome.notes sources.length (i + 1)).flatten ++
    r.formats.flatMap FormatOutcome.notes ++ [r.completeNote]

theorem Workshop.run_eq_ok_iff {σ : Type} (w : Workshop σ) (o : RunOptions) (sources : List SourceFile) (s : σ)
    (r : Report) (notes : List Note) :
    (w.run o sources s).1 = .ok (r, notes) ↔ w.Ran o sources s r notes := by
  unfold Workshop.run
  cases hfs : o.resolved sources with
  | error e =>
    simp only [reduceCtorEq, false_iff]
    intro h
    rw [(o.resolved_eq_ok_iff sources o.requested).mpr ⟨h.sources_ne, h.formats_ne, h.known, rfl⟩] at hfs
    cases hfs
  | ok fs =>
    obtain ⟨hsources, hformats, hknown, rfl⟩ := (o.resolved_eq_ok_iff sources fs).mp hfs
    have hdocuments : ∀ os (fs fs' : List FormatOutcome), Report.documents ⟨os, fs⟩ = Report.documents ⟨os, fs'⟩ :=
      fun _ _ _ => rfl
    cases hr : renderFormats o.template? o.isCombined
        (Report.documents ⟨w.pool.arrange (w.documentAll sources s).1.1, []⟩) o.requested o.clock with
    | error e =>
      simp only [hr, reduceCtorEq, false_iff]
      rintro ⟨-, -, -, houtcomes, hrendered, -⟩
      obtain ⟨os, fs⟩ := r
      simp only at houtcomes
      rw [houtcomes, hdocuments _ fs [], hr] at hrendered
      cases hrendered
    | ok rendered =>
      simp only [hr, Except.ok.injEq, Prod.mk.injEq]
      constructor
      · rintro ⟨rfl, rfl⟩
        exact ⟨hsources, hformats, hknown, rfl, hr, rfl⟩
      · rintro ⟨-, -, -, houtcomes, hrendered, hnotes⟩
        obtain ⟨os, fs⟩ := r
        simp only at houtcomes
        subst houtcomes
        rw [hdocuments _ fs [], hr] at hrendered
        cases hrendered
        exact ⟨rfl, hnotes.symm⟩

end SourceDoc
