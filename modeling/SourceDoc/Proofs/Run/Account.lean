import SourceDoc.Proofs.Run.Pages
import SourceDoc.Proofs.Run.Request
import SourceDoc.Proofs.Text.Order

/-!
# The account that a report gives

A report counts every file once, as a document or as left out, and every format that was asked for once, with its pages
or with an error (`accounts_of_ran`).  In a format that has pages every document has its page or one error.
-/

namespace SourceDoc

/-! ## The files -/

namespace Report

/-- Every outcome counts once, with its path. -/
theorem length_outcomes (os : List Outcome) :
    os.length = (os.filterMap Outcome.document?).length +
      (os.filterMap fun o => o.reason?.map fun reason => (o.path, reason)).length := by
  induction os with
  | nil => rfl
  | cons o os ih =>
    rw [List.length_cons, ih]
    cases o with
    | documented path d => exact Nat.add_right_comm _ _ 1
    | skipped path reason => rfl
    | crashed path reason message => rfl

theorem paths_outcomes (os : List Outcome) (h : ∀ o ∈ os, o.IsKept) :
    ((os.filterMap Outcome.document?).map Document.path ++
      (os.filterMap fun o => o.reason?.map fun reason => (o.path, reason)).map Prod.fst).Perm
        (os.map Outcome.path) := by
  induction os with
  | nil => exact .nil
  | cons o os ih =>
    obtain ⟨ho, hos⟩ := List.forall_mem_cons.mp h
    have := ih hos
    cases o with
    | documented path d =>
      have hd : d.path = path := ho d rfl
      rw [List.map_cons, Outcome.path, ← hd]
      exact this.cons d.path
    | skipped path reason => exact (List.perm_middle.trans (this.cons path))
    | crashed path reason message => exact (List.perm_middle.trans (this.cons path))

variable (r : Report)

theorem attempted_eq : r.attempted = r.succeeded + r.skipped.length := by
  unfold attempted succeeded documents skipped
  rw [Text.length_sortOn, Text.length_sortOn]
  exact length_outcomes r.outcomes

theorem paths_perm (h : ∀ o ∈ r.outcomes, o.IsKept) :
    (r.documents.map Document.path ++ r.skipped.map Prod.fst).Perm (r.outcomes.map Outcome.path) := by
  refine List.Perm.trans ?_ (paths_outcomes r.outcomes h)
  exact ((Text.sortOn_perm Document.path _).map _).append ((Text.sortOn_perm Prod.fst _).map _)

/-! ## The formats -/

end Report

/-- The format that the outcome is about. -/
def FormatOutcome.format : FormatOutcome → Format
  | pages p => p.format
  | disabled format _ => format

theorem FormatOutcome.Fits.format_eq {r : Renderer} {isCombined : Bool} {ds : List Document} {f : FormatOutcome}
    (h : f.Fits r isCombined ds) : f.format = r.format := by
  cases h with
  | pages p hmissing hformat => exact hformat
  | disabled hmissing => rfl

theorem FormatOutcome.Fits.of_disabled {r : Renderer} {isCombined : Bool} {ds : List Document} {f : Format}
    {e : RenderError} (h : (FormatOutcome.disabled f e).Fits r isCombined ds) :
    r.missing ≠ [] ∧ e = .missingSlots r.missing := by
  generalize hx : FormatOutcome.disabled f e = x at h
  cases h with
  | pages p => cases hx
  | disabled hmissing =>
    cases hx
    exact ⟨hmissing, rfl⟩

namespace Report

variable (r : Report)

theorem mem_artifacts_iff (f : Format) (as : List Artifact) :
    (f, as) ∈ r.artifacts ↔ ∃ p, .pages p ∈ r.formats ∧ p.format = f ∧ p.artifacts = as := by
  unfold artifacts
  rw [List.mem_filterMap]
  constructor
  · rintro ⟨outcome, hm, he⟩
    cases outcome with
    | pages p =>
      cases he
      exact ⟨p, hm, rfl, rfl⟩
    | disabled format e => cases he
  · rintro ⟨p, hm, rfl, rfl⟩
    exact ⟨_, hm, rfl⟩

theorem mem_formatErrors_iff (f : Format) (e : RenderError) :
    (f, e) ∈ r.formatErrors ↔ .disabled f e ∈ r.formats := by
  unfold formatErrors
  rw [List.mem_filterMap]
  constructor
  · rintro ⟨outcome, hm, he⟩
    cases outcome with
    | pages p => cases he
    | disabled format e =>
      cases he
      exact hm
  · exact fun hm => ⟨_, hm, rfl⟩

/-- Every format is in one of the two tables. -/
theorem formats_perm (os : List Outcome) (fs : List FormatOutcome) :
    ((artifacts ⟨os, fs⟩).map Prod.fst ++ (formatErrors ⟨os, fs⟩).map Prod.fst).Perm
      (fs.map FormatOutcome.format) := by
  induction fs with
  | nil => exact .nil
  | cons f fs ih =>
    cases f with
    | pages p => exact ih.cons p.format
    | disabled format e => exact List.perm_middle.trans (ih.cons format)

/-- The errors about documents are in formats that have pages. -/
theorem mem_renderErrors (x : Document × Format × RenderError) (h : x ∈ r.renderErrors) :
    x.2.1 ∈ r.artifacts.map Prod.fst := by
  unfold renderErrors at h
  rw [List.mem_flatMap] at h
  obtain ⟨outcome, hm, hx⟩ := h
  cases outcome with
  | pages p =>
    obtain ⟨y, -, rfl⟩ := List.mem_map.mp hx
    exact List.mem_map.mpr ⟨_, (r.mem_artifacts_iff p.format p.artifacts).mpr ⟨p, hm, rfl, rfl⟩, rfl⟩
  | disabled format e => cases hx

/-- The errors about documents in a format are those of its pages. -/
theorem renderErrors_filter (os : List Outcome) (fs : List FormatOutcome)
    (hd : (fs.map FormatOutcome.format).Nodup) (p : Pages) (hp : .pages p ∈ fs) :
    (renderErrors ⟨os, fs⟩).filter (fun x => x.2.1 = p.format) = p.failures.map fun (d, e) => (d, p.format, e) := by
  have hone : ∀ q : Pages, (q.failures.map fun (d, e) => (d, q.format, e)).filter (fun x => x.2.1 = p.format) =
      if q.format = p.format then q.failures.map fun (d, e) => (d, q.format, e) else [] := by
    intro q
    by_cases hq : q.format = p.format
    · simp [hq, List.filter_map, Function.comp_def]
    · simp [hq, List.filter_map, Function.comp_def]
  -- no other outcome is about the format
  have hnone : ∀ fs : List FormatOutcome, p.format ∉ fs.map FormatOutcome.format →
      (renderErrors ⟨os, fs⟩).filter (fun x => x.2.1 = p.format) = [] := by
    intro fs hfs
    rw [List.filter_eq_nil_iff]
    intro x hx hxp
    obtain ⟨⟨f, as⟩, hm, hf⟩ := List.mem_map.mp (mem_renderErrors ⟨os, fs⟩ x hx)
    obtain ⟨q, hq, rfl, -⟩ := (mem_artifacts_iff ⟨os, fs⟩ f as).mp hm
    exact hfs (List.mem_map.mpr ⟨_, hq, hf.trans (of_decide_eq_true hxp)⟩)
  induction fs with
  | nil => cases hp
  | cons f fs ih =>
    rw [List.map_cons, List.nodup_cons] at hd
    have hcons : renderErrors ⟨os, f :: fs⟩ = renderErrors ⟨os, [f]⟩ ++ renderErrors ⟨os, fs⟩ := by
      simp [renderErrors]
    rw [hcons, List.filter_append]
    rcases List.mem_cons.mp hp with rfl | hp
    · rw [hnone fs hd.1, List.append_nil]
      simpa [renderErrors] using hone p
    · rw [ih hd.2 hp, hnone [f], List.nil_append]
      intro hm
      rw [List.map_singleton, List.mem_singleton] at hm
      exact hd.1 (hm ▸ List.mem_map.mpr ⟨_, hp, rfl⟩)

end Report

/-! ## The account -/

/-- A report accounts for every file and every format. -/
structure Report.Accounts (r : Report) (o : RunOptions) (sources : List SourceFile) : Prop where
  attempted : r.attempted = sources.length
  total : r.attempted = r.succeeded + r.skipped.length
  paths : (r.documents.map Document.path ++ r.skipped.map Prod.fst).Perm (sources.map SourceFile.path)
  documents_sorted : Text.Sorted Document.path r.documents
  skipped_sorted : Text.Sorted Prod.fst r.skipped
  formats : (r.artifacts.map Prod.fst ++ r.formatErrors.map Prod.fst).Perm o.requested
  formats_disjoint : (r.artifacts.map Prod.fst).Disjoint (r.formatErrors.map Prod.fst)
  /-- In a format that has pages every document has its page or one error, and there is an index if there are pages. -/
  pages : ∀ f as, (f, as) ∈ r.artifacts → ∃ p : Pages,
    FormatOutcome.Fits ⟨f, o.template?⟩ o.isCombined r.documents (.pages p) ∧ p.artifacts = as ∧
      r.renderErrors.filter (fun x => x.2.1 = f) = p.failures.map fun (d, e) => (d, f, e)
  /-- In any other format the template lacks slots, and no document has an error. -/
  disabled : ∀ f e, (f, e) ∈ r.formatErrors →
    Renderer.missing ⟨f, o.template?⟩ ≠ [] ∧ e = .missingSlots (Renderer.missing ⟨f, o.template?⟩) ∧
      ∀ x ∈ r.renderErrors, x.2.1 ≠ f

section

variable {σ : Type} {w : Workshop σ} {o : RunOptions} {sources : List SourceFile} {s : σ} {r : Report}
  {notes : List Note}

namespace Workshop.Ran

/-- The formats of the report are those that were asked for. -/
theorem fit (h : w.Ran o sources s r notes) :
    List.Forall₂ (fun f outcome => FormatOutcome.Fits ⟨f, o.template?⟩ o.isCombined r.documents outcome) o.requested
      r.formats :=
  renderFormats_fit _ _ _ _ _ _ h.formats

theorem format_eq (h : w.Ran o sources s r notes) : r.formats.map FormatOutcome.format = o.requested := by
  have hfit := h.fit
  revert hfit
  generalize r.formats = outcomes
  generalize o.requested = fs
  intro hfit
  induction hfit with
  | nil => rfl
  | cons hf _ ih => rw [List.map_cons, ih, hf.format_eq]

theorem fits (h : w.Ran o sources s r notes) (outcome : FormatOutcome) (hm : outcome ∈ r.formats) :
    outcome.Fits ⟨outcome.format, o.template?⟩ o.isCombined r.documents := by
  obtain ⟨f, hf⟩ := exists_of_forall₂ h.fit outcome hm
  rw [hf.format_eq]
  exact hf

/-- Every file has an outcome, in the order in which the files were done. -/
theorem paths_perm (h : w.Ran o sources s r notes) :
    (r.outcomes.map Outcome.path).Perm (sources.map SourceFile.path) := by
  rw [h.outcomes, ← w.path_documentAll sources s]
  exact (w.pool.arrange_perm _).map _

theorem isKept (h : w.Ran o sources s r notes) (hw : w.registry.KeepsPaths) : ∀ x ∈ r.outcomes, x.IsKept := by
  intro x hx
  rw [h.outcomes] at hx
  exact w.isKept_documentAll hw sources s x ((w.pool.arrange_perm _).mem_iff.mp hx)

/-- No two outcomes are about one format. -/
theorem nodup_format (h : w.Ran o sources s r notes) : (r.formats.map FormatOutcome.format).Nodup := by
  rw [h.format_eq]
  exact o.nodup_requested

end Workshop.Ran

/-- **A report accounts for every file and every format.** -/
theorem accounts_of_ran (h : w.Ran o sources s r notes) (hw : w.registry.KeepsPaths) : r.Accounts o sources := by
  have hkeys : (r.artifacts.map Prod.fst ++ r.formatErrors.map Prod.fst).Perm o.requested := by
    rw [← h.format_eq]
    exact Report.formats_perm r.outcomes r.formats
  have hdisjoint := List.disjoint_of_nodup_append (hkeys.nodup_iff.mpr o.nodup_requested)
  refine ⟨?_, r.attempted_eq, (r.paths_perm (h.isKept hw)).trans h.paths_perm, Text.sortOn_sorted _ _,
    Text.sortOn_sorted _ _, hkeys, hdisjoint, ?_, ?_⟩
  · simpa [Report.attempted] using h.paths_perm.length_eq
  · intro f as hm
    obtain ⟨p, hp, rfl, rfl⟩ := (r.mem_artifacts_iff f as).mp hm
    exact ⟨p, h.fits _ hp, rfl, Report.renderErrors_filter r.outcomes r.formats h.nodup_format p hp⟩
  · intro f e hm
    have hfits := h.fits _ ((r.mem_formatErrors_iff f e).mp hm)
    obtain ⟨hmissing, he⟩ := hfits.of_disabled
    refine ⟨hmissing, he, ?_⟩
    rintro x hx rfl
    exact hdisjoint (r.mem_renderErrors x hx) (List.mem_map.mpr ⟨_, hm, rfl⟩)

end

end SourceDoc
