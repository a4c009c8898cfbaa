import Mathlib.Data.List.Forall2
import SourceDoc.Run.Report

/-!
# The pages of a run

Every format that a run is asked for is either disabled, for its template lacks slots, or has for every document the
page of it or an error; its further pages are about the documents that have pages (`renderFormats_fit`).  With a clock
that always shows the same, or nothing, the pages depend on the documents alone (`renderFormats_steady`).
-/

namespace SourceDoc

/-- The page of a document at a time, as it is stored. -/
def Renderer.documentAt (r : Renderer) (now : Text) (d : Document) : Artifact :=
  ⟨outputName d.path r.format.extension, r.documentPage now d⟩

/-- The index of some documents at a time, as it is stored. -/
def Renderer.indexAt (r : Renderer) (now : Text) (ds : List Document) : Artifact :=
  ⟨"index.".toList ++ r.format.extension, r.indexPage now ds⟩

/-- The page that combines some documents at a time, as it is stored. -/
def Renderer.combinedAt (now : Text) (ds : List Document) : Artifact :=
  ⟨JsonPage.combinedName, JsonPage.combinedPage now ds⟩

/-- The pages about some documents, each at a time of its own. -/
def Renderer.extraAt (r : Renderer) (isCombined : Bool) (now later : Text) (ds : List Document) : List Artifact :=
  r.indexAt now ds :: if isCombined && r.format = .json then [Renderer.combinedAt later ds] else []

/-- The outcome is that of a format whose documents are given. -/
inductive FormatOutcome.Fits (r : Renderer) (isCombined : Bool) (ds : List Document) : FormatOutcome → Prop where
  /-- Every document has its page or an error; there are further pages exactly if there are pages. -/
  | pages (p : Pages) (hmissing : r.missing = []) (hformat : p.format = r.format)
      (hdocuments : p.pages.map Prod.fst = ds)
      (hpages : ∀ d a, (d, .ok a) ∈ p.pages → ∃ now, a = r.documentAt now d)
      (hextra : (p.rendered = [] ∧ p.extra = []) ∨
        p.rendered ≠ [] ∧ ∃ now later, p.extra = r.extraAt isCombined now later p.rendered) :
      Fits r isCombined ds (.pages p)
  | disabled (hmissing : r.missing ≠ []) : Fits r isCombined ds (.disabled r.format (.missingSlots r.missing))

namespace Renderer

variable (r : Renderer)

/-! ## Any clock -/

theorem renderDocument_cases (hm : r.missing = []) (d : Document) (c : Clock) :
    (∃ now, (r.renderDocument d c).1 = .ok (r.documentAt now d)) ∨
      (r.renderDocument d c).1 = .error .clockStopped := by
  unfold renderDocument timed
  rw [hm]
  cases h : c.read.1 with
  | some now => exact .inl ⟨now, by simp only [h]; rfl⟩
  | none => exact .inr (by simp only [h])

/-- Every document has its page or an error, in the order of the documents. -/
theorem renderEach_documents (ds : List Document) (c : Clock) : (r.renderEach ds c).1.map Prod.fst = ds := by
  induction ds generalizing c with
  | nil => rfl
  | cons d rest ih =>
    simp only [renderEach, List.map_cons]
    rw [ih]

theorem renderEach_pages (hm : r.missing = []) (ds : List Document) (c : Clock) (d : Document) (a : Artifact)
    (h : (d, .ok a) ∈ (r.renderEach ds c).1) : ∃ now, a = r.documentAt now d := by
  induction ds generalizing c with
  | nil => cases h
  | cons d' rest ih =>
    simp only [renderEach] at h
    rcases List.mem_cons.mp h with he | h
    · obtain ⟨rfl, ha⟩ := Prod.mk.inj he
      rcases r.renderDocument_cases hm d c with ⟨now, hn⟩ | hn
      · rw [hn] at ha
        exact ⟨now, by cases ha; rfl⟩
      · rw [hn] at ha
        cases ha
    · exact ih _ h

/-- The further pages are about documents that are there. -/
theorem renderExtra_ok (isCombined : Bool) (ds : List Document) (c : Clock) (extra : List Artifact)
    (h : (r.renderExtra isCombined ds c).1 = .ok extra) :
    (ds = [] ∧ extra = []) ∨ ds ≠ [] ∧ ∃ now later, extra = r.extraAt isCombined now later ds := by
  unfold renderExtra at h
  by_cases hds : ds = []
  · rw [if_pos hds] at h
    cases h
    exact .inl ⟨hds, rfl⟩
  · refine .inr ⟨hds, ?_⟩
    rw [if_neg hds] at h
    unfold renderIndex renderCombined timed at h
    cases hnow : c.read.1 with
    | none =>
      simp only [hnow] at h
      cases h
    | some now =>
      simp only [hnow] at h
      by_cases hc : (isCombined && r.format = .json) = true
      · cases hlater : c.read.2.read.1 with
        | none =>
          simp only [hc, hlater, if_true] at h
          cases h
        | some later =>
          simp only [hc, hlater, if_true] at h
          cases h
          exact ⟨now, later, by simp only [extraAt, hc, if_true]; rfl⟩
      · simp only [hc] at h
        cases h
        exact ⟨now, now, by simp only [extraAt, hc]; rfl⟩

theorem renderFormat_fits (isCombined : Bool) (ds : List Document) (c : Clock) (outcome : FormatOutcome)
    (h : (r.renderFormat isCombined ds c).1 = .ok outcome) : outcome.Fits r isCombined ds := by
  unfold renderFormat at h
  cases hm : r.missing with
  | nil =>
    simp only [hm] at h
    cases he : (r.renderExtra isCombined (Pages.rendered ⟨r.format, (r.renderEach ds c).1, []⟩)
        (r.renderEach ds c).2).1 with
    | error e =>
      rw [he] at h
      cases h
    | ok extra =>
      rw [he] at h
      cases h
      exact .pages _ hm rfl (r.renderEach_documents ds c) (r.renderEach_pages hm ds c)
        (r.renderExtra_ok isCombined _ _ extra he)
  | cons slot slots =>
    simp only [hm] at h
    cases h
    rw [← hm]
    exact .disabled (by simp [hm])

end Renderer

/-- **Every format of a run is disabled or has its pages,** in the order of the formats. -/
theorem renderFormats_fit (template? : Option Text) (isCombined : Bool) (ds : List Document) (fs : List Format)
    (c : Clock) (outcomes : List FormatOutcome) (h : renderFormats template? isCombined ds fs c = .ok outcomes) :
    List.Forall₂ (fun f outcome => FormatOutcome.Fits ⟨f, template?⟩ isCombined ds outcome) fs outcomes := by
  induction fs generalizing c outcomes with
  | nil =>
    cases h
    exact .nil
  | cons f rest ih =>
    unfold renderFormats at h
    split at h
    · cases h
    · rename_i outcome c' hf
      cases hrest : renderFormats template? isCombined ds rest c' with
      | error e =>
        rw [hrest] at h
        cases h
      | ok more =>
        rw [hrest] at h
        cases h
        refine .cons ?_ (ih c' more hrest)
        exact Renderer.renderFormat_fits ⟨f, template?⟩ isCombined ds c outcome (by rw [hf])

/-! ## A clock that stands still -/

/-- The clock always shows the same, or always fails. -/
def Clock.IsSteady (c : Clock) (now? : Option Text) : Prop := ∀ n, c.reading n = now?

theorem Clock.IsSteady.read_fst {c : Clock} {now? : Option Text} (h : c.IsSteady now?) : c.read.1 = now? :=
  h (c.count + 1)

theorem Clock.IsSteady.read_snd {c : Clock} {now? : Option Text} (h : c.IsSteady now?) : c.read.2.IsSteady now? := h

namespace Renderer

variable (r : Renderer)

/-- The page of a document, or the error where the clock fails. -/
def pageAt (now? : Option Text) (d : Document) : Except RenderError Artifact :=
  match now? with
  | some now => .ok (r.documentAt now d)
  | none => .error .clockStopped

/-- The further pages: where the clock fails there are none, as there are none without documents. -/
def extrasAt (isCombined : Bool) (now? : Option Text) (ds : List Document) : List Artifact :=
  match now? with
  | some now => if ds = [] then [] else r.extraAt isCombined now now ds
  | none => []

/-- What becomes of the format. -/
def formatAt (isCombined : Bool) (now? : Option Text) (ds : List Document) : FormatOutcome :=
  if r.missing = [] then
    .pages ⟨r.format, ds.map fun d => (d, r.pageAt now? d), r.extrasAt isCombined now? ds⟩
  else .disabled r.format (.missingSlots r.missing)

variable (hm : r.missing = []) (now? : Option Text) (c : Clock) (hc : c.IsSteady now?)

include hm hc

theorem renderDocument_steady (d : Document) :
    (r.renderDocument d c).1 = r.pageAt now? d ∧ (r.renderDocument d c).2.IsSteady now? := by
  unfold renderDocument timed pageAt
  rw [hm]
  cases now? with
  | some now =>
    simp only [hc.read_fst]
    exact ⟨rfl, hc.read_snd⟩
  | none =>
    simp only [hc.read_fst]
    exact ⟨trivial, hc.read_snd⟩

theorem renderEach_steady (ds : List Document) :
    (r.renderEach ds c).1 = ds.map (fun d => (d, r.pageAt now? d)) ∧ (r.renderEach ds c).2.IsSteady now? := by
  induction ds generalizing c with
  | nil => exact ⟨rfl, hc⟩
  | cons d rest ih =>
    obtain ⟨hd, hc'⟩ := r.renderDocument_steady hm now? c hc d
    obtain ⟨hrest, hc''⟩ := ih _ hc'
    refine ⟨?_, hc''⟩
    simp only [renderEach, List.map_cons]
    rw [hd, hrest]

omit hm in
/-- Where the clock does not fail, the documents with pages are all documents. -/
theorem renderExtra_steady (isCombined : Bool) (ds : List Document) :
    (r.renderExtra isCombined (Pages.rendered ⟨r.format, ds.map fun d => (d, r.pageAt now? d), []⟩) c).1 =
        .ok (r.extrasAt isCombined now? ds) ∧
      (r.renderExtra isCombined (Pages.rendered ⟨r.format, ds.map fun d => (d, r.pageAt now? d), []⟩) c).2.IsSteady
        now? := by
  cases now? with
  | none =>
    have hnone : Pages.rendered ⟨r.format, ds.map fun d => (d, r.pageAt none d), []⟩ = [] := by
      simp [Pages.rendered, pageAt, Except.isOk, Except.toBool]
    rw [hnone]
    exact ⟨rfl, hc⟩
  | some now =>
    have hall : Pages.rendered ⟨r.format, ds.map fun d => (d, r.pageAt (some now) d), []⟩ = ds := by
      unfold Pages.rendered
      rw [List.filter_eq_self.mpr]
      · simp [Function.comp_def]
      · intro p hp
        obtain ⟨d, -, rfl⟩ := List.mem_map.mp hp
        rfl
    rw [hall]
    unfold renderExtra extrasAt renderIndex renderCombined timed
    by_cases hds : ds = []
    · simp only [hds, if_true]
      exact ⟨trivial, hc⟩
    · simp only [hds, if_false, hc.read_fst]
      by_cases hcombined : (isCombined && r.format = .json) = true
      · simp only [hcombined, if_true, hc.read_snd.read_fst]
        exact ⟨by simp only [extraAt, hcombined, if_true]; rfl, hc⟩
      · simp only [hcombined]
        exact ⟨by simp only [extraAt, hcombined]; rfl, hc⟩

omit hm in
theorem renderFormat_steady (isCombined : Bool) (ds : List Document) :
    (r.renderFormat isCombined ds c).1 = .ok (r.formatAt isCombined now? ds) ∧
      (r.renderFormat isCombined ds c).2.IsSteady now? := by
  unfold renderFormat formatAt
  cases hm : r.missing with
  | nil =>
    obtain ⟨hpages, hc'⟩ := r.renderEach_steady hm now? c hc ds
    obtain ⟨hextra, hc''⟩ := r.renderExtra_steady now? _ hc' isCombined ds
    simp only [hpages]
    refine ⟨?_, hc''⟩
    rw [hextra, if_pos trivial]
    rfl
  | cons slot slots => exact ⟨by rw [if_neg (by simp)], hc⟩

end Renderer

/-- **With a clock that stands still every run has its pages,** which depend on the documents alone. -/
theorem renderFormats_steady (template? : Option Text) (isCombined : Bool) (now? : Option Text) (ds : List Document)
    (fs : List Format) (c : Clock) (hc : c.IsSteady now?) :
    renderFormats template? isCombined ds fs c =
      .ok (fs.map fun f => Renderer.formatAt ⟨f, template?⟩ isCombined now? ds) := by
  induction fs generalizing c with
  | nil => rfl
  | cons f rest ih =>
    obtain ⟨hf, hc'⟩ := Renderer.renderFormat_steady ⟨f, template?⟩ now? c hc isCombined ds
    unfold renderFormats
    cases h : Renderer.renderFormat ⟨f, template?⟩ isCombined ds c with
    | mk outcome c' =>
      rw [h] at hf hc'
      simp only at hf hc'
      simp only [hf]
      rw [ih c' hc']
      rfl

end SourceDoc
