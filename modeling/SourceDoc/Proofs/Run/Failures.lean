import SourceDoc.Proofs.Run.Readings
import SourceDoc.Proofs.Run.Account
import SourceDoc.Proofs.Run.Steady
import SourceDoc.Run.Trace

/-!
# What a run makes of failures

A run that can be made has a report exactly if the clock shows the time for every page about all documents, and the
report records every other failure, of a file, a format or a page.  A run that cannot be made does nothing
(`run_failures`).
-/

namespace SourceDoc

/-! ## Refusals -/

/-- There are files and formats, all of them known. -/
structure RunOptions.CanRun (o : RunOptions) (sources : List SourceFile) : Prop where
  sources_ne : sources ≠ []
  formats_ne : o.formats ≠ []
  known : ∀ name ∈ o.formats, (Format.ofName? name).isSome

/-- The reason why a run cannot be made: of several unknown formats the first one. -/
inductive RunOptions.Refuses (o : RunOptions) (sources : List SourceFile) : RunError → Prop where
  | noSources (hs : sources = []) : Refuses o sources .noSources
  | noFormats (hs : sources ≠ []) (hf : o.formats = []) : Refuses o sources .noFormats
  | badFormat (known : List Text) (name : Text) (rest : List Text) (hs : sources ≠ [])
      (hf : o.formats = known ++ name :: rest) (hknown : ∀ n ∈ known, (Format.ofName? n).isSome)
      (hname : Format.ofName? name = none) : Refuses o sources (.badFormat name)

theorem Format.mapM_named_error {names : List Text} {e : RunError} (h : names.mapM Format.named = .error e) :
    ∃ known name rest, names = known ++ name :: rest ∧ (∀ n ∈ known, (Format.ofName? n).isSome) ∧
      Format.ofName? name = none ∧ e = .badFormat name := by
  induction names with
  | nil => cases h
  | cons name rest ih =>
    rw [List.mapM_cons] at h
    cases hname : Format.ofName? name with
    | none =>
      simp only [Format.named, hname] at h
      cases h
      exact ⟨[], name, rest, rfl, List.forall_mem_nil _, hname, rfl⟩
    | some f =>
      simp only [Format.named, hname, bind, Except.bind] at h
      cases hrest : rest.mapM Format.named with
      | ok fs =>
        rw [hrest] at h
        cases h
      | error e' =>
        rw [hrest] at h
        cases h
        obtain ⟨known, bad, more, rfl, hknown, hbad, he⟩ := ih hrest
        exact ⟨name :: known, bad, more, rfl, List.forall_mem_cons.mpr ⟨by rw [hname]; rfl, hknown⟩, hbad, he⟩

namespace RunOptions

variable (o : RunOptions) (sources : List SourceFile)

theorem resolved_of_canRun (h : o.CanRun sources) : o.resolved sources = .ok o.requested :=
  (o.resolved_eq_ok_iff sources _).mpr ⟨h.sources_ne, h.formats_ne, h.known, rfl⟩

theorem resolved_of_not_canRun (h : ¬ o.CanRun sources) :
    ∃ e, o.resolved sources = .error e ∧ o.Refuses sources e := by
  unfold resolved
  by_cases hs : sources = []
  · exact ⟨_, if_pos hs, .noSources hs⟩
  · rw [if_neg hs]
    by_cases hf : o.formats = []
    · exact ⟨_, if_pos hf, .noFormats hs hf⟩
    · rw [if_neg hf, Format.resolve]
      cases hm : o.formats.mapM Format.named with
      | ok fs => exact absurd ⟨hs, hf, ((Format.mapM_named _ _).mp hm).1⟩ h
      | error e =>
        obtain ⟨known, name, rest, hnames, hknown, hname, rfl⟩ := Format.mapM_named_error hm
        exact ⟨_, rfl, .badFormat known name rest hs hnames hknown hname⟩

/-- The formats that have pages, with the readings before theirs, where there are `n` documents. -/
def readingStarts (n : Nat) : List (Format × Nat) :=
  SourceDoc.readingStarts o.template? o.isCombined o.clock.reading n o.requested o.clock.count

/-- The clock shows the time for every page about all `n` documents. -/
def ShowsIndexes (n : Nat) : Prop := SourceDoc.ShowsIndexes o.isCombined o.clock.reading n (o.readingStarts n)

/-- A clock that never fails shows the time for all of them. -/
theorem showsIndexes_of_isSome (h : ∀ k, (o.clock.reading k).isSome) (n : Nat) : o.ShowsIndexes n :=
  fun _ _ _ _ => h _

end RunOptions

/-! ## Files -/

/-- What goes wrong with a source file. -/
inductive Trouble where
  /-- There is no outline of it. -/
  | outline (e : ExtractError)
  /-- There is no prose about its outline. -/
  | prose (o : Outline) (e : ProseError)

namespace Trouble

/-- Why the file is left out, if it is. -/
def reason? : Trouble → Option Text
  | outline (.failed cause) => some cause.reason
  | outline e => some e.reason
  | prose _ e => if e.isReported then none else some e.crashMessage

/-- The path in the document without prose and the reason in it, if there is a document. -/
def proseError? : Trouble → Option (Text × Text)
  | outline _ => none
  | prose o e => if e.isReported then some (o.path, e.message) else none

end Trouble

namespace Workshop

variable {σ : Type} (w : Workshop σ)

/-- What goes wrong with a file, if anything does. -/
def trouble? (f : SourceFile) (s : σ) : Option Trouble :=
  match w.registry.extract f.path f.text with
  | .error e => some (.outline e)
  | .ok outline =>
    match (w.provide outline.normalize s).1.prose with
    | .ok _ => none
    | .error e => some (.prose outline.normalize e)

/-- The files with which something goes wrong. -/
def troubles : List SourceFile → σ → List (SourceFile × Trouble)
  | [], _ => []
  | f :: rest, s => (w.trouble? f s).toList.map (f, ·) ++ troubles rest (w.document f s).2

end Workshop

/-- The entry of a file that is left out. -/
def Outcome.skip? (o : Outcome) : Option (Text × Text) := o.reason?.map fun reason => (o.path, reason)

/-- The entry of a document without prose. -/
def Document.proseEntry? (d : Document) : Option (Text × Text) := d.proseError.map fun reason => (d.path, reason)

/-- The entry of a file that trouble leaves out. -/
def Trouble.skip? (f : SourceFile) (t : Trouble) : Option (Text × Text) :=
  t.reason?.map fun reason => (f.path, Outcome.reported reason)

namespace Workshop

variable {σ : Type} (w : Workshop σ)

/-- The trouble with a file is in its outcome. -/
theorem document_trouble (f : SourceFile) (s : σ) :
    (w.document f s).1.1.skip? = (w.trouble? f s).bind (Trouble.skip? f) ∧
      ((w.document f s).1.1.document?).bind Document.proseEntry? = (w.trouble? f s).bind Trouble.proseError? := by
  unfold trouble?
  rcases w.document_cases f s with ⟨o, hx, ho, -⟩ | ⟨cause, hx, hc⟩ | ⟨e, hx, hne, he⟩
  · rw [hx, ho]
    simp only
    cases (w.provide o.normalize s).1.prose with
    | ok prose => exact ⟨rfl, rfl⟩
    | error e =>
      unfold withProse
      by_cases hreported : e.isReported = true
      · simp only [hreported, if_true, Option.bind_some, Trouble.skip?, Trouble.reason?, Trouble.proseError?]
        exact ⟨rfl, rfl⟩
      · simp only [hreported, Option.bind_some, Trouble.skip?, Trouble.reason?, Trouble.proseError?]
        exact ⟨rfl, rfl⟩
  · rw [hx, hc]
    exact ⟨rfl, rfl⟩
  · rw [hx, he]
    cases e with
    | failed cause => exact absurd rfl (hne cause)
    | malformed m => exact ⟨rfl, rfl⟩
    | unsupported path extension => exact ⟨rfl, rfl⟩

/-- How many documents are made of some files. -/
def documentCount (sources : List SourceFile) (s : σ) : Nat :=
  ((w.documentAll sources s).1.1.filterMap Outcome.document?).length

theorem length_documents (sources : List SourceFile) (s : σ) (formats : List FormatOutcome) :
    (Report.documents ⟨w.pool.arrange (w.documentAll sources s).1.1, formats⟩).length = w.documentCount sources s := by
  unfold Report.documents documentCount
  rw [Text.length_sortOn]
  exact ((w.pool.arrange_perm _).filterMap _).length_eq

/-- What the trouble with each file puts into its outcome, the troubles put into the outcomes. -/
theorem filterMap_documentAll {γ : Type} (entry : Outcome → Option γ) (ofTrouble : SourceFile → Trouble → Option γ)
    (h : ∀ f s, entry (w.document f s).1.1 = (w.trouble? f s).bind (ofTrouble f)) (sources : List SourceFile) (s : σ) :
    (w.documentAll sources s).1.1.filterMap entry = (w.troubles sources s).filterMap fun x => ofTrouble x.1 x.2 := by
  induction sources generalizing s with
  | nil => rfl
  | cons f rest ih =>
    have hone := h f s
    simp only [documentAll_cons, troubles, List.filterMap_append, ← ih]
    rw [List.filterMap_cons, hone]
    cases w.trouble? f s with
    | none => rfl
    | some t => cases ht : ofTrouble f t <;> simp [ht]

end Workshop

/-! ## Records -/

theorem Pages.mem_failures_iff (p : Pages) {d : Document} {e : RenderError} :
    (d, e) ∈ p.failures ↔ (d, .error e) ∈ p.pages := by
  unfold failures
  rw [List.mem_filterMap]
  constructor
  · rintro ⟨⟨d', page⟩, hm, he⟩
    cases page with
    | ok a => cases he
    | error e' =>
      cases he
      exact hm
  · exact fun hm => ⟨_, hm, rfl⟩

theorem Report.mem_renderErrors_iff_pages (r : Report) (d : Document) (f : Format) (e : RenderError) :
    (d, f, e) ∈ r.renderErrors ↔ ∃ p, .pages p ∈ r.formats ∧ p.format = f ∧ (d, .error e) ∈ p.pages := by
  unfold Report.renderErrors
  rw [List.mem_flatMap]
  constructor
  · rintro ⟨outcome, houtcome, hm⟩
    cases outcome with
    | disabled format e => cases hm
    | pages p =>
      obtain ⟨⟨d', e'⟩, hfailure, he⟩ := List.mem_map.mp hm
      cases he
      exact ⟨p, houtcome, rfl, p.mem_failures_iff.mp hfailure⟩
  · rintro ⟨p, hp, rfl, hpage⟩
    exact ⟨_, hp, List.mem_map.mpr ⟨(d, e), p.mem_failures_iff.mpr hpage, rfl⟩⟩

theorem Renderer.mem_pagesFrom_error (r : Renderer) (reading : Nat → Option Text) (start : Nat) (ds : List Document)
    (d : Document) (e : RenderError) :
    (d, .error e) ∈ r.pagesFrom reading start ds ↔
      ∃ i, ds[i]? = some d ∧ reading (start + i + 1) = none ∧ e = .clockStopped := by
  unfold pagesFrom
  rw [List.mem_mapIdx]
  constructor
  · rintro ⟨i, hi, he⟩
    obtain ⟨rfl, hpage⟩ := Prod.mk.inj he
    cases hnow : reading (start + i + 1) with
    | some now =>
      rw [hnow] at hpage
      cases hpage
    | none =>
      rw [hnow] at hpage
      cases hpage
      exact ⟨i, List.getElem?_eq_getElem hi, hnow, rfl⟩
  · rintro ⟨i, hi, hnone, rfl⟩
    obtain ⟨hlt, rfl⟩ := List.getElem?_eq_some_iff.mp hi
    exact ⟨i, hlt, by rw [hnone]; rfl⟩

/-- A report records everything that goes wrong with a file, a format or a page. -/
structure Report.Records {σ : Type} (r : Report) (w : Workshop σ) (o : RunOptions) (sources : List SourceFile) (s : σ) :
    Prop where
  skipped : r.skipped.Perm ((w.troubles sources s).filterMap fun x => x.2.skip? x.1)
  proseErrors : (r.documents.filterMap Document.proseEntry?).Perm
    ((w.troubles sources s).filterMap fun x => x.2.proseError?)
  formatErrors : ∀ f e, (f, e) ∈ r.formatErrors ↔
    f ∈ o.requested ∧ Renderer.missing ⟨f, o.template?⟩ ≠ [] ∧ e = .missingSlots (Renderer.missing ⟨f, o.template?⟩)
  /-- The page of the `i`th document fails with the reading for it. -/
  renderErrors : ∀ d f e, (d, f, e) ∈ r.renderErrors ↔
    ∃ start i, (f, start) ∈ o.readingStarts r.succeeded ∧ r.documents[i]? = some d ∧
      o.clock.reading (start + i + 1) = none ∧ e = .clockStopped

namespace Workshop.Ran

variable {σ : Type} {w : Workshop σ} {o : RunOptions} {sources : List SourceFile} {s : σ} {r : Report}
  {notes : List Note}

theorem mem_formatErrors_iff (h : w.Ran o sources s r notes) (f : Format) (e : RenderError) :
    (f, e) ∈ r.formatErrors ↔ f ∈ o.requested ∧ Renderer.missing ⟨f, o.template?⟩ ≠ [] ∧
      e = .missingSlots (Renderer.missing ⟨f, o.template?⟩) := by
  rw [r.mem_formatErrors_iff, ← h.format_eq]
  constructor
  · intro hm
    exact ⟨List.mem_map.mpr ⟨_, hm, rfl⟩, (h.fits _ hm).of_disabled⟩
  · rintro ⟨hf, hmissing, rfl⟩
    obtain ⟨outcome, hm, rfl⟩ := List.mem_map.mp hf
    have hfits := h.fits outcome hm
    cases outcome with
    | pages p =>
      cases hfits with
      | pages p hmissing' => exact absurd hmissing' hmissing
    | disabled f e =>
      rw [← hfits.of_disabled.2]
      exact hm

theorem skipped_perm (h : w.Ran o sources s r notes) :
    r.skipped.Perm ((w.troubles sources s).filterMap fun x => x.2.skip? x.1) := by
  rw [← w.filterMap_documentAll Outcome.skip? Trouble.skip? (fun f s => (w.document_trouble f s).1) sources s]
  refine (Text.sortOn_perm Prod.fst _).trans ?_
  rw [h.outcomes]
  exact (w.pool.arrange_perm _).filterMap _

theorem proseErrors_perm (h : w.Ran o sources s r notes) :
    (r.documents.filterMap Document.proseEntry?).Perm ((w.troubles sources s).filterMap fun x => x.2.proseError?) := by
  rw [← w.filterMap_documentAll (fun o => o.document?.bind Document.proseEntry?) (fun _ => Trouble.proseError?)
    (fun f s => (w.document_trouble f s).2) sources s, ← List.filterMap_filterMap]
  refine ((Text.sortOn_perm Document.path _).filterMap _).trans ?_
  rw [h.outcomes]
  exact ((w.pool.arrange_perm _).filterMap _).filterMap _

/-- The pages of a run are those of its readings. -/
theorem pages_eq (h : w.Ran o sources s r notes) :
    ((r.formats.filterMap FormatOutcome.pages?).map fun p => (p.format, p.pages)) =
      (o.readingStarts r.succeeded).map fun x =>
        (x.1, Renderer.pagesFrom ⟨x.1, o.template?⟩ o.clock.reading x.2 r.documents) := by
  rcases renderFormats_cases o.template? o.isCombined r.documents o.requested o.clock _ rfl with
    ⟨-, outcomes, houtcomes, hpages⟩ | ⟨-, herror⟩
  · rw [h.formats] at houtcomes
    cases houtcomes
    exact hpages
  · rw [h.formats] at herror
    cases herror

theorem mem_renderErrors_iff (h : w.Ran o sources s r notes) (d : Document) (f : Format) (e : RenderError) :
    (d, f, e) ∈ r.renderErrors ↔ ∃ start i, (f, start) ∈ o.readingStarts r.succeeded ∧ r.documents[i]? = some d ∧
      o.clock.reading (start + i + 1) = none ∧ e = .clockStopped := by
  rw [r.mem_renderErrors_iff_pages]
  constructor
  · rintro ⟨p, hp, rfl, herror⟩
    have hm : (p.format, p.pages) ∈ (r.formats.filterMap FormatOutcome.pages?).map fun p => (p.format, p.pages) :=
      List.mem_map.mpr ⟨p, List.mem_filterMap.mpr ⟨_, hp, rfl⟩, rfl⟩
    rw [h.pages_eq] at hm
    obtain ⟨⟨f, start⟩, hstart, he⟩ := List.mem_map.mp hm
    obtain ⟨hf, hpages⟩ := Prod.mk.inj he
    simp only at hf hpages
    rw [← hpages, Renderer.mem_pagesFrom_error] at herror
    obtain ⟨i, hi, hnone, rfl⟩ := herror
    exact ⟨start, i, hf ▸ hstart, hi, hnone, rfl⟩
  · rintro ⟨start, i, hstart, hi, hnone, rfl⟩
    have hm : (f, Renderer.pagesFrom ⟨f, o.template?⟩ o.clock.reading start r.documents) ∈
        (r.formats.filterMap FormatOutcome.pages?).map fun p => (p.format, p.pages) := by
      rw [h.pages_eq]
      exact List.mem_map.mpr ⟨_, hstart, rfl⟩
    obtain ⟨p, hp, he⟩ := List.mem_map.mp hm
    obtain ⟨hformat, hpages⟩ := Prod.mk.inj he
    obtain ⟨outcome, houtcome, hsome⟩ := List.mem_filterMap.mp hp
    cases outcome with
    | disabled format e => cases hsome
    | pages q =>
      cases hsome
      exact ⟨p, houtcome, hformat, hpages ▸ (Renderer.mem_pagesFrom_error _ _ _ _ _ _).mpr ⟨i, hi, hnone, rfl⟩⟩

theorem records (h : w.Ran o sources s r notes) : r.Records w o sources s :=
  ⟨h.skipped_perm, h.proseErrors_perm, h.mem_formatErrors_iff, h.mem_renderErrors_iff⟩

end Workshop.Ran

/-! ## The run -/

section

variable {σ : Type} (w : Workshop σ) (o : RunOptions) (sources : List SourceFile) (s : σ)

/-- A run that can be made is one that has a report, or one whose indexes the clock does not let be written. -/
theorem Workshop.run_of_canRun (h : o.CanRun sources) :
    (o.ShowsIndexes (w.documentCount sources s) ∧ ∃ r notes, (w.run o sources s).1 = .ok (r, notes)) ∨
      (¬ o.ShowsIndexes (w.documentCount sources s) ∧ (w.run o sources s).1 = .error (.noIndex .clockStopped)) := by
  unfold run RunOptions.ShowsIndexes RunOptions.readingStarts
  rw [o.resolved_of_canRun sources h, ← w.length_documents sources s []]
  rcases renderFormats_cases o.template? o.isCombined
      (Report.documents ⟨w.pool.arrange (w.documentAll sources s).1.1, []⟩) o.requested o.clock _ rfl with
    ⟨hshows, outcomes, houtcomes, -⟩ | ⟨hnot, herror⟩
  · exact .inl ⟨hshows, _, _, by simp only [houtcomes]; rfl⟩
  · exact .inr ⟨hnot, by simp only [herror]⟩

theorem Workshop.run_of_not_canRun (h : ¬ o.CanRun sources) :
    ∃ e, o.Refuses sources e ∧ w.run o sources s = (.error e, s) ∧ w.acts o sources s = [] := by
  obtain ⟨e, he, hrefuses⟩ := o.resolved_of_not_canRun sources h
  refine ⟨e, hrefuses, ?_, ?_⟩
  · unfold run
    rw [he]
  · unfold acts
    rw [he]

end

/-! ## What is done -/

theorem formatNotes_of_ok (template? : Option Text) (isCombined : Bool) (ds : List Document) (fs : List Format)
    (c : Clock) (outcomes : List FormatOutcome) (h : renderFormats template? isCombined ds fs c = .ok outcomes) :
    formatNotes template? isCombined ds fs c = outcomes.flatMap FormatOutcome.notes := by
  induction fs generalizing c outcomes with
  | nil =>
    cases h
    rfl
  | cons f rest ih =>
    rcases hf : Renderer.renderFormat ⟨f, template?⟩ isCombined ds c with ⟨e | outcome, c'⟩
    · rw [renderFormats_of_error rest (congrArg Prod.fst hf)] at h
      cases h
    · rw [renderFormats_of_ok rest hf] at h
      cases hrest : renderFormats template? isCombined ds rest c' with
      | error e =>
        rw [hrest] at h
        cases h
      | ok more =>
        rw [hrest] at h
        cases h
        rw [formatNotes, hf, List.flatMap_cons, ← ih c' more hrest]

@[simp] theorem Act.told_tell (notes : List Note) : (notes.map Act.tell).filterMap Act.told? = notes := by
  simp [List.filterMap_map, Function.comp_def, Act.told?]

@[simp] theorem Act.extracted_tell (notes : List Note) : (notes.map Act.tell).filterMap Act.extracted? = [] := by
  simp [List.filterMap_map, Function.comp_def, Act.extracted?]

namespace Workshop

variable {σ : Type} (w : Workshop σ)

theorem told_documentActs (sources : List SourceFile) (s : σ) :
    (w.documentActs sources s).filterMap Act.told? = (w.documentAll sources s).1.2 := by
  induction sources generalizing s with
  | nil => rfl
  | cons f rest ih =>
    simp only [documentActs, documentAll_cons, List.cons_append, ← ih]
    rw [List.filterMap_cons, List.filterMap_append, Act.told_tell]
    rfl

theorem extracted_documentActs (sources : List SourceFile) (s : σ) :
    (w.documentActs sources s).filterMap Act.extracted? = sources := by
  induction sources generalizing s with
  | nil => rfl
  | cons f rest ih =>
    simp only [documentActs, List.cons_append]
    rw [List.filterMap_cons, List.filterMap_append, Act.extracted_tell, ih]
    rfl

/-- A run that can be made has every file extracted, in order, also if it breaks off. -/
theorem extracted_acts (o : RunOptions) (sources : List SourceFile) (s : σ) (h : o.CanRun sources) :
    (w.acts o sources s).filterMap Act.extracted? = sources := by
  unfold acts
  rw [o.resolved_of_canRun sources h]
  simp only [List.cons_append]
  rw [List.filterMap_cons, List.filterMap_append, extracted_documentActs, Act.extracted_tell, List.append_nil]
  rfl

/-- A run that has a report tells all its notes. -/
theorem Ran.told_acts {o : RunOptions} {sources : List SourceFile} {s : σ} {r : Report} {notes : List Note}
    (h : w.Ran o sources s r notes) : (w.acts o sources s).filterMap Act.told? = notes := by
  have hcan : o.CanRun sources := ⟨h.sources_ne, h.formats_ne, h.known⟩
  have hrendered : renderFormats o.template? o.isCombined
      (Report.documents ⟨w.pool.arrange (w.documentAll sources s).1.1, []⟩) o.requested o.clock = .ok r.formats := by
    rw [← h.formats, Report.documents, Report.documents, h.outcomes]
  unfold acts
  rw [o.resolved_of_canRun sources hcan]
  simp only [hrendered, List.cons_append]
  rw [List.filterMap_cons, List.filterMap_append, told_documentActs, Act.told_tell,
    formatNotes_of_ok _ _ _ _ _ _ hrendered, h.notes, ← h.outcomes]
  simp only [Act.told?, List.cons_append, List.append_assoc]

/-- **Only a bad request, or a clock that fails where an index is written, keeps a run from its report.**  A run that
can be made has a report exactly if the clock shows the time for every page about all documents; the report records
every other failure, and only what fails.  A run that cannot be made is refused before anything is done. -/
theorem run_failures (w : Workshop σ) (o : RunOptions) (sources : List SourceFile) (s : σ) :
    (o.CanRun sources →
      ((∃ r notes, (w.run o sources s).1 = .ok (r, notes)) ↔ o.ShowsIndexes (w.documentCount sources s)) ∧
      (¬ o.ShowsIndexes (w.documentCount sources s) → (w.run o sources s).1 = .error (.noIndex .clockStopped)) ∧
      (w.acts o sources s).filterMap Act.extracted? = sources ∧
      ∀ r notes, (w.run o sources s).1 = .ok (r, notes) →
        r.Records w o sources s ∧ (w.acts o sources s).filterMap Act.told? = notes) ∧
    (¬ o.CanRun sources →
      ∃ e, o.Refuses sources e ∧ w.run o sources s = (.error e, s) ∧ w.acts o sources s = []) := by
  refine ⟨fun h => ⟨?_, fun hnot => ?_, w.extracted_acts o sources s h, fun r notes hrun => ?_⟩,
    w.run_of_not_canRun o sources s⟩
  · rcases w.run_of_canRun o sources s h with ⟨hshows, hreport⟩ | ⟨hnot, herror⟩
    · exact iff_of_true hreport hshows
    · exact iff_of_false (by simp [herror]) hnot
  · rcases w.run_of_canRun o sources s h with ⟨hshows, -⟩ | ⟨-, herror⟩
    · exact absurd hshows hnot
    · exact herror
  · have hran := (w.run_eq_ok_iff o sources s r notes).mp hrun
    exact ⟨hran.records, hran.told_acts⟩

end Workshop

namespace Sample

/-- The clock fails when the page of the first file is written, and at no index. -/
def haltingOptions : RunOptions where
  formats := ["markdown".toList, "html".toList]
  template? := some []
  clock := { reading := fun k => if k = 1 then none else some "now".toList }

end Sample

theorem run_failures_sample : Sample.haltingOptions.CanRun Sample.sources ∧
    ∃ r notes, (Sample.workshop.run Sample.haltingOptions Sample.sources ()).1 = .ok (r, notes) ∧
      r.Records Sample.workshop Sample.haltingOptions Sample.sources () := by
  obtain ⟨hrun, -⟩ := Workshop.run_failures Sample.workshop Sample.haltingOptions Sample.sources ()
  have hcan : Sample.haltingOptions.CanRun Sample.sources :=
    ⟨by simp [Sample.sources], by simp [Sample.haltingOptions], by decide⟩
  obtain ⟨hreport, -, -, hrecords⟩ := hrun hcan
  have hshows : Sample.haltingOptions.ShowsIndexes (Sample.workshop.documentCount Sample.sources ()) := by
    unfold RunOptions.ShowsIndexes
    decide
  obtain ⟨r, notes, hr⟩ := hreport.mpr hshows
  exact ⟨hcan, r, notes, hr, (hrecords r notes hr).1⟩

/-- A clock that fails where the index is written ends a run, although the page of the file is there. -/
theorem run_noIndex : [SourceFile.mk "a.txt".toList []] ≠ [] ∧ Format.ofName? "markdown".toList = some .markdown ∧
    (Sample.workshop.run
      { formats := ["markdown".toList]
        clock := { reading := fun k => if k = 2 then none else some "now".toList } }
      [⟨"a.txt".toList, []⟩] ()).1 = .error (.noIndex .clockStopped) := by
  refine ⟨by simp, by decide, ?_⟩
  rcases Sample.workshop.run_of_canRun
      { formats := ["markdown".toList]
        clock := { reading := fun k => if k = 2 then none else some "now".toList } }
      [⟨"a.txt".toList, []⟩] () ⟨by simp, by simp, by decide⟩ with ⟨hshows, -⟩ | ⟨-, herror⟩
  · exact absurd hshows (by unfold RunOptions.ShowsIndexes; decide)
  · exact herror

end SourceDoc
