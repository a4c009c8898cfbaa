import SourceDoc.Proofs.Run.Steady
import SourceDoc.Proofs.Text.Order

/-!
# A run is the merge of the runs on its files alone

With prose that depends on the outline alone, and with a clock that stands still, the report of a run is the merge of
the reports on each file alone.  So neither the order of the files nor the order in which the workers are done with
them matters, and one more file that is left out changes no page (`run_merges`).
-/

namespace SourceDoc

/-! ## Documents and files that are left out -/

namespace Workshop

variable (prose : Outline → Except ProseError Prose)

theorem outcomeOf_path (r : Registry) (f : SourceFile) : (outcomeOf r prose f).path = f.path := by
  unfold outcomeOf
  split
  · rfl
  · rfl
  · exact withProse_path _ _ _

theorem outcomeOf_isKept (r : Registry) (hr : r.KeepsPaths) (f : SourceFile) : (outcomeOf r prose f).IsKept := by
  unfold outcomeOf
  cases h : r.extract f.path f.text with
  | ok o => exact withProse_isKept f.path o.normalize (hr f.path f.text o h) _
  | error e =>
    cases e <;>
      · intro d hd
        cases hd

end Workshop

namespace Report

/-- A file that is left out, with the reason. -/
def absence? (o : Outcome) : Option (Text × Text) := o.reason?.map fun reason => (o.path, reason)

theorem documents_singleton (o : Outcome) (fs : List FormatOutcome) :
    documents ⟨[o], fs⟩ = o.document?.toList := by
  unfold documents
  cases h : o.document? <;> simp [h]

theorem skipped_singleton (o : Outcome) (fs : List FormatOutcome) : skipped ⟨[o], fs⟩ = (absence? o).toList := by
  unfold skipped absence?
  cases h : o.reason? <;> simp [h]

end Report

namespace Workshop

variable {σ : Type} (w : Workshop σ) (prose : Outline → Except ProseError Prose)

/-- In the order of paths it does not matter in which order the files were done. -/
theorem sortOn_done {β : Type} (g : Outcome → Option β) (key : β → Text) (sources : List SourceFile)
    (hg : ∀ f ∈ sources, ∀ b, g (outcomeOf w.registry prose f) = some b → key b = f.path)
    (hd : (sources.map SourceFile.path).Nodup) (done : List Outcome)
    (hdone : (done.filterMap g).Perm (sources.filterMap fun f => g (outcomeOf w.registry prose f))) :
    Text.sortOn key (done.filterMap g) =
      Text.sortOn key (sources.filterMap fun f => g (outcomeOf w.registry prose f)) := by
  refine Text.sortOn_eq_of_perm key hdone ?_
  rw [(hdone.map key).nodup_iff]
  exact nodup_map_filterMap _ SourceFile.path key sources hg hd

/-- What the files are made into is what each is made into. -/
theorem filterMap_done {β : Type} (g : Outcome → Option β) (sources : List SourceFile) (done : List Outcome)
    (h : done.Perm (sources.map (outcomeOf w.registry prose))) :
    (done.filterMap g).Perm (sources.filterMap fun f => g (outcomeOf w.registry prose f)) := by
  have := h.filterMap g
  rwa [List.filterMap_map] at this

theorem filterMap_doneWith {β : Type} (g : Outcome → Option β) (sources : List SourceFile) :
    ((w.doneWith prose sources).filterMap g).Perm (sources.filterMap fun f => g (outcomeOf w.registry prose f)) :=
  w.filterMap_done prose g sources _ (w.doneWith_perm prose sources)

variable (hw : w.registry.KeepsPaths) (o : RunOptions) (now? : Option Text) (sources : List SourceFile)
  (hd : (sources.map SourceFile.path).Nodup) (done : List Outcome)

include hw hd in
theorem documents_reportAt
    (hdone : (done.filterMap Outcome.document?).Perm
      (sources.filterMap fun f => (outcomeOf w.registry prose f).document?)) :
    (o.reportAt now? done).documents =
      Text.sortOn Document.path (sources.filterMap fun f => (outcomeOf w.registry prose f).document?) := by
  refine w.sortOn_done prose Outcome.document? Document.path sources ?_ hd done hdone
  intro f _ d hf
  rw [outcomeOf_isKept prose w.registry hw f d hf, outcomeOf_path]

include hd in
theorem skipped_reportAt
    (hdone : (done.filterMap Report.absence?).Perm
      (sources.filterMap fun f => Report.absence? (outcomeOf w.registry prose f))) :
    (o.reportAt now? done).skipped =
      Text.sortOn Prod.fst (sources.filterMap fun f => Report.absence? (outcomeOf w.registry prose f)) := by
  refine w.sortOn_done prose Report.absence? Prod.fst sources ?_ hd done hdone
  intro f _ x hf
  obtain ⟨reason, -, rfl⟩ := Option.map_eq_some_iff.mp hf
  exact outcomeOf_path prose w.registry f

end Workshop

/-! ## Pages -/

/-- The documents of a report with their pages in a format. -/
def Report.pagesIn (r : Report) (f : Format) : List (Document × Except RenderError Artifact) :=
  (r.formats.findSome? fun outcome =>
    match outcome with
    | .pages p => if p.format = f then some p.pages else none
    | .disabled _ _ => none).getD []

/-- The documents come with their pages if the format was asked for and its template is good. -/
theorem RunOptions.pagesIn_reportAt (o : RunOptions) (now? : Option Text) (done : List Outcome) (f : Format) :
    (o.reportAt now? done).pagesIn f =
      if f ∈ o.requested ∧ Renderer.missing ⟨f, o.template?⟩ = [] then
        (o.reportAt now? done).documents.map fun d => (d, Renderer.pageAt ⟨f, o.template?⟩ now? d)
      else [] := by
  unfold Report.pagesIn RunOptions.reportAt RunOptions.formatsAt
  simp only
  show _ = if _ then (Report.documents ⟨done, []⟩).map _ else _
  generalize Report.documents ⟨done, []⟩ = ds
  induction o.requested with
  | nil => simp
  | cons g fs ih =>
    rw [List.map_cons, List.findSome?_cons]
    by_cases hm : Renderer.missing ⟨g, o.template?⟩ = []
    · by_cases hg : g = f
      · subst hg
        simp [Renderer.formatAt, hm]
      · simp only [Renderer.formatAt, hm, if_true, hg, if_false, List.mem_cons, Ne.symm hg, false_or]
        exact ih
    · by_cases hg : g = f
      · subst hg
        simp only [Renderer.formatAt, hm, if_false, and_false] at ih ⊢
        exact ih
      · simp only [Renderer.formatAt, hm, if_false, List.mem_cons, Ne.symm hg, false_or]
        exact ih

/-- The artifacts of a format are the pages of the documents, then the further pages. -/
theorem RunOptions.artifacts_reportAt (o : RunOptions) (now? : Option Text) (done : List Outcome) (f : Format)
    (as : List Artifact) (h : (f, as) ∈ (o.reportAt now? done).artifacts) :
    as = ((o.reportAt now? done).pagesIn f).filterMap (fun x => x.2.toOption) ++
      Renderer.extrasAt ⟨f, o.template?⟩ o.isCombined now? (o.reportAt now? done).documents := by
  unfold Report.artifacts at h
  obtain ⟨outcome, hm, he⟩ := List.mem_filterMap.mp h
  obtain ⟨g, hg, rfl⟩ := List.mem_map.mp hm
  by_cases hgm : Renderer.missing ⟨g, o.template?⟩ = []
  · simp only [Renderer.formatAt, hgm, if_true, Option.some.injEq, Prod.mk.injEq] at he
    obtain ⟨rfl, rfl⟩ := he
    rw [o.pagesIn_reportAt, if_pos ⟨hg, hgm⟩]
    rfl
  · simp only [Renderer.formatAt, hgm, if_false] at he
    cases he

/-- The formats with pages are those whose templates are good. -/
theorem RunOptions.formats_reportAt (o : RunOptions) (now? : Option Text) (done : List Outcome) :
    (o.reportAt now? done).artifacts.map Prod.fst =
      o.requested.filter fun f => Renderer.missing ⟨f, o.template?⟩ = [] := by
  unfold reportAt formatsAt Report.artifacts
  generalize Report.documents ⟨done, []⟩ = ds
  simp only
  induction o.requested with
  | nil => rfl
  | cons f fs ih =>
    by_cases hm : Renderer.missing ⟨f, o.template?⟩ = []
    · simpa [Renderer.formatAt, hm] using ih
    · simpa [Renderer.formatAt, hm] using ih

/-- The other formats have the slots that their templates lack. -/
theorem RunOptions.formatErrors_reportAt (o : RunOptions) (now? : Option Text) (done : List Outcome) :
    (o.reportAt now? done).formatErrors =
      (o.requested.filter fun f => Renderer.missing ⟨f, o.template?⟩ ≠ []).map fun f =>
        (f, .missingSlots (Renderer.missing ⟨f, o.template?⟩)) := by
  unfold reportAt formatsAt Report.formatErrors
  generalize Report.documents ⟨done, []⟩ = ds
  simp only
  induction o.requested with
  | nil => rfl
  | cons f fs ih =>
    by_cases hm : Renderer.missing ⟨f, o.template?⟩ = []
    · simpa [Renderer.formatAt, hm] using ih
    · simpa [Renderer.formatAt, hm] using ih

/-! ## Merging -/

/-- A report is the merge of reports on each file alone. -/
structure Report.IsMerge (o : RunOptions) (now? : Option Text) (r : Report) (alone : List Report) : Prop where
  documents : r.documents = Text.sortOn Document.path (alone.flatMap documents)
  skipped : r.skipped = Text.sortOn Prod.fst (alone.flatMap skipped)
  formats : ∀ r' ∈ alone, r'.artifacts.map Prod.fst = r.artifacts.map Prod.fst ∧ r'.formatErrors = r.formatErrors
  /-- The pages of the documents are those of the reports alone, in the order of paths. -/
  pages : ∀ f, r.pagesIn f = Text.sortOn (fun x => x.1.path) (alone.flatMap fun r' => r'.pagesIn f)
  /-- After the pages of its documents a report has only the pages about all of them. -/
  artifacts : ∀ r' ∈ r :: alone, ∀ f as, (f, as) ∈ r'.artifacts →
    as = (r'.pagesIn f).filterMap (fun x => x.2.toOption) ++
      Renderer.extrasAt ⟨f, o.template?⟩ o.isCombined now? r'.documents

/-- What a report says, apart from the order in which the files were done. -/
structure Report.Content where
  attempted : Nat
  succeeded : Nat
  documents : List Document
  skipped : List (Text × Text)
  artifacts : List (Format × List Artifact)
  renderErrors : List (Document × Format × RenderError)
  formatErrors : List (Format × RenderError)
  deriving DecidableEq, Repr

def Report.content (r : Report) : Content :=
  ⟨r.attempted, r.succeeded, r.documents, r.skipped, r.artifacts, r.renderErrors, r.formatErrors⟩

section

variable {σ : Type} (w : Workshop σ) (prose : Outline → Except ProseError Prose) (o : RunOptions) (now? : Option Text)

namespace Workshop

/-- The report on a file alone. -/
def reportAlone (f : SourceFile) : Report := o.reportAt now? [outcomeOf w.registry prose f]

theorem reportAt_singleton (f : SourceFile) :
    o.reportAt now? (w.doneWith prose [f]) = w.reportAlone prose o now? f := by
  rw [doneWith_singleton]
  rfl

theorem documents_reportAlone (f : SourceFile) :
    (w.reportAlone prose o now? f).documents = (outcomeOf w.registry prose f).document?.toList :=
  Report.documents_singleton _ _

theorem skipped_reportAlone (f : SourceFile) :
    (w.reportAlone prose o now? f).skipped = (Report.absence? (outcomeOf w.registry prose f)).toList :=
  Report.skipped_singleton _ _

theorem pagesIn_reportAlone (f : SourceFile) (g : Format) :
    (w.reportAlone prose o now? f).pagesIn g =
      if g ∈ o.requested ∧ Renderer.missing ⟨g, o.template?⟩ = [] then
        (w.reportAlone prose o now? f).documents.map fun d => (d, Renderer.pageAt ⟨g, o.template?⟩ now? d)
      else [] :=
  o.pagesIn_reportAt now? _ g

/-- The documents of a report are those of the reports alone, in the order of paths. -/
theorem documents_doneWith (hw : w.registry.KeepsPaths) (sources : List SourceFile)
    (hd : (sources.map SourceFile.path).Nodup) :
    (o.reportAt now? (w.doneWith prose sources)).documents =
      Text.sortOn Document.path ((sources.map (w.reportAlone prose o now?)).flatMap Report.documents) := by
  rw [w.documents_reportAt prose hw o now? sources hd _ (w.filterMap_doneWith prose _ sources), List.flatMap_map]
  simp only [w.documents_reportAlone]
  rw [List.filterMap_eq_flatMap_toList]

/-- The pages of documents are sorted like the documents. -/
theorem pagesIn_doneWith (hw : w.registry.KeepsPaths) (sources : List SourceFile)
    (hd : (sources.map SourceFile.path).Nodup) (f : Format) :
    (o.reportAt now? (w.doneWith prose sources)).pagesIn f =
      Text.sortOn (fun x => x.1.path) ((sources.map (w.reportAlone prose o now?)).flatMap fun r' => r'.pagesIn f) := by
  rw [o.pagesIn_reportAt, List.flatMap_map]
  simp only [w.pagesIn_reportAlone]
  by_cases hf : f ∈ o.requested ∧ Renderer.missing ⟨f, o.template?⟩ = []
  · simp only [if_pos hf]
    rw [w.documents_doneWith prose o now? hw sources hd, List.flatMap_map, ← List.map_flatMap, ← Text.map_sortOn]
  · simp only [if_neg hf]
    rw [List.flatMap_eq_nil_iff.mpr fun _ _ => rfl, Text.sortOn_nil]

end Workshop

/-- **The report on some files is the merge of the reports on each file alone.** -/
theorem isMerge_reportAt (hw : w.registry.KeepsPaths) (sources : List SourceFile)
    (hd : (sources.map SourceFile.path).Nodup) :
    (o.reportAt now? (w.doneWith prose sources)).IsMerge o now? (sources.map (w.reportAlone prose o now?)) := by
  refine ⟨w.documents_doneWith prose o now? hw sources hd, ?_, ?_, ?_, ?_⟩
  · rw [List.flatMap_map]
    simp only [w.skipped_reportAlone]
    rw [← List.filterMap_eq_flatMap_toList]
    exact w.skipped_reportAt prose o now? sources hd _ (w.filterMap_doneWith prose _ sources)
  · intro r' hr'
    obtain ⟨f, -, rfl⟩ := List.mem_map.mp hr'
    unfold Workshop.reportAlone
    rw [o.formats_reportAt, o.formats_reportAt, o.formatErrors_reportAt, o.formatErrors_reportAt]
    exact ⟨rfl, rfl⟩
  · intro f
    exact w.pagesIn_doneWith prose o now? hw sources hd f
  · intro r' hr' f as hm
    rcases List.mem_cons.mp hr' with rfl | hr'
    · exact o.artifacts_reportAt now? _ f as hm
    · obtain ⟨g, -, rfl⟩ := List.mem_map.mp hr'
      exact o.artifacts_reportAt now? _ f as hm

/-- What is written depends on the documents alone. -/
theorem formats_reportAt_congr (done done' : List Outcome)
    (h : (o.reportAt now? done).documents = (o.reportAt now? done').documents) :
    (o.reportAt now? done).formats = (o.reportAt now? done').formats := by
  show o.formatsAt now? (o.reportAt now? done).documents = o.formatsAt now? (o.reportAt now? done').documents
  rw [h]

/-- The order in which the files were done does not matter. -/
theorem content_reportAt (hw : w.registry.KeepsPaths) (sources : List SourceFile)
    (hd : (sources.map SourceFile.path).Nodup) (done done' : List Outcome)
    (h : done.Perm (sources.map (Workshop.outcomeOf w.registry prose)))
    (h' : done'.Perm (sources.map (Workshop.outcomeOf w.registry prose))) :
    (o.reportAt now? done).content = (o.reportAt now? done').content := by
  have hdocuments : (o.reportAt now? done).documents = (o.reportAt now? done').documents := by
    rw [w.documents_reportAt prose hw o now? sources hd done (w.filterMap_done prose _ sources done h),
      w.documents_reportAt prose hw o now? sources hd done' (w.filterMap_done prose _ sources done' h')]
  have hskipped : (o.reportAt now? done).skipped = (o.reportAt now? done').skipped := by
    rw [w.skipped_reportAt prose o now? sources hd done (w.filterMap_done prose _ sources done h),
      w.skipped_reportAt prose o now? sources hd done' (w.filterMap_done prose _ sources done' h')]
  have hlength : (o.reportAt now? done).attempted = (o.reportAt now? done').attempted :=
    h.length_eq.trans h'.length_eq.symm
  have hformats := formats_reportAt_congr o now? done done' hdocuments
  unfold Report.content Report.succeeded Report.artifacts Report.renderErrors Report.formatErrors
  rw [hlength, hdocuments, hskipped, hformats]

/-- A file that is left out changes no page. -/
theorem artifacts_reportAt_of_absent (hw : w.registry.KeepsPaths) (sources : List SourceFile)
    (hd : (sources.map SourceFile.path).Nodup) (f : SourceFile)
    (hf : (Workshop.outcomeOf w.registry prose f).document? = none) (sources' : List SourceFile)
    (h : sources'.Perm (f :: sources)) :
    (o.reportAt now? (w.doneWith prose sources')).artifacts =
      (o.reportAt now? (w.doneWith prose sources)).artifacts := by
  have hmade : ((w.doneWith prose sources').filterMap Outcome.document?).Perm
      (sources.filterMap fun g => (Workshop.outcomeOf w.registry prose g).document?) := by
    have hall := (w.filterMap_doneWith prose Outcome.document? sources').trans (h.filterMap _)
    rw [List.filterMap_cons, hf] at hall
    exact hall
  have hdocuments : (o.reportAt now? (w.doneWith prose sources')).documents =
      (o.reportAt now? (w.doneWith prose sources)).documents := by
    rw [w.documents_reportAt prose hw o now? sources hd _ hmade,
      w.documents_reportAt prose hw o now? sources hd _ (w.filterMap_doneWith prose _ sources)]
  unfold Report.artifacts
  rw [formats_reportAt_congr o now? _ _ hdocuments]

end

/-- **A run on some files is the merge of the runs on each file alone.**  Whatever the order of the files and the order
in which the workers are done with them, the report says the same, and one more file that is left out changes no
page. -/
theorem run_merges {σ : Type} (w : Workshop σ) (hw : w.registry.KeepsPaths) (prose : Outline → Except ProseError Prose)
    (hprose : w.IsSteady prose) (o : RunOptions) (now? : Option Text) (ho : o.IsSteady now?)
    (sources : List SourceFile) (hs : sources ≠ []) (hd : (sources.map SourceFile.path).Nodup) (s : σ) :
    ∃ (r : Report) (alone : SourceFile → Report),
      w.Reports o sources s r ∧
      (∀ f s', w.Reports o [f] s' (alone f)) ∧
      r.IsMerge o now? (sources.map alone) ∧
      (∀ pool sources' s', sources'.Perm sources →
        ∃ r', Workshop.Reports { w with pool } o sources' s' r' ∧ r'.content = r.content) ∧
      (∀ f, (alone f).documents = [] → ∀ sources' s', sources'.Perm (f :: sources) →
        ∃ r', w.Reports o sources' s' r' ∧ r'.artifacts = r.artifacts) := by
  refine ⟨o.reportAt now? (w.doneWith prose sources), w.reportAlone prose o now?,
    w.run_steady prose hprose o now? ho sources hs s, ?_, isMerge_reportAt w prose o now? hw sources hd, ?_, ?_⟩
  · intro f s'
    rw [← w.reportAt_singleton]
    exact w.run_steady prose hprose o now? ho [f] (by simp) s'
  · intro pool sources' s' hp
    have hs' : sources' ≠ [] := fun h => hs (List.perm_nil.mp (h ▸ hp.symm))
    refine ⟨_, Workshop.run_steady { w with pool } prose hprose o now? ho sources' hs' s', ?_⟩
    refine content_reportAt w prose o now? hw sources hd _ _ ?_ (w.doneWith_perm prose sources)
    exact (Workshop.doneWith_perm { w with pool } prose sources').trans (hp.map _)
  · intro f hf sources' s' hp
    have hs' : sources' ≠ [] := by
      rintro rfl
      simpa using hp.length_eq
    refine ⟨_, w.run_steady prose hprose o now? ho sources' hs' s', ?_⟩
    rw [w.documents_reportAlone] at hf
    exact artifacts_reportAt_of_absent w prose o now? hw sources hd f (by simpa using hf) sources' hp

theorem run_merges_sample : (Sample.sources.map SourceFile.path).Nodup ∧
    ∃ (r : Report) (alone : SourceFile → Report),
      Sample.workshop.Reports Sample.options Sample.sources () r ∧
      r.IsMerge Sample.options (some "now".toList) (Sample.sources.map alone) := by
  have hd : (Sample.sources.map SourceFile.path).Nodup := by decide
  obtain ⟨r, alone, hr, -, hmerge, -⟩ := run_merges Sample.workshop Sample.registry_keepsPaths Sample.prose
    (fun _ _ => rfl) Sample.options (some "now".toList) Sample.options_isSteady Sample.sources
    (by simp [Sample.sources]) hd ()
  exact ⟨hd, r, alone, hr, hmerge⟩

end SourceDoc
