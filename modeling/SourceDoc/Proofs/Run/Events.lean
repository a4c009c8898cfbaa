import SourceDoc.Proofs.Run.Account
import SourceDoc.Proofs.Run.Steady

/-!
# The events of a run

A run tells its start, then what became of each file in the order in which the files were done, then what became of
each format, then its end.  What it tells agrees with its report:

    (w.run o sources s).1 = .ok (r, notes) → r.Accounts o sources ∧ r.IsTold o sources (events of notes)
                                                                                           (run_accounts)
-/

namespace SourceDoc

/-- An event without its message. -/
structure Heading where
  kind : EventKind
  stage : Stage
  path? : Option Text := none
  current : Nat := 0
  total : Nat := 0
  deriving DecidableEq, Repr

def Event.heading (e : Event) : Heading := ⟨e.kind, e.stage, e.path?, e.current, e.total⟩

/-- The headings of some notes, which leave out log entries. -/
def headings (notes : List Note) : List Heading := (notes.filterMap Note.event?).map Event.heading

@[simp] theorem headings_nil : headings [] = [] := rfl

@[simp] theorem headings_append (a b : List Note) : headings (a ++ b) = headings a ++ headings b := by
  simp [headings]

@[simp] theorem headings_event (e : Event) (notes : List Note) :
    headings (.event e :: notes) = e.heading :: headings notes := rfl

@[simp] theorem headings_entry (e : Log.Entry) (notes : List Note) :
    headings (.entry e :: notes) = headings notes := rfl

theorem headings_flatten (l : List (List Note)) : headings l.flatten = (l.map headings).flatten := by
  induction l with
  | nil => rfl
  | cons a l ih => rw [List.flatten_cons, headings_append, ih, List.map_cons, List.flatten_cons]

/-! ## Files -/

/-- What is told about a file, the `current`th of `total`: that it was left out or that it was documented, and in that
case before it that there is no prose, if so. -/
def fileHeadings (total current : Nat) (path : Text) : Except Text Document → List Heading
  | .error _ => [⟨.skip, .extract, some path, current, total⟩]
  | .ok d =>
    (if (present? d.proseError).isSome then [⟨.error, .prose, some path, current, total⟩] else []) ++
      [⟨.progress, .document, some path, current, total⟩]

theorem Outcome.headings_notes (total current : Nat) (o : Outcome) :
    headings (o.notes total current) = fileHeadings total current o.path o.verdict := by
  cases o with
  | documented path d =>
    unfold Outcome.notes
    cases h : present? d.proseError with
    | none => simp [fileHeadings, verdict, h, Event.heading, Outcome.path]
    | some reason => simp [fileHeadings, verdict, h, Event.heading, Outcome.path]
  | skipped path reason => rfl
  | crashed path reason message => rfl

/-! ## Formats -/

/-- What is told about a format: that its template is bad, or which documents have no page and that the others are
written. -/
def Report.formatHeadings (r : Report) (f : Format) : List Heading :=
  if f ∈ r.formatErrors.map Prod.fst then [⟨.error, .render, none, 0, 0⟩]
  else
    (r.renderErrors.filter fun x => x.2.1 = f).map (fun x => ⟨.error, .render, some x.1.path, 0, 0⟩) ++
      [⟨.progress, .render, none, 0, 0⟩]

theorem headings_failures (p : Pages) :
    headings (FormatOutcome.notes (.pages p)) =
      (p.failures.map fun x => ⟨.error, .render, some x.1.path, 0, 0⟩) ++ [⟨.progress, .render, none, 0, 0⟩] := by
  unfold FormatOutcome.notes
  simp only [headings_append, headings_event, headings_nil]
  congr 1
  induction p.failures with
  | nil => rfl
  | cons x xs ih =>
    rw [List.flatMap_cons, headings_append, ih]
    rfl

theorem Report.headings_outcome (r : Report) (hd : (r.formats.map FormatOutcome.format).Nodup) (outcome : FormatOutcome)
    (hm : outcome ∈ r.formats) : headings outcome.notes = r.formatHeadings outcome.format := by
  unfold formatHeadings
  cases outcome with
  | disabled f e =>
    have hmem : f ∈ r.formatErrors.map Prod.fst := List.mem_map.mpr ⟨_, (r.mem_formatErrors_iff f e).mpr hm, rfl⟩
    rw [FormatOutcome.format, if_pos hmem]
    rfl
  | pages p =>
    have hnot : p.format ∉ r.formatErrors.map Prod.fst := by
      intro hmem
      obtain ⟨⟨f, e⟩, he, rfl⟩ := List.mem_map.mp hmem
      have := List.inj_on_of_nodup_map hd hm ((r.mem_formatErrors_iff _ e).mp he) rfl
      cases this
    have herrors := renderErrors_filter r.outcomes r.formats hd p hm
    rw [FormatOutcome.format, if_neg hnot, herrors, headings_failures, List.map_map]
    rfl

/-! ## The run -/

/-- Some events tell what a report says: there is an order in which the files were done, each with its document or the
reason why it was left out, and the events follow it. -/
def Report.IsTold (r : Report) (o : RunOptions) (sources : List SourceFile) (events : List Heading) : Prop :=
  ∃ done : List (Text × Except Text Document),
    (done.map Prod.fst).Perm (sources.map SourceFile.path) ∧
    (∀ path d, (path, .ok d) ∈ done → d.path = path) ∧
    r.documents = Text.sortOn Document.path (done.filterMap fun x => x.2.toOption) ∧
    r.skipped = Text.sortOn Prod.fst (done.filterMap fun x => (Outcome.refusal? x.2).map fun reason => (x.1, reason)) ∧
    events = ⟨.start, .run, none, 0, sources.length⟩ ::
      (done.mapIdx fun i x => fileHeadings sources.length (i + 1) x.1 x.2).flatten ++
      o.requested.flatMap r.formatHeadings ++ [⟨.complete, .run, none, sources.length, sources.length⟩]

theorem isTold_of_ran {σ : Type} {w : Workshop σ} {o : RunOptions} {sources : List SourceFile} {s : σ} {r : Report}
    {notes : List Note} (h : w.Ran o sources s r notes) (hw : w.registry.KeepsPaths) :
    r.IsTold o sources (headings notes) := by
  refine ⟨r.outcomes.map fun x => (x.path, x.verdict), ?_, ?_, ?_, ?_, ?_⟩
  · rw [List.map_map]
    exact h.paths_perm
  · intro path d hm
    obtain ⟨x, hx, he⟩ := List.mem_map.mp hm
    obtain ⟨rfl, hv⟩ := Prod.mk.inj he
    exact h.isKept hw x hx d (by rw [x.document_eq_verdict, hv]; rfl)
  · rw [List.filterMap_map]
    unfold Report.documents
    congr 1
    exact List.filterMap_congr fun x _ => x.document_eq_verdict
  · rw [List.filterMap_map]
    unfold Report.skipped
    congr 1
    refine List.filterMap_congr fun x _ => ?_
    rw [x.reason_eq_verdict]
    rfl
  · have hcount : r.attempted = sources.length := by simpa [Report.attempted] using h.paths_perm.length_eq
    have hfiles : headings (r.outcomes.mapIdx fun i x => x.notes sources.length (i + 1)).flatten =
        ((r.outcomes.map fun x => (x.path, x.verdict)).mapIdx fun i x =>
          fileHeadings sources.length (i + 1) x.1 x.2).flatten := by
      rw [headings_flatten]
      congr 1
      refine List.ext_getElem? fun i => ?_
      simp only [List.getElem?_map, List.getElem?_mapIdx, Option.map_map]
      cases r.outcomes[i]? with
      | none => rfl
      | some x => exact congrArg some (x.headings_notes _ _)
    have hformats : headings (r.formats.flatMap FormatOutcome.notes) = o.requested.flatMap r.formatHeadings := by
      rw [← h.format_eq, List.flatMap_map, List.flatMap_def, headings_flatten, List.map_map, List.flatMap_def]
      congr 1
      exact List.map_congr_left fun x hx => r.headings_outcome h.nodup_format x hx
    have hdocumenting : headings (w.documentAll sources s).1.2 = [] := by
      unfold headings
      rw [w.events_documentAll sources s]
      rfl
    rw [h.notes]
    simp only [startNote, Report.completeNote, List.cons_append, headings_event, headings_append, hdocumenting, hfiles,
      hformats, hcount, headings_nil, List.nil_append, Event.heading]

/-- **A run reports every file and every format once, and tells what it reports.** -/
theorem run_accounts {σ : Type} (w : Workshop σ) (hw : w.registry.KeepsPaths) (o : RunOptions)
    (sources : List SourceFile) (s : σ) (r : Report) (notes : List Note) (h : (w.run o sources s).1 = .ok (r, notes)) :
    r.Accounts o sources ∧ r.IsTold o sources (headings notes) := by
  have hran := (w.run_eq_ok_iff o sources s r notes).mp h
  exact ⟨accounts_of_ran hran hw, isTold_of_ran hran hw⟩

theorem run_accounts_sample : ∃ (r : Report) (notes : List Note),
    (Sample.workshop.run Sample.options Sample.sources ()).1 = .ok (r, notes) ∧
      r.Accounts Sample.options Sample.sources ∧ r.IsTold Sample.options Sample.sources (headings notes) := by
  obtain ⟨notes, h⟩ := Sample.workshop.run_steady Sample.prose (fun _ _ => rfl) Sample.options (some "now".toList)
    Sample.options_isSteady Sample.sources (by simp [Sample.sources]) ()
  exact ⟨_, notes, h,
    run_accounts Sample.workshop Sample.registry_keepsPaths Sample.options Sample.sources () _ notes h⟩

end SourceDoc
