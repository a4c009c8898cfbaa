import Mathlib.Data.List.Basic
import SourceDoc.Proofs.Extractor.Registry
import SourceDoc.Run.Outcome

/-!
# What becomes of source files

Every file has one outcome, a document or a reason but not both, and the outcome names the path of the file
(`path_documentAll`, `isKept_documentAll`).  Where the prose depends on the outline alone, the outcome depends on the
file alone (`documentAll_steady`).
-/

namespace SourceDoc

namespace Outcome

/-- A document in the outcome names the path of the outcome. -/
def IsKept (o : Outcome) : Prop := ∀ d, o.document? = some d → d.path = o.path

/-- The outcome as a document or a reason for its absence. -/
def verdict : Outcome → Except Text Document
  | documented _ d => .ok d
  | skipped _ reason => .error (reported reason)
  | crashed _ reason _ => .error (reported reason)

/-- The reason in a verdict. -/
def refusal? : Except Text Document → Option Text
  | .ok _ => none
  | .error reason => some reason

theorem document_eq_verdict (o : Outcome) : o.document? = o.verdict.toOption := by cases o <;> rfl

theorem reason_eq_verdict (o : Outcome) : o.reason? = refusal? o.verdict := by cases o <;> rfl

end Outcome

namespace Workshop

variable {σ : Type}

/-! ## One file -/

/-- With an outline a file has the document of it, or is given up. -/
theorem withProse_cases (path : Text) (o : Outline) (prose : Except ProseError Prose) :
    (∃ p e notes, withProse path o prose = (.documented path (Document.assemble o p e), notes) ∧
      notes.filterMap Note.event? = []) ∨
    ∃ reason message, withProse path o prose = (.crashed path reason message, []) := by
  unfold withProse
  cases prose with
  | ok prose => exact .inl ⟨_, _, _, rfl, rfl⟩
  | error e =>
    by_cases h : e.isReported = true
    · simp only [h, if_true]
      exact .inl ⟨_, _, _, rfl, rfl⟩
    · simp only [h]
      exact .inr ⟨_, _, rfl⟩

theorem withProse_path (path : Text) (o : Outline) (prose : Except ProseError Prose) :
    (withProse path o prose).1.path = path := by
  rcases withProse_cases path o prose with ⟨p, e, notes, h, -⟩ | ⟨reason, message, h⟩
  · rw [h]
    rfl
  · rw [h]
    rfl

theorem withProse_isKept (path : Text) (o : Outline) (ho : o.path = path) (prose : Except ProseError Prose) :
    (withProse path o prose).1.IsKept := by
  intro d hd
  rcases withProse_cases path o prose with ⟨p, e, notes, h, -⟩ | ⟨reason, message, h⟩
  · rw [h] at hd ⊢
    cases hd
    exact ho
  · rw [h] at hd
    cases hd

theorem withProse_events (path : Text) (o : Outline) (prose : Except ProseError Prose) :
    (withProse path o prose).2.filterMap Note.event? = [] := by
  rcases withProse_cases path o prose with ⟨p, e, notes, h, hn⟩ | ⟨reason, message, h⟩
  · rw [h, hn]
  · rw [h]
    rfl

/-- What becomes of a file whose outline is read, and what does where it is not. -/
theorem document_cases (w : Workshop σ) (f : SourceFile) (s : σ) :
    (∃ o, w.registry.extract f.path f.text = .ok o ∧
      (w.document f s).1.1 = (withProse f.path o.normalize (w.provide o.normalize s).1.prose).1 ∧
      (w.document f s).1.2 = (w.provide o.normalize s).1.log.map Note.entry ++
        (withProse f.path o.normalize (w.provide o.normalize s).1.prose).2) ∨
    (∃ cause, w.registry.extract f.path f.text = .error (.failed cause) ∧
      (w.document f s).1 = (.crashed f.path cause.reason cause.message, [])) ∨
    (∃ e, w.registry.extract f.path f.text = .error e ∧ (∀ cause, e ≠ .failed cause) ∧
      (w.document f s).1 = (.skipped f.path e.reason,
        [.ofRun .debug ("Skipping ".toList ++ f.path ++ ": ".toList ++ e.reason)])) := by
  unfold document
  cases h : w.registry.extract f.path f.text with
  | ok o => exact .inl ⟨o, rfl, rfl, rfl⟩
  | error e =>
    cases e with
    | failed cause => exact .inr (.inl ⟨cause, rfl, rfl⟩)
    | malformed m => exact .inr (.inr ⟨_, rfl, by simp, rfl⟩)
    | unsupported path extension => exact .inr (.inr ⟨_, rfl, by simp, rfl⟩)

/-- The outcome of a file with an outline. -/
theorem document_of_outline (w : Workshop σ) (f : SourceFile) (o : Outline)
    (h : w.registry.extract f.path f.text = .ok o) (s : σ) :
    (w.document f s).1.1 = (withProse f.path o.normalize (w.provide o.normalize s).1.prose).1 ∧
      (w.document f s).2 = (w.provide o.normalize s).2 := by
  unfold document
  rw [h]
  exact ⟨rfl, rfl⟩

/-- The outcome names the path of the file. -/
theorem path_document (w : Workshop σ) (f : SourceFile) (s : σ) : (w.document f s).1.1.path = f.path := by
  rcases w.document_cases f s with ⟨o, -, ho, -⟩ | ⟨cause, -, hc⟩ | ⟨e, -, -, he⟩
  · rw [ho, withProse_path]
  · rw [hc]
    rfl
  · rw [he]
    rfl

/-- The document, if there is one, names the path of the file. -/
theorem isKept_document (w : Workshop σ) (hw : w.registry.KeepsPaths) (f : SourceFile) (s : σ) :
    (w.document f s).1.1.IsKept := by
  rcases w.document_cases f s with ⟨o, hx, ho, -⟩ | ⟨cause, -, hc⟩ | ⟨e, -, -, he⟩
  · rw [ho]
    exact withProse_isKept f.path o.normalize (hw f.path f.text o hx) _
  · rw [hc]
    intro d hd
    cases hd
  · rw [he]
    intro d hd
    cases hd

/-- While it documents a file, a run tells no events. -/
theorem events_document (w : Workshop σ) (f : SourceFile) (s : σ) :
    (w.document f s).1.2.filterMap Note.event? = [] := by
  rcases w.document_cases f s with ⟨o, -, -, hn⟩ | ⟨cause, -, hc⟩ | ⟨e, -, -, he⟩
  · rw [hn, List.filterMap_append, withProse_events, List.append_nil, List.filterMap_eq_nil_iff]
    intro n hn
    obtain ⟨entry, -, rfl⟩ := List.mem_map.mp hn
    rfl
  · rw [hc]
    rfl
  · rw [he]
    rfl

/-! ## All files -/

theorem documentAll_cons (w : Workshop σ) (f : SourceFile) (rest : List SourceFile) (s : σ) :
    w.documentAll (f :: rest) s =
      let first := w.document f s
      let others := w.documentAll rest first.2
      ((first.1.1 :: others.1.1, first.1.2 ++ others.1.2), others.2) := rfl

/-- Every file has one outcome, which names its path. -/
theorem path_documentAll (w : Workshop σ) (sources : List SourceFile) (s : σ) :
    (w.documentAll sources s).1.1.map Outcome.path = sources.map SourceFile.path := by
  induction sources generalizing s with
  | nil => rfl
  | cons f rest ih =>
    simp only [documentAll_cons, List.map_cons]
    rw [path_document, ih]

theorem isKept_documentAll (w : Workshop σ) (hw : w.registry.KeepsPaths) (sources : List SourceFile) (s : σ) :
    ∀ o ∈ (w.documentAll sources s).1.1, o.IsKept := by
  induction sources generalizing s with
  | nil => exact List.forall_mem_nil _
  | cons f rest ih =>
    simp only [documentAll_cons, List.forall_mem_cons]
    exact ⟨w.isKept_document hw f s, ih _⟩

theorem events_documentAll (w : Workshop σ) (sources : List SourceFile) (s : σ) :
    (w.documentAll sources s).1.2.filterMap Note.event? = [] := by
  induction sources generalizing s with
  | nil => rfl
  | cons f rest ih =>
    simp only [documentAll_cons, List.filterMap_append]
    rw [events_document, ih]
    rfl

/-- What one file brings about while a state is good, all files do. -/
theorem documentAll_forall₂ (w : Workshop σ) (IsGood : σ → Prop) (R : SourceFile → Outcome → Prop)
    (hstep : ∀ f s, IsGood s → R f (w.document f s).1.1 ∧ IsGood (w.document f s).2) (sources : List SourceFile) (s : σ)
    (hs : IsGood s) : List.Forall₂ R sources (w.documentAll sources s).1.1 := by
  induction sources generalizing s with
  | nil => exact .nil
  | cons f rest ih =>
    obtain ⟨hfirst, hnext⟩ := hstep f s hs
    exact .cons hfirst (ih _ hnext)

/-! ## Prose by the outline -/

/-- The prose about an outline is always the same. -/
def IsSteady (w : Workshop σ) (prose : Outline → Except ProseError Prose) : Prop :=
  ∀ o s, (w.provide o s).1.prose = prose o

/-- What becomes of a file, by the prose about each outline. -/
def outcomeOf (r : Registry) (prose : Outline → Except ProseError Prose) (f : SourceFile) : Outcome :=
  match r.extract f.path f.text with
  | .error (.failed cause) => .crashed f.path cause.reason cause.message
  | .error e => .skipped f.path e.reason
  | .ok o => (withProse f.path o.normalize (prose o.normalize)).1

theorem document_steady (w : Workshop σ) (prose : Outline → Except ProseError Prose) (hw : w.IsSteady prose)
    (f : SourceFile) (s : σ) : (w.document f s).1.1 = outcomeOf w.registry prose f := by
  unfold outcomeOf
  rcases w.document_cases f s with ⟨o, hx, ho, -⟩ | ⟨cause, hx, hc⟩ | ⟨e, hx, hne, he⟩
  · rw [ho, hx, hw]
  · rw [hc, hx]
  · rw [he, hx]
    cases e with
    | failed cause => exact absurd rfl (hne cause)
    | malformed m => rfl
    | unsupported path extension => rfl

/-- **Where the prose depends on the outline alone, the outcome depends on the file alone.** -/
theorem documentAll_steady (w : Workshop σ) (prose : Outline → Except ProseError Prose) (hw : w.IsSteady prose)
    (sources : List SourceFile) (s : σ) :
    (w.documentAll sources s).1.1 = sources.map (outcomeOf w.registry prose) := by
  induction sources generalizing s with
  | nil => rfl
  | cons f rest ih =>
    simp only [documentAll_cons, List.map_cons]
    rw [w.document_steady prose hw, ih]

end Workshop

end SourceDoc
