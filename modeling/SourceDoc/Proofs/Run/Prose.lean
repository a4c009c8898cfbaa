import SourceDoc.Config.Provider
import SourceDoc.Proofs.Chat.Runner
import SourceDoc.Proofs.Run.Steady

/-!
# Files whose prose does not come

A file with an outline is documented, with its prose or with the reason why there is none, exactly where the runner
reports what goes wrong (`document_isDocumented_iff`).  While the other side of a line sends nothing but replies that
are foreseen, no file is given up for its prose (`documentAll_isDocumented`).
-/

namespace SourceDoc

/-! ## Prose -/

namespace Prose

/-- What a reply comes to: prose, or the words in which its absence is reported. -/
inductive IsAnswer : Except ProseError Prose → Prop where
  | prose (p : Prose) : IsAnswer (.ok p)
  | report (e : ProseError) (hreported : e.isReported = true) (hmessage : e.message ≠ []) : IsAnswer (.error e)

theorem isAnswer_ofReply_iff (reply : Except Chat.Failure Text) :
    IsAnswer (ofReply reply) ↔ Chat.IsReported reply := by
  cases reply with
  | error f =>
    rw [Chat.isReported_error]
    constructor
    · intro h
      cases h with
      | report _ hreported _ => exact hreported
    · intro h
      exact .report _ h (f.shown_ne_nil h)
  | ok t =>
    simp only [Chat.isReported_ok, iff_true, ofReply]
    cases readPayload t with
    | error e => exact .report _ rfl (List.append_ne_nil_of_left_ne_nil (by decide) _)
    | ok members => exact .prose _

end Prose

section

variable (runner : Chat.Runner) (options : PromptOptions) (address : Text) (haddress : runner.address? = some address)

include haddress in
theorem Provider.isAnswer_generate_iff (o : Outline) (l : Chat.Line) :
    Prose.IsAnswer ((Provider.model runner options).generate o l).1.prose ↔
      Chat.Runner.NamesScheme address ∧ l.next.1.IsForeseen := by
  rw [← runner.ask_reported_iff address haddress (Prompt.build options o) true l]
  exact Prose.isAnswer_ofReply_iff _

include haddress in
theorem Provider.generate_unforeseen (o : Outline) (l : Chat.Line)
    (h : ¬ (Chat.Runner.NamesScheme address ∧ l.next.1.IsForeseen)) :
    ∃ f : Chat.Failure, f.isForeseen = false ∧
      ((Provider.model runner options).generate o l).1.prose = .error (.noReply f) := by
  rw [← runner.ask_reported_iff address haddress (Prompt.build options o) true l, Chat.IsReported] at h
  push Not at h
  obtain ⟨f, hask, hf⟩ := h
  refine ⟨f, Bool.eq_false_iff.mpr hf, ?_⟩
  change Prose.ofReply (runner.ask (Prompt.build options o) true l).1 = _
  rw [hask]
  rfl

theorem Provider.generate_isForeseen (o : Outline) {l : Chat.Line} (h : l.IsForeseen) :
    ((Provider.model runner options).generate o l).2.IsForeseen :=
  h.ask runner (Prompt.build options o) true

end

/-! ## Files -/

/-- A file is documented from its outline, with prose or with words for its absence. -/
inductive Outcome.IsDocumented (path : Text) (o : Outline) : Outcome → Prop where
  | prose (p : Prose) : IsDocumented path o (.documented path (Document.assemble o (some p) none))
  | report (reason : Text) (h : reason ≠ []) :
    IsDocumented path o (.documented path (Document.assemble o none (some reason)))

namespace Workshop

theorem withProse_isDocumented_iff (path : Text) (o : Outline) (prose : Except ProseError Prose) :
    (withProse path o prose).1.IsDocumented path o ↔ Prose.IsAnswer prose := by
  cases prose with
  | ok p => exact iff_of_true (.prose p) (.prose p)
  | error e =>
    unfold withProse
    by_cases hreported : e.isReported = true
    · simp only [hreported, if_true]
      constructor
      · intro h
        generalize hd : Document.assemble o none (some e.message) = d at h
        cases h with
        | prose p => exact absurd (congrArg Document.proseError hd) (by simp [Document.assemble])
        | report reason hreason =>
          have hmessage : e.message = reason := Option.some.inj (congrArg Document.proseError hd)
          exact .report e hreported (hmessage ▸ hreason)
      · intro h
        cases h with
        | report _ _ hmessage => exact .report e.message hmessage
    · simp only [hreported]
      refine iff_of_false (fun h => ?_) (fun h => ?_)
      · cases h
      · cases h with
        | report _ h _ => exact hreported h

variable (w : Workshop Chat.Line) (runner : Chat.Runner) (options : PromptOptions) (address : Text)
  (hprovide : w.provide = (Provider.model runner options).generate) (haddress : runner.address? = some address)

include hprovide haddress in
/-- **A file with an outline is documented exactly where the address names a scheme and the reply is foreseen.** -/
theorem document_isDocumented_iff (f : SourceFile) (o : Outline) (h : w.registry.extract f.path f.text = .ok o)
    (l : Chat.Line) :
    (w.document f l).1.1.IsDocumented f.path o.normalize ↔
      Chat.Runner.NamesScheme address ∧ l.next.1.IsForeseen := by
  rw [(w.document_of_outline f o h l).1, withProse_isDocumented_iff, hprovide]
  exact Provider.isAnswer_generate_iff runner options address haddress o.normalize l

include hprovide haddress in
/-- Elsewhere the file is given up, with the failure as the reason. -/
theorem document_crashed (f : SourceFile) (o : Outline) (h : w.registry.extract f.path f.text = .ok o) (l : Chat.Line)
    (hunforeseen : ¬ (Chat.Runner.NamesScheme address ∧ l.next.1.IsForeseen)) :
    ∃ failure : Chat.Failure, failure.isForeseen = false ∧
      (w.document f l).1.1 = .crashed f.path (ProseError.noReply failure).crashMessage failure.shown := by
  obtain ⟨failure, hfailure, hprose⟩ :=
    Provider.generate_unforeseen runner options address haddress o.normalize l hunforeseen
  refine ⟨failure, hfailure, ?_⟩
  rw [(w.document_of_outline f o h l).1, hprovide, hprose]
  have hreported : (ProseError.noReply failure).isReported = false := hfailure
  simp only [withProse, hreported]
  rfl

include hprovide in
/-- While a file is documented no reply is added. -/
theorem document_isForeseen (f : SourceFile) {l : Chat.Line} (hl : l.IsForeseen) : (w.document f l).2.IsForeseen := by
  cases hx : w.registry.extract f.path f.text with
  | ok o =>
    rw [(w.document_of_outline f o hx l).2, hprovide]
    exact Provider.generate_isForeseen runner options o.normalize hl
  | error e =>
    unfold document
    rw [hx]
    cases e with
    | failed cause => exact hl
    | malformed m => exact hl
    | unsupported path extension => exact hl

/-- A file is documented if it has an outline. -/
def IsDocumentedIn {σ : Type} (w : Workshop σ) (f : SourceFile) (outcome : Outcome) : Prop :=
  ∀ o, w.registry.extract f.path f.text = .ok o → outcome.IsDocumented f.path o.normalize

include hprovide haddress in
/-- Where all replies are foreseen, every file with an outline is documented. -/
theorem documentAll_isDocumented (hscheme : Chat.Runner.NamesScheme address) (sources : List SourceFile)
    (l : Chat.Line) (hl : l.IsForeseen) : List.Forall₂ w.IsDocumentedIn sources (w.documentAll sources l).1.1 := by
  refine w.documentAll_forall₂ Chat.Line.IsForeseen w.IsDocumentedIn ?_ sources l hl
  intro f l hl
  refine ⟨fun o h => ?_, w.document_isForeseen runner options hprovide f hl⟩
  exact (w.document_isDocumented_iff runner options address hprovide haddress f o h l).mpr ⟨hscheme, hl.next.1⟩

end Workshop

/-- A workshop that asks a model over HTTP. -/
def Sample.asking : Workshop Chat.Line where
  registry := Sample.registry
  provide := (Provider.model (.ofOptions {} []) {}).generate

end SourceDoc
