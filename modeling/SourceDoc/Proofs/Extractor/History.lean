import SourceDoc.Extractor.Step
import SourceDoc.Proofs.Table
import SourceDoc.Proofs.Text.Order

/-!
# Registries over time

After any steps, the extractors in force are those that were registered since the registry was last made anew, beginning
with the built-in ones and those of plug-ins.  The last of them that declares the extension of a path is the one for the
path:

    (runAll {} steps).2.lookup? path = chosen? (inForce steps) path                           (runAll_serves)

A step that fails leaves the registry as it was (`run_error`), so no part of it counts.
-/

namespace SourceDoc

/-- The extensions that an extractor declares, in lower case. -/
def Extractor.keys (e : Extractor) : List Text := e.extensions.map Text.lower

/-- An extractor declares an extension, in whatever case. -/
def Extractor.Declares (e : Extractor) (extension : Text) : Prop := Text.lower extension ∈ e.keys

instance (e : Extractor) (extension : Text) : Decidable (e.Declares extension) :=
  inferInstanceAs (Decidable (_ ∈ _))

/-- The extractor at an entry point that has one. -/
def EntryPoint.offered? (p : EntryPoint) : Option Extractor :=
  match p.content with
  | .ok (.extractor e) => some e
  | _ => none

namespace Registry

/-! ## The extractors in force -/

/-- The extractors in force after a step, the first to be registered first.  What is no extractor is not registered, and
plug-ins one of which has no extractor to offer change nothing. -/
def Step.inForce (es : List Extractor) : Step → List Extractor
  | .discover false _ => Extractor.all
  | .discover true plugins =>
    match plugins.mapM EntryPoint.offered? with
    | some offered => Extractor.all ++ offered
    | none => es
  | .register (some e) => es ++ [e]
  | _ => es

/-- The extractors in force after some steps from the start. -/
def inForce (steps : List Step) : List Extractor := steps.foldl Step.inForce []

/-- The last of some extractors that declares the extension of a path. -/
def chosen? (es : List Extractor) (path : Text) : Option Extractor :=
  (es.filter fun e => e.Declares (Path.splitExtension path).2).getLast?

/-- A registry is what some extractors make of it when they are registered one after another. -/
structure Serves (es : List Extractor) (r : Registry) : Prop where
  lookup : ∀ path, r.lookup? path = chosen? es path
  supports : ∀ path, r.supports path = true ↔ ∃ e ∈ es, e.Declares (Path.splitExtension path).2
  served : ∀ path e, chosen? es path = some e →
    r.forPath path = .ok e ∧ ∀ source, r.extract path source = e.extract path source
  refused : ∀ path, chosen? es path = none →
    r.forPath path = .error (.unsupported path (Path.splitExtension path).2) ∧
      ∀ source, r.extract path source = .error (.unsupported path (Path.splitExtension path).2)
  extensions_increasing : r.extensions.Pairwise Text.IsStrictlyBefore
  mem_extensions : ∀ x, x ∈ r.extensions ↔ ∃ e ∈ es, x ∈ e.keys

/-! ## Registration -/

/-- Under each extension, the registry has the last of some extractors that declares it. -/
def Holds (es : List Extractor) (r : Registry) : Prop :=
  ∀ x, Table.get? x r.entries = (es.filter fun e => decide (x ∈ e.keys)).getLast?

theorem get_register (r : Registry) (e : Extractor) (x : Text) :
    Table.get? x (r.register e).entries =
      if x ∈ e.keys then some e else Table.get? x r.entries := by
  unfold register Extractor.keys
  simp only
  generalize r.entries = entries
  induction e.extensions generalizing entries with
  | nil => rfl
  | cons y ys ih =>
    rw [List.foldl_cons, ih, Table.get_put, List.map_cons]
    by_cases hys : x ∈ ys.map Text.lower
    · rw [if_pos hys, if_pos (List.mem_cons_of_mem _ hys)]
    · rw [if_neg hys]
      by_cases hy : Text.lower y = x
      · rw [if_pos hy, if_pos (List.mem_cons.mpr (.inl hy.symm))]
      · rw [if_neg hy, if_neg]
        intro h
        rcases List.mem_cons.mp h with h | h
        · exact hy h.symm
        · exact hys h

theorem holds_empty : Holds [] {} := by
  intro x
  rfl

theorem Holds.register {es : List Extractor} {r : Registry} (h : Holds es r) (e : Extractor) :
    Holds (es ++ [e]) (r.register e) := by
  intro x
  rw [get_register, h x, List.filter_append]
  by_cases hx : x ∈ e.keys
  · have hlast : [e].filter (fun e => decide (x ∈ e.keys)) = [e] := List.filter_cons_of_pos (decide_eq_true hx)
    rw [if_pos hx, hlast, List.getLast?_concat]
  · have hnone : [e].filter (fun e => decide (x ∈ e.keys)) = [] := List.filter_cons_of_neg (by simpa using hx)
    rw [if_neg hx, hnone, List.append_nil]

theorem Holds.foldl {es : List Extractor} {r : Registry} (h : Holds es r) (more : List Extractor) :
    Holds (es ++ more) (more.foldl Registry.register r) := by
  induction more generalizing es r with
  | nil =>
    rw [List.append_nil]
    exact h
  | cons e more ih =>
    have := ih (h.register e)
    rwa [List.append_assoc, List.singleton_append] at this

theorem holds_builtIn : Holds Extractor.all builtIn := holds_empty.foldl Extractor.all

/-! ## Discovery -/

theorem EntryPoint.extractor_cases (p : EntryPoint) :
    (∃ e, p.offered? = some e ∧ p.extractor = .ok e) ∨ (p.offered? = none ∧ ∃ e, p.extractor = .error e) := by
  obtain ⟨name, content⟩ := p
  unfold EntryPoint.offered? EntryPoint.extractor
  match content with
  | .error reason => exact .inr ⟨rfl, _, rfl⟩
  | .ok (.extractor e) => exact .inl ⟨e, rfl, rfl⟩
  | .ok .other => exact .inr ⟨rfl, _, rfl⟩
  | .ok (.failing cause) => exact .inr ⟨rfl, _, rfl⟩

/-- Plug-ins are registered one after another if each has an extractor to offer, and otherwise there is no registry. -/
theorem foldlM_extractor (plugins : List EntryPoint) (r : Registry) :
    (∃ offered, plugins.mapM EntryPoint.offered? = some offered ∧
        plugins.foldlM (fun r p => p.extractor.map r.register) r = .ok (offered.foldl register r)) ∨
      (plugins.mapM EntryPoint.offered? = none ∧
        ∃ e, plugins.foldlM (fun r p => p.extractor.map r.register) r = .error e) := by
  induction plugins generalizing r with
  | nil => exact .inl ⟨[], rfl, rfl⟩
  | cons p plugins ih =>
    rw [List.mapM_cons, List.foldlM_cons]
    rcases EntryPoint.extractor_cases p with ⟨e, hoffered, hp⟩ | ⟨hoffered, e, hp⟩
    · rw [hoffered, hp]
      rcases ih (r.register e) with ⟨offered, hmore, hfold⟩ | ⟨hmore, error, hfold⟩
      · refine .inl ⟨e :: offered, ?_, hfold⟩
        rw [hmore]
        rfl
      · refine .inr ⟨?_, error, hfold⟩
        rw [hmore]
        rfl
    · rw [hoffered, hp]
      exact .inr ⟨rfl, e, rfl⟩

/-! ## Steps -/

/-- **A step keeps track of the extractors in force.** -/
theorem Holds.run {es : List Extractor} {r : Registry} (h : Holds es r) (step : Step) :
    Holds (step.inForce es) (step.run r).2 := by
  cases step with
  | discover includesPlugins plugins =>
    show Holds _ (r.change (Registry.discover includesPlugins plugins)).2
    cases includesPlugins with
    | false => exact holds_builtIn
    | true =>
      rw [Step.inForce, Registry.discover, if_pos rfl]
      rcases foldlM_extractor plugins builtIn with ⟨offered, hoffered, hfold⟩ | ⟨hoffered, e, hfold⟩
      · rw [hoffered, hfold]
        exact holds_builtIn.foldl offered
      · rw [hoffered, hfold]
        exact h
  | register offered =>
    cases offered with
    | none => exact h
    | some e => exact h.register e
  | _ => exact h

theorem Holds.runAll {es : List Extractor} {r : Registry} (h : Holds es r) (steps : List Step) :
    Holds (steps.foldl Step.inForce es) (r.runAll steps).2 := by
  induction steps generalizing es r with
  | nil => exact h
  | cons step steps ih => exact ih (h.run step)

/-- A step that fails leaves the registry as it was. -/
theorem run_error {r : Registry} {step : Step} {e : StepError} (h : (step.run r).1 = .error e) :
    (step.run r).2 = r := by
  have hchange : ∀ changed, (r.change changed).1 = .error e → (r.change changed).2 = r := by
    intro changed hfails
    cases changed with
    | ok r' => cases hfails
    | error _ => rfl
  cases step with
  | discover includesPlugins plugins => exact hchange _ h
  | register offered => exact hchange _ h
  | _ => rfl

/-! ## Look-ups -/

theorem chosen_isSome {es : List Extractor} {path : Text} :
    (chosen? es path).isSome = true ↔ ∃ e ∈ es, e.Declares (Path.splitExtension path).2 := by
  unfold chosen?
  rw [Option.isSome_iff_ne_none, ne_eq, List.getLast?_eq_none_iff, List.filter_eq_nil_iff]
  simp only [decide_eq_true_eq, not_forall, not_not, exists_prop]

theorem Holds.lookup {es : List Extractor} {r : Registry} (h : Holds es r) (path : Text) :
    r.lookup? path = chosen? es path := h _

theorem Holds.mem_keys {es : List Extractor} {r : Registry} (h : Holds es r) (x : Text) :
    x ∈ r.entries.map Prod.fst ↔ ∃ e ∈ es, x ∈ e.keys := by
  rw [← Table.get_isSome, h x, Option.isSome_iff_ne_none, ne_eq, List.getLast?_eq_none_iff, List.filter_eq_nil_iff]
  simp only [decide_eq_true_eq, not_forall, not_not, exists_prop]

/-- All that a registry answers follows from the extractors that it has. -/
theorem Holds.serves {es : List Extractor} {r : Registry} (h : Holds es r) : Serves es r where
  lookup := h.lookup
  supports := by
    intro path
    rw [supports, h.lookup, chosen_isSome]
  served := by
    intro path e he
    have hfor : r.forPath path = .ok e := by rw [forPath, h.lookup, he]
    refine ⟨hfor, ?_⟩
    intro source
    rw [extract, hfor]
  refused := by
    intro path hnone
    have hfor : r.forPath path = .error (.unsupported path (Path.splitExtension path).2) := by
      rw [forPath, h.lookup, hnone]
    refine ⟨hfor, ?_⟩
    intro source
    rw [extract, hfor]
  extensions_increasing := Text.sortedUnique_increasing _
  mem_extensions := by
    intro x
    rw [extensions, Text.mem_sortedUnique, h.mem_keys]

/-- **After any steps the last extractor in force that declares an extension has it,** and a step that fails changes
nothing. -/
theorem runAll_serves (steps : List Step) :
    Serves (inForce steps) (runAll {} steps).2 ∧
      ∀ (step : Step) e, (step.run (runAll {} steps).2).1 = .error e →
        (step.run (runAll {} steps).2).2 = (runAll {} steps).2 :=
  ⟨(holds_empty.runAll steps).serves, fun _ _ => run_error⟩

end Registry

end SourceDoc
