import SourceDoc.Extractor.Registry
import SourceDoc.Proofs.Table

/-!
# Registries that keep paths

A registry keeps paths if the outline of a source names the path that the source was read from.  It does if each of
its extractors does (`keepsPaths_ofExtractors`), so the registry of the built-in extractors does
(`keepsPaths_builtIn`).
-/

namespace SourceDoc

namespace Extractor

/-- An extractor names the path of a source in the outline of it. -/
def KeepsPaths (e : Extractor) : Prop :=
  ∀ (path source : Text) (o : Outline), e.extract path source = .ok o → o.path = path

theorem scriptOutline_path (l : Language) (path source : Text) (o : Outline)
    (h : scriptOutline l path source = .ok o) : o.path = path := by
  rw [scriptOutline, scriptOutlineBy] at h
  cases hparse : Script.parse? (dialectOf l path) source with
  | none =>
    rw [hparse] at h
    cases h
  | some root =>
    rw [hparse] at h
    cases h
    rfl

theorem indentedOutline_path (language path source : Text) (o : Outline)
    (h : Indented.outlineOf language path source = .ok o) : o.path = path := by
  unfold Indented.outlineOf at h
  cases hs : Indented.symbolsOf (Text.lines source) (Text.boundaryLines source).length with
  | error f =>
    simp only [hs] at h
    cases h
  | ok decls =>
    simp only [hs] at h
    cases h
    rfl

theorem bracedOutline_path (language path source : Text) (o : Outline)
    (h : Braced.outlineOf language path source = .ok o) : o.path = path := by
  unfold Braced.outlineOf at h
  cases hf : Braced.functionsOf (Text.lines source) (Text.boundaryLines source).length with
  | error f =>
    simp only [hf] at h
    cases h
  | ok functions =>
    cases ht : Braced.typesOf (Text.lines source) (Text.boundaryLines source).length with
    | error f =>
      simp only [hf, ht] at h
      cases h
    | ok types =>
      simp only [hf, ht] at h
      cases h
      rfl

/-- The built-in extractors keep paths. -/
theorem builtIn_keepsPaths (l : Language) : (builtIn l).KeepsPaths := by
  intro path source o h
  unfold builtIn extract at h
  cases l with
  | javascript => exact scriptOutline_path _ path source o h
  | typescript => exact scriptOutline_path _ path source o h
  | python =>
    cases hi : Indented.outlineOf Language.python.name path source with
    | error f =>
      simp only [hi] at h
      cases h
    | ok o' =>
      simp only [hi] at h
      cases h
      exact indentedOutline_path _ path source o hi
  | go =>
    cases hb : Braced.outlineOf Language.go.name path source with
    | error f =>
      simp only [hb] at h
      cases h
    | ok o' =>
      simp only [hb] at h
      cases h
      exact bracedOutline_path _ path source o hb

end Extractor

namespace Registry

/-- A registry names the path of a source in the outline of it. -/
def KeepsPaths (r : Registry) : Prop :=
  ∀ (path source : Text) (o : Outline), r.extract path source = .ok o → o.path = path

/-- The extractors that are registered keep paths. -/
def AllKeepPaths (r : Registry) : Prop := ∀ p ∈ r.entries, p.2.KeepsPaths

theorem keepsPaths_of_all (r : Registry) (h : r.AllKeepPaths) : r.KeepsPaths := by
  intro path source o hx
  unfold extract forPath at hx
  cases hl : r.lookup? path with
  | none =>
    rw [hl] at hx
    cases hx
  | some e =>
    rw [hl] at hx
    exact h _ (Table.mem_of_get r.entries _ e hl) path source o hx

theorem allKeepPaths_register (r : Registry) (e : Extractor) (h : r.AllKeepPaths) (he : e.KeepsPaths) :
    (r.register e).AllKeepPaths := by
  unfold register AllKeepPaths
  generalize e.extensions = xs
  induction xs generalizing r with
  | nil => exact h
  | cons x xs ih =>
    refine ih ⟨Table.put (Text.lower x) e r.entries⟩ ?_
    intro p hp
    rcases Table.mem_put r.entries _ e p hp with rfl | hp
    · exact he
    · exact h p hp

theorem allKeepPaths_foldl (es : List Extractor) (hes : ∀ e ∈ es, e.KeepsPaths) (r : Registry) (h : r.AllKeepPaths) :
    (es.foldl register r).AllKeepPaths := by
  induction es generalizing r with
  | nil => exact h
  | cons e es ih =>
    exact ih (fun e' he' => hes e' (List.mem_cons_of_mem _ he')) _
      (allKeepPaths_register r e h (hes e List.mem_cons_self))

/-- **Extractors that keep paths make a registry that does.** -/
theorem keepsPaths_ofExtractors (es : List Extractor) (hes : ∀ e ∈ es, e.KeepsPaths) : (ofExtractors es).KeepsPaths :=
  keepsPaths_of_all _ (allKeepPaths_foldl es hes {} (by simp [AllKeepPaths]))

/-- The registry of the built-in extractors keeps paths. -/
theorem keepsPaths_builtIn : builtIn.KeepsPaths := by
  refine keepsPaths_ofExtractors _ ?_
  unfold Extractor.all
  intro e he
  obtain ⟨l, -, rfl⟩ := List.mem_map.mp he
  exact Extractor.builtIn_keepsPaths l

end Registry

end SourceDoc
