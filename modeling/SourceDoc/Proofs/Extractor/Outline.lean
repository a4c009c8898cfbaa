import SourceDoc.Extractor.Basic
import SourceDoc.Proofs.Braced.LineEnding
import SourceDoc.Proofs.Braced.Start
import SourceDoc.Proofs.Grammar.Rule
import SourceDoc.Proofs.Indented.LineEnding
import SourceDoc.Proofs.Indented.Reading
import SourceDoc.Proofs.Indented.Within
import SourceDoc.Proofs.Page.Markup
import SourceDoc.Proofs.Script.Name
import SourceDoc.Proofs.Script.Span
import SourceDoc.Proofs.Text.Line

/-!
# The outlines of sources

Whatever the language, the name of a type is read as an identifier, so it has no characters that could be read as markup
(`Extractor.marks_types`): a name may stand in a page without being escaped.

The outline of a script stands where the statements of its tree do, whatever the parser is, as long as its trees stand
in the rows of the text in order (`Extractor.scriptOutlineBy_isPlaced`).  The grammar of scripts is such a parser
(`Script.parse?_isPositional`).

A source whose lines end in a carriage return and a newline is documented like the one whose lines end in a newline
alone, if blocks are marked by indentation or by braces: the outline differs in the source that it keeps only, and where
there is none, the reason is the same.

    '\r' ∉ t → extract path (withReturns t) = extract path t, with another source        (extract_withReturns)
-/

namespace SourceDoc

open Text

/-! ## Names of types -/

/-- A class has an identifier for a name. -/
theorem Indented.isIdentifier_classAt {lines : List Text} {total i : Nat} {t : TypeDecl}
    (h : classAt? lines total i = .ok (some t)) : isIdentifier t.name = true := by
  unfold classAt? at h
  cases hheader : ClassHeader.read? (lines.drop i) with
  | none =>
    rw [hheader] at h
    cases h
  | some header =>
    simp only [hheader] at h
    obtain ⟨b, -, ht⟩ := exists_of_map_ok h
    cases ht
    obtain ⟨front, -, hfront⟩ := Option.bind_eq_some_iff.mp hheader
    obtain ⟨⟨name, bases⟩, hread, rfl⟩ := Option.map_eq_some_iff.mp hfront
    obtain ⟨⟨name', rest⟩, hstart, hclass⟩ := Option.bind_eq_some_iff.mp hread
    obtain ⟨named, -, hname⟩ := Option.bind_eq_some_iff.mp hstart
    have hsame : name' = name := by
      simp only at hclass
      split at hclass
      · cases hclass
        rfl
      · split at hclass
        · cases hclass
          rfl
        · cases hclass
      · cases hclass
    exact hsame ▸ isIdentifier_of_identifier hname

theorem Indented.isIdentifier_types {language path source : Text} {o : Outline}
    (h : Indented.outlineOf language path source = .ok o) : ∀ t ∈ o.types, isIdentifier t.name = true := by
  intro t ht
  obtain ⟨decls, hdecls, rfl⟩ := exists_of_map_ok h
  obtain ⟨d, hd, htype⟩ := List.mem_filterMap.mp ht
  obtain ⟨i, -, hat⟩ := (mem_symbolsOf_iff hdecls).mp hd
  cases d with
  | function f => cases htype
  | type u =>
    cases htype
    exact isIdentifier_classAt (classAt_of_symbolAt hat)

theorem Braced.isIdentifier_types {path source : Text} {o : Outline}
    (h : (Extractor.builtIn .go).extract path source = .ok o) : ∀ t ∈ o.types, isIdentifier t.name = true := by
  obtain ⟨o', types, ho', hholds⟩ := extract_holds path source
  cases h.symm.trans ho'
  intro t ht
  rw [hholds.attached] at ht
  obtain ⟨u, hu, rfl⟩ := List.mem_map.mp ht
  obtain ⟨⟨i, name, kind⟩, hstart, hat⟩ := exists_of_mem_mapM hholds.found hu
  obtain ⟨-, line, -, -, hline⟩ := (typeStartsFrom_cases false 0 (lines source)).1 _ hstart
  exact (typeAt_cases hat).1 ▸ hline.named

/-- **The names of types have no marks.** -/
theorem Extractor.marks_types {l : Language} {path source : Text} {o : Outline}
    (h : (builtIn l).extract path source = .ok o) : ∀ t ∈ o.types, Markup.marks t.name = [] := by
  have hword : ∀ {name : Text}, isIdentifier name = true → Markup.marks name = [] := fun hname =>
    Markup.marks_of_class (by decide) (isWord_of_isIdentifier hname)
  have hscript : ∀ l, scriptOutline l path source = .ok o → ∀ t ∈ o.types, Markup.marks t.name = [] := by
    intro l h t ht
    rw [scriptOutline, scriptOutlineBy] at h
    split at h
    · rename_i root hroot
      cases h
      exact Markup.marks_of_class (by decide) (Script.outlineOf_isName _ _ hroot t ht)
    · cases h
  cases l with
  | javascript => exact hscript .javascript h
  | typescript => exact hscript .typescript h
  | python =>
    intro t ht
    cases hread : Indented.outlineOf Language.python.name path source with
    | error e =>
      simp only [extract, builtIn, hread] at h
      cases h
    | ok o' =>
      simp only [extract, builtIn, hread] at h
      cases h
      exact hword (Indented.isIdentifier_types hread t ht)
  | go => exact fun t ht => hword (Braced.isIdentifier_types h t ht)

/-! ## Places in scripts -/

namespace Script

/-- A parser whose trees stand in the lines of the text, their nodes in order. -/
def IsPositional (parse? : Dialect → Text → Option Node) : Prop :=
  ∀ d source root, parse? d source = some root → root.IsOrdered ∧ root.stop.row < Text.lineCount source

/-- The trees that the grammar of scripts reads are in order, since those of every grammar are. -/
theorem parse?_isPositional : IsPositional parse? := by
  intro d source root h
  obtain ⟨read, hread, rfl⟩ := Option.map_eq_some_iff.mp h
  have hrow : (({} : Grammar.Place).after source).row = source.count '\n' := by
    rw [Grammar.Place.row_after]
    exact Nat.zero_add _
  have hread := (Grammar.parse?_between hread).sublist (List.filter_sublist (p := (·.kind ≠ .empty)))
  refine ⟨Grammar.Tree.isOrdered_iff.mpr (hrow ▸ hread), ?_⟩
  rw [Text.lineCount_eq, ← hrow]
  exact Nat.lt_succ_self _

end Script

namespace Extractor

/-- **Symbols stand where they are declared.**  A script is malformed, or the lines of its symbols, imports and exports
are those of the statements of its tree. -/
theorem scriptOutlineBy_isPlaced {parse? : Script.Dialect → Text → Option Script.Node}
    (hparse : Script.IsPositional parse?) (l : Language) (path source : Text) :
    (parse? (dialectOf l path) source = none ∧ scriptOutlineBy parse? l path source = .error (.malformed { path })) ∨
      ∃ root o, parse? (dialectOf l path) source = some root ∧ scriptOutlineBy parse? l path source = .ok o ∧
        Script.IsPlaced source root o := by
  rw [scriptOutlineBy]
  cases htree : parse? (dialectOf l path) source with
  | none => exact .inl ⟨rfl, rfl⟩
  | some root =>
    obtain ⟨hroot, hrows⟩ := hparse _ _ _ htree
    exact .inr ⟨root, _, rfl, rfl, Script.outlineOf_isPlaced l.name path hroot hrows⟩

/-- A script with an import, an interface and a variable whose value is a function. -/
def sampleScript : Text :=
  "import a from 'b';\nexport interface A \x7b\n  m(): void;\n\x7d\nconst f = () => 1;\n".toList

theorem scriptOutlineBy_sample : ∃ root o,
    scriptOutlineBy Script.parse? .typescript "a.ts".toList sampleScript = .ok o ∧ Script.IsPlaced sampleScript root o ∧
    o.decls.map (fun d => (d.name, d.startLine, d.endLine)) = [(['A'], 2, 4), (['f'], 5, 5)] := by
  have hdecls : (scriptOutline .typescript "a.ts".toList sampleScript).toOption.map
      (fun o => o.decls.map fun d => (d.name, d.startLine, d.endLine)) = some [(['A'], 2, 4), (['f'], 5, 5)] := by
    rw [show sampleScript = _ from String.toList_ofList]
    decide +kernel
  rcases scriptOutlineBy_isPlaced Script.parse?_isPositional .typescript "a.ts".toList sampleScript with
    ⟨-, h⟩ | ⟨root, o, -, h, hplaced⟩
  · rw [scriptOutline, h] at hdecls
    cases hdecls
  · rw [scriptOutline, h] at hdecls
    exact ⟨root, o, h, hplaced, Option.some.inj hdecls⟩

/-- A default export that starts on the line before the alias of a type that it exports: its line is the first of the
two and is listed last. -/
theorem scriptOutline_straggling : ∃ o,
    scriptOutline .typescript "a.ts".toList "export default\ntype A = number;\n".toList = .ok o ∧
      ¬o.exports.Pairwise fun a b => a.startLine ≤ b.startLine := by
  have hlines : (scriptOutline .typescript "a.ts".toList "export default\ntype A = number;\n".toList).toOption.map
      (fun o => o.exports.map Export.startLine) = some [2, 1] := by
    rw [show "export default\ntype A = number;\n".toList = _ from String.toList_ofList]
    decide +kernel
  obtain ⟨o, ho, hlines⟩ := Option.map_eq_some_iff.mp hlines
  refine ⟨o, ?_, ?_⟩
  · cases hresult : scriptOutline .typescript "a.ts".toList "export default\ntype A = number;\n".toList with
    | error e =>
      rw [hresult] at ho
      cases ho
    | ok o' =>
      rw [hresult] at ho
      cases ho
      rfl
  · intro h
    rw [← List.pairwise_map (f := Export.startLine) (R := fun a b => a ≤ b), hlines] at h
    exact absurd h (by decide)

end Extractor

/-! ## Line endings -/

namespace Extractor

/-- **Line endings do not matter** for the languages that are read line by line. -/
theorem extract_withReturns (l : Language) (hl : l = .python ∨ l = .go) (path : Text) {t : Text} (ht : '\r' ∉ t) :
    (builtIn l).extract path (withReturns t) =
      ((builtIn l).extract path t).map fun o => { o with source := withReturns t } := by
  unfold extract builtIn
  rcases hl with rfl | rfl
  · simp only [Indented.outlineOf_withReturns _ path ht]
    cases Indented.outlineOf Language.python.name path t <;> rfl
  · simp only [Braced.outlineOf_withReturns _ path ht]
    cases Braced.outlineOf Language.go.name path t <;> rfl

/-- A method with a documentation over two lines, which ends in a backslash, and a generator. -/
def returnsSample : Text :=
  "class C:\n  '''One\n  two\\'''\n\n  def f(self,\n    a):\n    yield a\n".toList

theorem extract_withReturns_sample :
    '\r' ∉ returnsSample ∧ ((builtIn .python).extract [] returnsSample).isOk = true ∧
      (builtIn .python).extract [] (withReturns returnsSample) =
        ((builtIn .python).extract [] returnsSample).map fun o => { o with source := withReturns returnsSample } := by
  have hsample : returnsSample = _ := String.toList_ofList
  have ht : '\r' ∉ returnsSample := by
    rw [hsample]
    decide
  have hnewlines : ∀ c ∈ returnsSample, isBoundary c = true → c = '\n' := by
    rw [hsample]
    decide
  have hok : ((builtIn .python).extract [] returnsSample).isOk = true := by
    obtain ⟨o, ho⟩ := Indented.exists_extract hnewlines []
    rw [ho]
    rfl
  exact ⟨ht, hok, extract_withReturns .python (.inl rfl) [] ht⟩

end Extractor

end SourceDoc
