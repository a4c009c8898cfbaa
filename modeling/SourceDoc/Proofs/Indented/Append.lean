import SourceDoc.Extractor.Basic
import SourceDoc.Proofs.Indented.Above
import SourceDoc.Proofs.Indented.Below
import SourceDoc.Proofs.List
import SourceDoc.Proofs.Text.Line

/-!
# Outlines of texts put together

Where the lines of a text are closed and another text starts at the left margin, the outline of the two texts put
together is that of the first one and, so many lines further down, that of the second one:

    extract path (a ++ b) = (extract path b).map (o.append n)        where extract path a = .ok o       (extract_append)

So what is written at the end of a file changes nothing of what was read above it.
-/

namespace SourceDoc

/-- The outline of two texts put together, the first of which has `n` lines. -/
def Outline.append (o : Outline) (n : Nat) (o' : Outline) : Outline :=
  { o with
    source := o.source ++ o'.source
    decls := o.decls ++ o'.decls.map (Decl.shift n)
    imports := o.imports ++ o'.imports.map (Import.shift n)
    exports := o.exports ++ o'.exports.map (Export.shift n) }

end SourceDoc

namespace SourceDoc.Indented

open Text

variable {lines below : List Text}

/-! ## Symbols -/

section

variable {rest : Nat}

theorem lookaheadsAt_closed (h : ∀ l ∈ lookaheads lines, l.runsOut lines = false) {i : Nat} (hi : i < lines.length) :
    ∀ l ∈ lookaheadsAt lines lines.length i, l.runsOut lines = false :=
  fun l hl => h l (List.mem_flatMap.mpr ⟨i, List.mem_range.mpr hi, hl⟩)

/-- **The symbols of closed lines come first,** and after them those of the lines below. -/
theorem symbolsOf_append (hends : EndsBlocks rest below) (hclosed : ∀ l ∈ lookaheads lines, l.runsOut lines = false) :
    symbolsOf (lines ++ below) (lines.length + rest) =
      (symbolsOf lines lines.length).bind fun decls =>
        (symbolsOf below rest).map fun decls' => decls ++ decls'.map (Decl.shift lines.length) := by
  have habove : (List.range lines.length).mapM (symbolAt? (lines ++ below) (lines.length + rest)) =
      (List.range lines.length).mapM (symbolAt? lines lines.length) := by
    refine mapM_congr_of_mem fun i hi => ?_
    have hi := List.mem_range.mp hi
    exact symbolAt_above hends hi (lookaheadsAt_closed hclosed hi)
  have hbelow : ((List.range below.length).map (lines.length + ·)).mapM
        (symbolAt? (lines ++ below) (lines.length + rest)) =
      ((List.range below.length).mapM (symbolAt? below rest)).map
        (List.map (·.map (Decl.shift lines.length))) := by
    rw [List.mapM_map]
    exact mapM_except_map _ _ fun i => symbolAt_below rest i
  unfold symbolsOf
  rw [List.length_append, List.range_add, List.mapM_append, habove, hbelow]
  cases (List.range lines.length).mapM (symbolAt? lines lines.length) with
  | error e => rfl
  | ok found =>
    cases (List.range below.length).mapM (symbolAt? below rest) with
    | error e => rfl
    | ok found' =>
      show Except.ok ((found ++ found'.map _).filterMap id) = Except.ok _
      rw [List.filterMap_append, filterMap_id_map]

end

/-! ## Outlines -/

/-- The first line of the text is not blank and starts at the left margin. -/
def StartsAtMargin (t : Text) : Prop :=
  ∃ line rest, Text.lines t = line :: rest ∧ isBlankText line = false ∧ indentation line = 0

/-- **The outline of two texts put together is that of the one and then that of the other:** the first is of whole
lines, in which nothing that is begun goes on, and the second starts at the left margin. -/
theorem extract_append (path a b : Text) (ha : IsWholeLines a) (hclosed : IsClosed (wholeLines a))
    (hb : StartsAtMargin b) :
    ∃ o, (Extractor.builtIn .python).extract path a = .ok o ∧
      (Extractor.builtIn .python).extract path (a ++ b) =
        ((Extractor.builtIn .python).extract path b).map (o.append (wholeLines a).length) := by
  obtain ⟨line, rest, hline, hcode, hmargin⟩ := hb
  obtain ⟨hlookaheads, himports, hexports⟩ := hclosed
  rw [Option.isNone_iff_eq_none] at himports hexports
  obtain ⟨decls, hdecls, -⟩ := symbolsOf_within (Nat.le_refl (wholeLines a).length)
  have ends : EndsBlocks (boundaryLines b).length (Text.lines b) := hline ▸ endsBlocks_margin hcode hmargin _ rest
  have hlast : symbolsOf [[]] 0 = .ok [] := by rfl
  have hone : outlineOf Language.python.name path a = .ok
      { path := path, language := Language.python.name, source := a, decls := decls
        imports := importsOf (wholeLines a), exports := exportsOf (wholeLines a) } := by
    have hsymbols : symbolsOf (wholeLines a ++ [[]]) (wholeLines a).length = .ok decls := by
      have := symbolsOf_append endsBlocks_empty hlookaheads
      rw [hdecls, hlast] at this
      simpa [Except.bind, Except.map] using this
    have hi : importsOf (wholeLines a ++ [[]]) = importsOf (wholeLines a) := by
      rw [importsOf_append himports]
      exact List.append_nil _
    have he : exportsOf (wholeLines a ++ [[]]) = exportsOf (wholeLines a) := by
      rw [exportsOf_append hexports]
      exact List.append_nil _
    simp only [outlineOf, ha.lines_eq, ha.length_boundaryLines, hsymbols, hi, he, Except.map]
  have htwo : outlineOf Language.python.name path (a ++ b) =
      (outlineOf Language.python.name path b).map (Outline.append
        { path := path, language := Language.python.name, source := a, decls := decls
          imports := importsOf (wholeLines a), exports := exportsOf (wholeLines a) } (wholeLines a).length) := by
    simp only [outlineOf, lines_append ha, length_boundaryLines_append ha, symbolsOf_append ends hlookaheads, hdecls,
      importsOf_append himports, exportsOf_append hexports, Except.bind]
    cases symbolsOf (Text.lines b) (boundaryLines b).length <;> rfl
  refine ⟨_, by simp only [Extractor.extract, Extractor.builtIn, hone, Except.mapError]; rfl, ?_⟩
  simp only [Extractor.extract, Extractor.builtIn, htwo]
  cases outlineOf Language.python.name path b <;> rfl

/-- Imports and exports over several lines, and a function with a documentation. -/
def upperSource : Text :=
  "from m import (\n a, b)\n__all__ = ['f',\n 'C']\ndef f(x,\n y):\n '''One\n two'''\n yield x\n".toList

/-- A class with a method and a constructor, and an import. -/
def lowerSource : Text :=
  "class C:\n\n @staticmethod\n def g(): pass\n def __init__(self): self.a = 1\nimport os\n".toList

theorem extract_append_sample :
    ∃ o, (Extractor.builtIn .python).extract [] upperSource = .ok o ∧
      (Extractor.builtIn .python).extract [] (upperSource ++ lowerSource) =
        ((Extractor.builtIn .python).extract [] lowerSource).map (o.append (wholeLines upperSource).length) := by
  have hupper : upperSource = _ := String.toList_ofList
  have hlower : lowerSource = _ := String.toList_ofList
  have hwhole : IsWholeLines upperSource := by
    rw [hupper]
    decide
  have hclosed : IsClosed (wholeLines upperSource) := by
    rw [hupper]
    exact ⟨by decide, by decide, by decide⟩
  have hmargin : StartsAtMargin lowerSource := by
    rw [hlower]
    exact ⟨_, _, rfl, by decide, by decide⟩
  exact extract_append [] upperSource lowerSource hwhole hclosed hmargin

end SourceDoc.Indented
