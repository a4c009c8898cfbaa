import SourceDoc.Extractor.Basic
import SourceDoc.Indented.Outline
import SourceDoc.Proofs.Indented.Block
import SourceDoc.Proofs.Indented.ClassBody
import SourceDoc.Proofs.List
import SourceDoc.Proofs.Text.Line

/-!
# Reading within the lines of a file

A header lies in the lines that it is read from (`header_lt`).  Where `total`, the number of lines counted by all line
boundaries, is no more than the number of lines, so does every block (`blockEnd_le`).  Then the symbols are read without
a failure, and they and their functions end in the file (`symbolsOf_within`); so a text with no line boundaries but
newlines is read (`exists_extract`).
-/

namespace SourceDoc

/-- The lines on which a symbol ends and the functions of a type do. -/
def Decl.endLines : Decl → List Int
  | .function f => [f.endLine]
  | .type t => t.endLine :: t.functions.map FunctionDecl.endLine

end SourceDoc

namespace SourceDoc.Indented

open Text

variable {lines : List Text} {total start stop i : Nat}

/-! ## Headers -/

theorem headerPieces_lt {bound n : Nat} {depth : Int} {pieces : List Text}
    (h : headerPieces? bound depth lines = some (pieces, n)) : n < lines.length := by
  induction lines generalizing bound depth pieces n with
  | nil => cases bound <;> cases h
  | cons line lines ih =>
    cases bound with
    | zero => cases h
    | succ bound =>
      rw [headerPieces?] at h
      split at h
      · cases h
        exact Nat.zero_lt_succ _
      · obtain ⟨⟨pieces', m⟩, hm, he⟩ := Option.map_eq_some_iff.mp h
        cases he
        exact Nat.succ_lt_succ (ih hm)

theorem header_lt {header : Header} (h : Header.read? (lines.drop i) = some header) :
    i + header.extraLines < lines.length := by
  obtain ⟨⟨pieces, n⟩, hn, rfl⟩ := Option.map_eq_some_iff.mp h
  have := headerPieces_lt hn
  rw [List.length_drop] at this
  simp only
  omega

theorem functionHeader_lt {header : FunctionHeader} (h : FunctionHeader.read? (lines.drop i) = some header) :
    i + header.extraLines < lines.length := by
  obtain ⟨joined, hjoined, h⟩ := Option.bind_eq_some_iff.mp h
  obtain ⟨first, -, h⟩ := Option.bind_eq_some_iff.mp h
  obtain ⟨parts, -, h⟩ := Option.bind_eq_some_iff.mp h
  obtain ⟨returns, -, rfl⟩ := Option.map_eq_some_iff.mp h
  exact header_lt hjoined

theorem classHeader_lt {header : ClassHeader} (h : ClassHeader.read? (lines.drop i) = some header) :
    i + header.extraLines < lines.length := by
  obtain ⟨joined, hjoined, h⟩ := Option.bind_eq_some_iff.mp h
  obtain ⟨parts, -, rfl⟩ := Option.map_eq_some_iff.mp h
  exact header_lt hjoined

/-! ## Blocks and functions -/

theorem blockEnd_le (ht : total ≤ lines.length) (hs : start ≤ lines.length) (depth : Nat) :
    blockEnd depth total start lines ≤ lines.length := by
  unfold blockEnd
  split
  · rename_i n hn
    have := (List.findIdx?_eq_some_iff_getElem.mp hn).1
    rw [List.length_drop] at this
    omega
  · omega

theorem functionAt_end_le (ht : total ≤ lines.length) {isMethod : Bool} {f : FunctionDecl}
    (h : functionAt? lines total isMethod i = some f) : f.endLine.toNat ≤ lines.length := by
  unfold functionAt? at h
  obtain ⟨header, hheader, rfl⟩ := Option.map_eq_some_iff.mp h
  exact blockEnd_le ht (functionHeader_lt hheader) _

/-! ## Classes -/

namespace ClassBody

/-- **The body of a class that ends in the file is read without a failure,** and its functions end in the file. -/
theorem read_within (ht : total ≤ lines.length) (hstop : stop ≤ lines.length) (i : Nat) (b : ClassBody)
    (hb : ∀ f ∈ b.functions, f.endLine.toNat ≤ lines.length) :
    ∃ b', read lines total stop i b = .ok b' ∧ ∀ f ∈ b'.functions, f.endLine.toNat ≤ lines.length := by
  induction i, b using readInduction lines total stop with
  | ends i b hi => exact ⟨b, read_of_end hi, hb⟩
  | beyond i b hi hline =>
    have := List.getElem?_eq_none_iff.mp hline
    omega
  | steps i b line hi hline ih =>
    rw [read_of_line hi hline]
    apply ih
    rcases step_cases lines total i line b with ⟨-, hfunctions, -⟩ | ⟨m, hm, -, hfunctions, -⟩
    · rw [hfunctions]
      exact hb
    · intro f hf
      rcases hfunctions f hf with rfl | hf
      · exact functionAt_end_le ht (functionAt_of_method hm)
      · exact hb f hf

end ClassBody

theorem classAt_within (ht : total ≤ lines.length) (i : Nat) :
    ∃ t?, classAt? lines total i = .ok t? ∧
      ∀ t ∈ t?, t.endLine.toNat ≤ lines.length ∧ ∀ f ∈ t.functions, f.endLine.toNat ≤ lines.length := by
  unfold classAt?
  cases h : ClassHeader.read? (lines.drop i) with
  | none => exact ⟨none, rfl, by simp⟩
  | some header =>
    have hstop := blockEnd_le ht (classHeader_lt h) (indentation ((lines[i]?).getD []))
    obtain ⟨b, hread, hb⟩ := ClassBody.read_within ht hstop
      (afterDocumentation lines (i + header.extraLines + 1)
        (blockEnd (indentation ((lines[i]?).getD [])) total (i + header.extraLines + 1) lines)) {}
      (by simp [ClassBody.functions])
    simp only [hread]
    refine ⟨_, rfl, ?_⟩
    rintro t ⟨⟩
    exact ⟨hstop, hb⟩

/-! ## Symbols -/

theorem symbolAt_within (ht : total ≤ lines.length) (i : Nat) :
    ∃ d?, symbolAt? lines total i = .ok d? ∧ ∀ d ∈ d?, ∀ n ∈ d.endLines, n.toNat ≤ lines.length := by
  unfold symbolAt?
  simp only
  split
  · exact ⟨none, rfl, by simp⟩
  · split
    · refine ⟨_, rfl, ?_⟩
      intro d hd n hn
      obtain ⟨f, hf, rfl⟩ := Option.map_eq_some_iff.mp hd
      rw [List.mem_singleton.mp hn]
      exact functionAt_end_le ht hf
    · split
      · obtain ⟨t?, hclass, hwithin⟩ := classAt_within ht i
        rw [hclass]
        refine ⟨_, rfl, ?_⟩
        intro d hd n hn
        obtain ⟨t, hfound, rfl⟩ := Option.map_eq_some_iff.mp hd
        obtain ⟨hend, hfunctions⟩ := hwithin t hfound
        rcases List.mem_cons.mp hn with rfl | hn
        · exact hend
        · obtain ⟨m, hm, rfl⟩ := List.mem_map.mp hn
          exact hfunctions m hm
      · exact ⟨none, rfl, by simp⟩

/-- **With no more line boundaries than lines, the symbols are read without a failure,** and they and their functions end
in the file. -/
theorem symbolsOf_within (ht : total ≤ lines.length) :
    ∃ decls, symbolsOf lines total = .ok decls ∧ ∀ d ∈ decls, ∀ n ∈ d.endLines, n.toNat ≤ lines.length := by
  obtain ⟨found, hfound, hwithin⟩ := mapM_ok_of_forall (List.range lines.length) fun i _ => symbolAt_within ht i
  refine ⟨found.filterMap id, by rw [symbolsOf, hfound]; rfl, ?_⟩
  intro d hd
  obtain ⟨_, hmem, rfl⟩ := List.mem_filterMap.mp hd
  obtain ⟨i, hi⟩ := exists_of_forall₂ hwithin _ hmem
  exact hi d rfl

/-! ## Outlines -/

theorem extract_eq_ok_iff (path source : Text) (o : Outline) :
    (Extractor.builtIn .python).extract path source = .ok o ↔
      ∃ decls, symbolsOf (Text.lines source) (boundaryLines source).length = .ok decls ∧
        o = { path := path, language := Language.python.name, source := source, decls := decls
              imports := importsOf (Text.lines source), exports := exportsOf (Text.lines source) } := by
  simp only [Extractor.extract, Extractor.builtIn, outlineOf]
  cases symbolsOf (Text.lines source) (boundaryLines source).length with
  | error e => simp [Except.map, Except.mapError]
  | ok decls => simp [Except.map, Except.mapError, eq_comm]

theorem extract_eq_error_iff (path source : Text) :
    (Extractor.builtIn .python).extract path source = .error (.failed (.indented .beyondLastLine)) ↔
      symbolsOf (Text.lines source) (boundaryLines source).length = .error .beyondLastLine := by
  simp only [Extractor.extract, Extractor.builtIn, outlineOf]
  cases symbolsOf (Text.lines source) (boundaryLines source).length with
  | error e => simp [Except.map, Except.mapError]
  | ok decls => simp [Except.map, Except.mapError]

/-- **A text without line boundaries but newlines is read without a failure.** -/
theorem exists_extract {source : Text} (h : ∀ c ∈ source, isBoundary c = true → c = '\n') (path : Text) :
    ∃ o, (Extractor.builtIn .python).extract path source = .ok o := by
  have hcount : (boundaryLines source).length ≤ (Text.lines source).length := length_boundaryLines_le h
  obtain ⟨decls, hdecls, -⟩ := symbolsOf_within hcount
  exact ⟨_, (extract_eq_ok_iff path source _).mpr ⟨decls, hdecls, rfl⟩⟩

end SourceDoc.Indented
