import SourceDoc.Extractor.Basic
import SourceDoc.Indented.Outline
import SourceDoc.Proofs.Indented.Symbol
import SourceDoc.Proofs.Indented.Within
import SourceDoc.Proofs.List
import SourceDoc.Proofs.Text.Blank

/-!
# Where the symbols of a file lie

The outline of a file has one symbol for every header at the left margin, in the order of the lines.  Each symbol ends
with its block, so a symbol whose header is below that of another starts after the other has ended:

    (Extractor.builtIn .python).extract path source = .ok o → Geometry (lines of source) o.decls      (outline_geometry)
-/

namespace SourceDoc.Indented

open Text

/-! ## Headers of symbols -/

/-- The header of a symbol. -/
inductive SymbolHeader where
  | function (header : FunctionHeader)
  | type (header : ClassHeader)

namespace SymbolHeader

/-- How many lines follow the first one. -/
def extraLines : SymbolHeader → Nat
  | function header => header.extraLines
  | type header => header.extraLines

/-- The symbol is of the kind of the header and has its name. -/
def Names : SymbolHeader → Decl → Prop
  | function header, .function f => f.name = header.first.name
  | type header, .type t => t.name = header.name
  | _, _ => False

/-- The header that starts on line `i` at the left margin: that of a function where the line starts one, or that of a
class where the line starts one. -/
def at? (lines : List Text) (i : Nat) : Option SymbolHeader :=
  let line := (lines[i]?).getD []
  if isBlankText line ∨ indentation line ≠ 0 then none
  else if (functionStart? (strip line)).isSome then (FunctionHeader.read? (lines.drop i)).map function
  else if (classStart? (strip line)).isSome then (ClassHeader.read? (lines.drop i)).map type
  else none

/-- The line of a header at the left margin closes every block. -/
theorem closesAt {lines : List Text} {i : Nat} {header : SymbolHeader} (h : at? lines i = some header) (depth : Nat) :
    ClosesAt lines depth i := by
  unfold at? at h
  cases hline : lines[i]? with
  | none => simp [hline, isBlankText] at h
  | some line =>
    simp only [hline, Option.getD_some] at h
    split at h
    · cases h
    · rename_i hmargin
      simp only [not_or, Bool.not_eq_true, not_not, ne_eq] at hmargin
      exact ⟨line, hline, hmargin.1, by omega⟩

end SymbolHeader

/-- The lines with a header of a symbol, in order. -/
def headerLines (lines : List Text) : List Nat :=
  (List.range lines.length).filter fun i => (SymbolHeader.at? lines i).isSome

/-- A symbol stands on line `i`, where its header is, and ends with its block; the members of a class lie inside it. -/
structure LiesAt (lines : List Text) (total i : Nat) (d : Decl) : Prop where
  starts : d.startLine = (i : Int) + 1
  block : ∃ header stop, SymbolHeader.at? lines i = some header ∧ header.Names d ∧ d.endLine = (stop : Nat) ∧
    IsBlock lines total i (i + header.extraLines) stop ∧ ∀ t, d = .type t → MembersLaidOut (i + header.extraLines) t

/-- **There is a symbol on a line exactly if a header starts there,** and it lies there. -/
theorem symbolAt_cases {lines : List Text} {total i : Nat} {found : Option Decl}
    (h : symbolAt? lines total i = .ok found) :
    (SymbolHeader.at? lines i = none ∧ found = none) ∨ ∃ d, found = some d ∧ LiesAt lines total i d := by
  unfold symbolAt? at h
  simp only [strip_eq_nil_iff] at h
  by_cases hskip : isBlankText ((lines[i]?).getD []) = true ∨ indentation ((lines[i]?).getD []) ≠ 0
  · have hat : SymbolHeader.at? lines i = none := by
      simp only [SymbolHeader.at?, hskip, if_true]
    simp only [hskip, if_true] at h
    cases h
    exact .inl ⟨hat, rfl⟩
  · simp only [hskip, if_false] at h
    by_cases hfunction : (functionStart? (strip ((lines[i]?).getD []))).isSome = true
    · have hat : SymbolHeader.at? lines i = (FunctionHeader.read? (lines.drop i)).map .function := by
        simp only [SymbolHeader.at?, hskip, if_false, hfunction, if_true]
      simp only [hfunction, if_true] at h
      cases hf : functionAt? lines total false i with
      | none =>
        rw [hf] at h
        cases h
        rw [Option.map_eq_none_iff.mp hf] at hat
        exact .inl ⟨hat, rfl⟩
      | some f =>
        rw [hf] at h
        cases h
        obtain ⟨header, stop, hheader, hname, hstart, hend, hblock⟩ := functionAt_isBlock hf
        rw [hheader] at hat
        exact .inr ⟨_, rfl, hstart, .function header, stop, hat, hname, hend, hblock, by simp⟩
    · by_cases hclass : (classStart? (strip ((lines[i]?).getD []))).isSome = true
      · have hat : SymbolHeader.at? lines i = (ClassHeader.read? (lines.drop i)).map .type := by
          simp only [SymbolHeader.at?, hskip, if_false, hfunction, hclass, if_true]
          rfl
        simp only [hfunction, hclass, if_true] at h
        cases ht : classAt? lines total i with
        | error e =>
          rw [ht] at h
          cases h
        | ok t =>
          rw [ht] at h
          cases h
          rcases classAt_cases ht with ⟨hheader, rfl⟩ |
            ⟨header, t, stop, hheader, rfl, hname, hstart, hend, hblock, hmembers⟩
          · rw [hheader] at hat
            exact .inl ⟨hat, rfl⟩
          · rw [hheader] at hat
            refine .inr ⟨_, rfl, hstart, .type header, stop, hat, hname, hend, hblock, ?_⟩
            intro t' he
            cases he
            exact hmembers
      · have hat : SymbolHeader.at? lines i = none := by
          simp only [SymbolHeader.at?, hskip, if_false, hfunction, hclass]
          rfl
        simp only [hfunction, hclass] at h
        cases h
        exact .inl ⟨hat, rfl⟩

/-! ## All symbols -/

theorem symbols_lie {lines : List Text} {total : Nat} (is : List Nat) (found : List (Option Decl))
    (h : is.mapM (symbolAt? lines total) = .ok found) :
    List.Forall₂ (LiesAt lines total) (is.filter fun i => (SymbolHeader.at? lines i).isSome)
      (found.filterMap id) := by
  induction is generalizing found with
  | nil =>
    cases h
    exact .nil
  | cons i is ih =>
    rw [List.mapM_cons] at h
    cases hi : symbolAt? lines total i with
    | error e =>
      rw [hi] at h
      cases h
    | ok d? =>
      cases his : is.mapM (symbolAt? lines total) with
      | error e =>
        rw [hi, his] at h
        cases h
      | ok more =>
        rw [hi, his] at h
        cases h
        rcases symbolAt_cases hi with ⟨hnone, rfl⟩ | ⟨d, rfl, hlies⟩
        · rw [List.filter_cons_of_neg (by simp [hnone])]
          exact ih more his
        · obtain ⟨header, stop, hsome, -⟩ := hlies.block
          rw [List.filter_cons_of_pos (by simp [hsome])]
          exact .cons hlies (ih more his)

/-- How the symbols of a file lie; `total` is the number of its lines, counted by all line boundaries. -/
structure Geometry (lines : List Text) (total : Nat) (decls : List Decl) : Prop where
  /-- Every header at the left margin has its symbol, and there are no other symbols. -/
  symbols : List.Forall₂ (LiesAt lines total) (headerLines lines) decls
  increasing : (decls.map Decl.startLine).Pairwise (· < ·)
  spans : ∀ d ∈ decls, 1 ≤ d.startLine ∧ d.startLine ≤ d.endLine
  /-- Below the header of a symbol no other starts before the symbol ends. -/
  apart : ∀ d ∈ decls, ∀ d' ∈ decls, ∀ (i : Nat) (header : SymbolHeader), d.startLine = (i : Int) + 1 →
    SymbolHeader.at? lines i = some header → ((i + header.extraLines : Nat) : Int) + 1 < d'.startLine →
      d.endLine < d'.startLine

theorem LiesAt.span {lines : List Text} {total i : Nat} {d : Decl} (h : LiesAt lines total i d) :
    1 ≤ d.startLine ∧ d.startLine ≤ d.endLine := by
  obtain ⟨header, stop, -, -, hend, hblock, -⟩ := h.block
  have hle := hblock.header_le
  have hlt := hblock.lt_stop
  rw [h.starts, hend]
  omega

/-- A symbol whose header is below that of another starts after the other has ended. -/
theorem LiesAt.apart {lines : List Text} {total i j : Nat} {d d' : Decl} {header : SymbolHeader}
    (h : LiesAt lines total i d) (hheader : SymbolHeader.at? lines i = some header) (h' : LiesAt lines total j d')
    (hlt : ((i + header.extraLines : Nat) : Int) + 1 < d'.startLine) : d.endLine < d'.startLine := by
  obtain ⟨header', stop, hat, -, hend, hblock, -⟩ := h.block
  obtain ⟨below, -, hbelow, -⟩ := h'.block
  rw [hheader] at hat
  cases hat
  rw [h'.starts] at hlt ⊢
  have := hblock.stop_le (j := j) (by omega) (SymbolHeader.closesAt hbelow _)
  rw [hend]
  omega

section

variable {lines : List Text} {total : Nat} {is : List Nat} {decls : List Decl}

theorem startLines_eq (h : List.Forall₂ (LiesAt lines total) is decls) :
    decls.map Decl.startLine = is.map fun i : Nat => (i : Int) + 1 := by
  induction h with
  | nil => rfl
  | cons hd _ ih => rw [List.map_cons, List.map_cons, hd.starts, ih]

theorem geometry_of_lie (h : List.Forall₂ (LiesAt lines total) (headerLines lines) decls) :
    Geometry lines total decls := by
  refine ⟨h, ?_, ?_, ?_⟩
  · rw [startLines_eq h, List.pairwise_map]
    have hrange : (headerLines lines).Pairwise (· < ·) := List.pairwise_lt_range.filter _
    exact hrange.imp fun hlt => by omega
  · intro d hd
    obtain ⟨i, hi⟩ := exists_of_forall₂ h d hd
    exact hi.span
  · intro d hd d' hd' i header hstart hheader hlt
    obtain ⟨i', hi⟩ := exists_of_forall₂ h d hd
    obtain ⟨j, hj⟩ := exists_of_forall₂ h d' hd'
    have hsame : i' = i := by
      have := hi.starts
      omega
    exact (hsame ▸ hi).apart hheader hj hlt

end

/-- **The symbols of a file lie in order, each with its block.** -/
theorem outline_geometry (path source : Text) (o : Outline)
    (h : (Extractor.builtIn .python).extract path source = .ok o) :
    Geometry (Text.lines source) (boundaryLines source).length o.decls := by
  unfold Extractor.extract Extractor.builtIn at h
  cases ho : outlineOf Language.python.name path source with
  | error f =>
    simp only [ho] at h
    cases h
  | ok o' =>
    simp only [ho] at h
    cases h
    unfold outlineOf symbolsOf at ho
    cases hfound : (List.range (Text.lines source).length).mapM
        (symbolAt? (Text.lines source) (boundaryLines source).length) with
    | error e =>
      simp only [hfound] at ho
      cases ho
    | ok found =>
      simp only [hfound] at ho
      cases ho
      exact geometry_of_lie (symbols_lie _ found hfound)

/-- A function over two lines, and a class with a constructor, a method and an attribute. -/
def sampleSource : Text :=
  "def f(a,\n b):\n pass\nclass C:\n x = 1\n\n def __init__(self):\n  pass\n def g(self): pass\n".toList

theorem outline_geometry_sample :
    ∃ o, (Extractor.builtIn .python).extract [] sampleSource = .ok o ∧
      Geometry (Text.lines sampleSource) (boundaryLines sampleSource).length o.decls := by
  have hnewlines : ∀ c ∈ sampleSource, isBoundary c = true → c = '\n' := by
    rw [show sampleSource = _ from String.toList_ofList]
    decide
  obtain ⟨o, ho⟩ := exists_extract hnewlines []
  exact ⟨o, ho, outline_geometry [] sampleSource o ho⟩

end SourceDoc.Indented
