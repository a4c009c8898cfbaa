import SourceDoc.Indented.Outline
import SourceDoc.Proofs.Indented.ClassBody
import SourceDoc.Proofs.List

/-!
# What is read where

What stands at the front of some lines is read from the lines that it stands on: a header (`functionHeader_take`), and a
documentation above a line of code (`afterDocumentation_take`).  The symbols of a file are read on its lines
(`mem_symbolsOf_iff`), and with them all functions (`functions_of_symbolAt`).
-/

namespace SourceDoc

/-- The symbol as a function, or the functions of the type. -/
def Decl.functions : Decl → List FunctionDecl
  | .function f => [f]
  | .type t => t.functions

/-- The functions among the symbols and those of the types. -/
def Outline.allFunctions (o : Outline) : List FunctionDecl := o.decls.flatMap Decl.functions

end SourceDoc

namespace SourceDoc.Indented

open Text

variable {lines lines' : List Text} {total start stop stop' i j : Nat}

/-! ## The first lines -/

theorem drop_eq_append (h : i ≤ j) (lines : List Text) : lines.drop i = (lines.take j).drop i ++ lines.drop j := by
  have hdrop : lines.drop j = (lines.drop i).drop (j - i) := by
    rw [List.drop_drop]
    congr 1
    omega
  rw [List.drop_take, hdrop, List.take_append_drop]

theorem mem_drop_of_le {line : Text} (h : i ≤ j) (hline : line ∈ lines.drop j) : line ∈ lines.drop i := by
  rw [drop_eq_append h]
  exact List.mem_append_right _ hline

theorem getElem_of_take (htake : lines'.take j = lines.take j) (hi : i < j) : lines'[i]? = lines[i]? := by
  rw [← List.getElem?_take_of_lt hi, htake, List.getElem?_take_of_lt hi]

theorem take_of_take (htake : lines'.take j = lines.take j) (hi : i ≤ j) : lines'.take i = lines.take i := by
  have h := congrArg (List.take i) htake
  rwa [List.take_take, List.take_take, Nat.min_eq_left hi] at h

/-- A header is read from its own lines. -/
theorem headerPieces_take {bound n : Nat} {depth : Int} {pieces : List Text}
    (h : headerPieces? bound depth lines = some (pieces, n)) (htake : lines'.take (n + 1) = lines.take (n + 1)) :
    headerPieces? bound depth lines' = some (pieces, n) := by
  induction lines generalizing lines' bound depth pieces n with
  | nil => cases bound <;> cases h
  | cons line lines ih =>
    cases bound with
    | zero => cases h
    | succ bound =>
      cases lines' with
      | nil => cases htake
      | cons line' lines' =>
        rw [List.take_succ_cons, List.take_succ_cons, List.cons.injEq] at htake
        obtain ⟨rfl, htake⟩ := htake
        rw [headerPieces?] at h ⊢
        split at h
        · exact h
        · obtain ⟨⟨pieces', m⟩, hm, he⟩ := Option.map_eq_some_iff.mp h
          cases he
          rw [ih hm htake]
          rfl

theorem header_take {header : Header} (h : Header.read? (lines.drop i) = some header)
    (htake : lines'.take (i + header.extraLines + 1) = lines.take (i + header.extraLines + 1)) :
    Header.read? (lines'.drop i) = some header := by
  obtain ⟨⟨pieces, n⟩, hn, rfl⟩ := Option.map_eq_some_iff.mp h
  have hown : (lines'.drop i).take (n + 1) = (lines.drop i).take (n + 1) := by
    rw [List.take_drop, List.take_drop]
    exact congrArg (List.drop i) htake
  unfold Header.read?
  rw [headerPieces_take hn hown]
  rfl

theorem functionHeader_take {header : FunctionHeader} (h : FunctionHeader.read? (lines.drop i) = some header)
    (htake : lines'.take (i + header.extraLines + 1) = lines.take (i + header.extraLines + 1)) :
    FunctionHeader.read? (lines'.drop i) = some header := by
  obtain ⟨joined, hjoined, h⟩ := Option.bind_eq_some_iff.mp h
  obtain ⟨first, hfirst, h'⟩ := Option.bind_eq_some_iff.mp h
  obtain ⟨parts, hparts, h'⟩ := Option.bind_eq_some_iff.mp h'
  obtain ⟨returns, hreturns, rfl⟩ := Option.map_eq_some_iff.mp h'
  exact Option.bind_eq_some_iff.mpr ⟨joined, header_take hjoined htake, h⟩

theorem classHeader_take {header : ClassHeader} (h : ClassHeader.read? (lines.drop i) = some header)
    (htake : lines'.take (i + header.extraLines + 1) = lines.take (i + header.extraLines + 1)) :
    ClassHeader.read? (lines'.drop i) = some header := by
  obtain ⟨joined, hjoined, h⟩ := Option.bind_eq_some_iff.mp h
  obtain ⟨parts, hparts, rfl⟩ := Option.map_eq_some_iff.mp h
  exact Option.bind_eq_some_iff.mpr ⟨joined, header_take hjoined htake, h⟩

theorem lt_length_of_code (hcode : isBlankText ((lines[i]?).getD []) = false) : i < lines.length := by
  refine Nat.lt_of_not_le fun hle => ?_
  rw [List.getElem?_eq_none hle] at hcode
  cases hcode

/-- The first line of code in a range is found in the lines up to one with code. -/
theorem firstCode_take (hi : start ≤ i) (hcode : isBlankText ((lines[i]?).getD []) = false) :
    ∃ k ≤ i, ∀ lines' stop, lines'.take (i + 1) = lines.take (i + 1) → i < stop →
      firstCode? lines' start stop = some k := by
  have hlen := lt_length_of_code hcode
  have hline : lines[i] ∈ (lines.take (i + 1)).drop start := by
    refine List.mem_of_getElem? (i := i - start) ?_
    rw [List.getElem?_drop, Nat.add_sub_cancel' hi, List.getElem?_take_of_lt (Nat.lt_succ_self i),
      List.getElem?_eq_getElem hlen]
  cases h : ((lines.take (i + 1)).drop start).findIdx? (!isBlankText ·) with
  | none =>
    have := List.findIdx?_eq_none_iff.mp h _ hline
    rw [List.getElem?_eq_getElem hlen, Option.getD_some] at hcode
    simp [hcode] at this
  | some n =>
    have hn := (List.findIdx?_eq_some_iff_getElem.mp h).1
    rw [List.length_drop, List.length_take] at hn
    refine ⟨start + n, by omega, fun lines' stop htake hstop => ?_⟩
    have htop : (lines'.take stop).take (i + 1) = lines.take (i + 1) := by
      rw [List.take_take, Nat.min_eq_left hstop, htake]
    unfold firstCode?
    rw [drop_eq_append (show start ≤ i + 1 by omega), htop, List.findIdx?_append, h]
    rfl

/-- **A documentation that ends above a line with code is read from the lines up to it.** -/
theorem afterDocumentation_take (htake : lines'.take (i + 1) = lines.take (i + 1)) (hi : start ≤ i) (hstop : i < stop)
    (hstop' : i < stop') (hcode : isBlankText ((lines[i]?).getD []) = false)
    (hend : afterDocumentation lines start stop ≤ i) :
    afterDocumentation lines' start stop' = afterDocumentation lines start stop := by
  obtain ⟨k, hk, hfirst⟩ := firstCode_take hi hcode
  have hlen := lt_length_of_code hcode
  unfold afterDocumentation at hend ⊢
  rw [hfirst lines stop rfl hstop] at hend ⊢
  rw [hfirst lines' stop' htake hstop']
  simp only [getElem_of_take htake (Nat.lt_succ_of_le hk)] at hend ⊢
  split
  · rfl
  · rename_i mark hmark
    rw [hmark] at hend
    simp only at hend
    split
    · rfl
    · rename_i hopen
      rw [if_neg hopen, drop_eq_append (show k + 1 ≤ i + 1 by omega) lines, List.findIdx?_append] at hend
      rw [drop_eq_append (show k + 1 ≤ i + 1 by omega) lines', drop_eq_append (show k + 1 ≤ i + 1 by omega) lines,
        htake, List.findIdx?_append, List.findIdx?_append]
      -- The documentation is closed in the lines up to this one.
      cases h : ((lines.take (i + 1)).drop (k + 1)).findIdx? (contains · mark) with
      | some n => rfl
      | none =>
        rw [h, Option.none_or] at hend
        split at hend
        · rename_i n hn
          obtain ⟨m, -, rfl⟩ := Option.map_eq_some_iff.mp hn
          rw [List.length_drop, List.length_take] at hend
          omega
        · omega

/-! ## Functions and symbols -/

theorem functions_of_read {b b' : ClassBody} (h : ClassBody.read lines total stop i b = .ok b') :
    ∀ f ∈ b'.functions, f ∈ b.functions ∨ ∃ i, functionAt? lines total true i = some f := by
  induction i, b using ClassBody.readInduction lines total stop with
  | ends i b hi =>
    rw [ClassBody.read_of_end hi] at h
    cases h
    exact fun f hf => .inl hf
  | beyond i b hi hline =>
    rw [ClassBody.read_of_beyond hi hline] at h
    cases h
  | steps i b line hi hline ih =>
    rw [ClassBody.read_of_line hi hline] at h
    intro f hf
    rcases ih h f hf with hf | hat
    · rcases ClassBody.step_cases lines total i line b with ⟨-, hfunctions, -⟩ | ⟨m, hm, -, hfunctions, -⟩
      · exact .inl (hfunctions ▸ hf)
      · rcases hfunctions f hf with rfl | hf
        · exact .inr ⟨i, ClassBody.functionAt_of_method hm⟩
        · exact .inl hf
    · exact .inr hat

theorem functions_of_classAt {t : TypeDecl} (h : classAt? lines total i = .ok (some t)) :
    ∀ f ∈ t.functions, ∃ i, functionAt? lines total true i = some f := by
  unfold classAt? at h
  cases hheader : ClassHeader.read? (lines.drop i) with
  | none =>
    rw [hheader] at h
    cases h
  | some header =>
    simp only [hheader] at h
    obtain ⟨b, hread, ht⟩ := exists_of_map_ok h
    cases ht
    intro f hf
    refine (functions_of_read hread f hf).resolve_left ?_
    simp [ClassBody.functions]

/-- A symbol is a function where one starts at the left margin and is read. -/
theorem symbolAt_eq_function_iff {f : FunctionDecl} :
    symbolAt? lines total i = .ok (some (.function f)) ↔
      (strip ((lines[i]?).getD []) ≠ [] ∧ indentation ((lines[i]?).getD []) = 0 ∧
        (functionStart? (strip ((lines[i]?).getD []))).isSome = true) ∧ functionAt? lines total false i = some f := by
  unfold symbolAt?
  simp only
  split
  · rename_i hskip
    simp only [reduceCtorEq, Except.ok.injEq, false_iff]
    rintro ⟨⟨hne, hmargin, -⟩, -⟩
    exact hskip.elim hne fun h => h hmargin
  · rename_i hcode
    simp only [not_or, ne_eq, not_not] at hcode
    split
    · rename_i hstart
      cases functionAt? lines total false i with
      | none => simp
      | some f' => simp [hcode, hstart]
    · rename_i hstart
      refine iff_of_false (fun h => ?_) fun h => hstart h.1.2.2
      split at h
      · obtain ⟨t?, -, ht⟩ := exists_of_map_ok h
        cases t? <;> cases ht
      · cases h

/-- A symbol is a type where a class is read. -/
theorem classAt_of_symbolAt {t : TypeDecl} (h : symbolAt? lines total i = .ok (some (.type t))) :
    classAt? lines total i = .ok (some t) := by
  unfold symbolAt? at h
  simp only at h
  split at h
  · cases h
  · split at h
    · cases hat : functionAt? lines total false i with
      | none =>
        rw [hat] at h
        cases h
      | some f =>
        rw [hat] at h
        cases h
    · split at h
      · obtain ⟨t?, hclass, ht⟩ := exists_of_map_ok h
        obtain ⟨t', rfl, ht'⟩ := Option.map_eq_some_iff.mp ht
        cases ht'
        exact hclass
      · cases h

/-- The functions of a symbol are read where they start. -/
theorem functions_of_symbolAt {d : Decl} (h : symbolAt? lines total i = .ok (some d)) :
    ∀ f ∈ d.functions, ∃ isMethod k, functionAt? lines total isMethod k = some f := by
  cases d with
  | function f =>
    intro f' hf'
    rw [List.mem_singleton.mp hf']
    exact ⟨false, i, (symbolAt_eq_function_iff.mp h).2⟩
  | type t => exact fun f hf => ⟨true, functions_of_classAt (classAt_of_symbolAt h) f hf⟩

/-- A symbol of a file is read on one of its lines, and what is read on a line is a symbol of the file. -/
theorem mem_symbolsOf_iff {decls : List Decl} (h : symbolsOf lines total = .ok decls) {d : Decl} :
    d ∈ decls ↔ ∃ i < lines.length, symbolAt? lines total i = .ok (some d) := by
  obtain ⟨found, hfound, he⟩ := exists_of_map_ok h
  rw [← he, List.mem_filterMap]
  constructor
  · rintro ⟨d?, hd?, rfl : d? = some d⟩
    obtain ⟨i, hi, hat⟩ := exists_of_mem_mapM hfound hd?
    exact ⟨i, List.mem_range.mp hi, hat⟩
  · rintro ⟨i, hi, hat⟩
    obtain ⟨d?, hd?, hsame⟩ := exists_of_mapM_ok hfound (List.mem_range.mpr hi)
    rw [hat] at hsame
    cases hsame
    exact ⟨some d, hd?, rfl⟩

end SourceDoc.Indented
