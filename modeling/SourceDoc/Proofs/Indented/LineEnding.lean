import SourceDoc.Indented.Outline
import SourceDoc.Proofs.Indented.ClassBody
import SourceDoc.Proofs.Indented.Yield
import SourceDoc.Proofs.Text.LineEnding

/-!
# Line endings in indented sources

Nothing that is read off the lines of an indented source depends on carriage returns at their ends.  Most readers strip
the blanks around a line first; the others are the readers of documentation, which cuts lines at marks and strips only
their right ends, and of code, which goes through a line character by character (`codeOf_sameLine`).

    SameLines lines lines' → symbolsOf lines' total = symbolsOf lines total              (symbolsOf_sameLines)
    '\r' ∉ t → outlineOf language path (withReturns t) = outlineOf language path t,
      with another source                                                               (outlineOf_withReturns)
-/

namespace SourceDoc.Indented

open Text

variable {line line' : Text} {lines lines' : List Text}

/-! ## Headers and blocks -/

theorem headerPieces_sameLines (h : SameLines lines lines') (bound : Nat) (depth : Int) :
    headerPieces? bound depth lines' = headerPieces? bound depth lines := by
  induction h generalizing bound depth with
  | nil => rfl
  | cons hline _ ih =>
    cases bound with
    | zero => rfl
    | succ bound =>
      rw [headerPieces?, headerPieces?, hline.strip_eq]
      simp only [ih]

theorem header_sameLines (h : SameLines lines lines') : Header.read? lines' = Header.read? lines := by
  unfold Header.read?
  rw [headerPieces_sameLines h]

theorem blockEnd_sameLines (h : SameLines lines lines') (indent total start : Nat) :
    blockEnd indent total start lines' = blockEnd indent total start lines := by
  unfold blockEnd
  rw [(h.drop start).findIdx_eq]
  intro line line' hline
  rw [hline.isBlankText_eq]
  cases hblank : isBlankText line with
  | true => rfl
  | false => rw [hline.indentation_eq hblank]

theorem firstCode_sameLines (h : SameLines lines lines') (start stop : Nat) :
    firstCode? lines' start stop = firstCode? lines start stop := by
  unfold firstCode?
  rw [((h.take stop).drop start).findIdx_eq]
  intro line line' hline
  rw [hline.isBlankText_eq]

theorem decorators_sameLines (h : SameLines lines lines') (i : Nat) : decorators lines' i = decorators lines i := by
  unfold decorators
  rw [List.map_reverse, List.map_reverse, (h.take i).map_eq fun _ _ hline => hline.strip_eq]

/-! ## Documentation -/

theorem longQuotes_plain {mark : Text} (h : mark ∈ longQuotes) : '\r' ∉ mark ∧ mark ≠ [] := by
  revert mark
  decide

theorem linesUpTo_sameLines {mark : Text} (hm : mark ∈ longQuotes) (h : SameLines lines lines') :
    SameLines (linesUpTo mark lines) (linesUpTo mark lines') := by
  obtain ⟨hr, hne⟩ := longQuotes_plain hm
  induction h with
  | nil => exact .nil
  | @cons line line' rest rest' hline _ ih =>
    have hbreak := hline.breakOn_fst_eq hr hne
    rw [linesUpTo, linesUpTo]
    cases hb : breakOn? mark line with
    | none =>
      rw [hb, Option.map_none, Option.map_eq_none_iff] at hbreak
      rw [hbreak]
      exact .cons hline ih
    | some found =>
      rw [hb] at hbreak
      obtain ⟨found', hb', hfst⟩ := Option.map_eq_some_iff.mp hbreak
      rw [hb']
      exact .cons (.inl hfst) .nil

theorem indentations_sameLines (h : SameLines lines lines') :
    (lines'.filter (!isBlankText ·)).map indentation = (lines.filter (!isBlankText ·)).map indentation := by
  induction h with
  | nil => rfl
  | @cons line line' rest rest' hline _ ih =>
    rw [List.filter_cons, List.filter_cons, hline.isBlankText_eq]
    cases hblank : isBlankText line with
    | true => exact ih
    | false =>
      show indentation line' :: _ = indentation line :: _
      rw [hline.indentation_eq hblank, ih]

theorem unindent_sameLines (h : SameLines lines lines') (first : Text) : unindent first lines' = unindent first lines := by
  unfold unindent
  rw [indentations_sameLines h]
  generalize least ((lines.filter (!isBlankText ·)).map indentation) = margin
  have hmap : lines'.map (fun line => stripRight (line.drop margin)) = lines.map fun line => stripRight (line.drop margin) :=
    h.map_eq fun _ _ hline => (hline.drop margin).stripRight_eq
  simp only [hmap]

theorem documentation_sameLines (h : SameLines lines lines') (start stop : Nat) :
    documentation? lines' start stop = documentation? lines start stop := by
  unfold documentation?
  rw [firstCode_sameLines h]
  congr 1
  funext i
  rw [(h.getD i).strip_eq]
  simp only
  cases hq : longQuote? (dropQuoteLetter (strip ((lines[i]?).getD []))) with
  | none => rfl
  | some mark =>
    have hlines := linesUpTo_sameLines (longQuote_mem hq) (h.drop (i + 1))
    simp only [Option.bind_some, unindent_sameLines hlines]

theorem afterDocumentation_sameLines (h : SameLines lines lines') (start stop : Nat) :
    afterDocumentation lines' start stop = afterDocumentation lines start stop := by
  unfold afterDocumentation
  rw [firstCode_sameLines h]
  cases firstCode? lines start stop with
  | none => rfl
  | some i =>
    simp only [(h.getD i).strip_eq]
    cases hq : longQuote? (dropLeft isQuoteLetter (strip ((lines[i]?).getD []))) with
    | none => rfl
    | some mark =>
      obtain ⟨hr, hne⟩ := longQuotes_plain (longQuote_mem hq)
      simp only [(h.drop (i + 1)).findIdx_eq fun _ _ hline => hline.contains_eq hr hne, h.length_eq]

/-! ## Code -/

theorem longQuote_append_return (t : Text) : longQuote? (t ++ ['\r']) = longQuote? t := by
  unfold longQuote? longQuotes
  simp only [List.find?_cons, List.find?_nil, isPrefixOf_append_return (show '\r' ∉ "\"\"\"".toList by decide),
    isPrefixOf_append_return (show '\r' ∉ "'''".toList by decide)]

/-- A quote is open in a line only if it holds no carriage return. -/
def IsPlainQuote (quote : Option Text) : Prop := ∀ q ∈ quote, '\r' ∉ q

theorem isPlainQuote_none : IsPlainQuote none := by simp [IsPlainQuote]

theorem isPlainQuote_long {t q : Text} (h : longQuote? t = some q) : IsPlainQuote (some q) := by
  intro q' hmem
  cases hmem
  exact (longQuotes_plain (longQuote_mem h)).1

theorem isPlainQuote_short {c : Char} (h : c = '"' ∨ c = '\'') : IsPlainQuote (some [c]) := by
  intro q hmem
  cases hmem
  rcases h with rfl | rfl <;> decide

/-- **A carriage return at the end of a line is a character of its code,** unless a text or a comment hides it.  What
the line leaves open is the same. -/
theorem codeOf_append_return {quote : Option Text} (hq : IsPlainQuote quote) (skip : Nat) (line : Text) :
    IsSameLine (codeOf quote skip line).1 (codeOf quote skip (line ++ ['\r'])).1 ∧
      (codeOf quote skip (line ++ ['\r'])).2 = (codeOf quote skip line).2 ∧ IsPlainQuote (codeOf quote skip line).2 := by
  induction line generalizing quote skip with
  | nil =>
    have hleft : IsPlainQuote (codeOf quote skip []).2 := fun q hmem => hq q (Option.mem_filter_iff.mp hmem).1
    cases skip with
    | succ n => exact ⟨.inl rfl, rfl, hleft⟩
    | zero =>
      cases quote with
      | none => exact ⟨.inr rfl, rfl, hleft⟩
      | some q =>
        cases q with
        | nil => exact ⟨.inl rfl, rfl, hleft⟩
        | cons c q =>
          have hc : c ≠ '\r' := fun h => hq (c :: q) rfl (by simp [h])
          rw [List.nil_append, codeOf_quoted, List.isPrefixOf, show (c == '\r') = false by simpa using hc]
          exact ⟨.inl rfl, rfl, hleft⟩
  | cons c line ih =>
    cases skip with
    | succ n => exact ih hq n
    | zero =>
      cases quote with
      | some q =>
        rw [List.cons_append, codeOf_quoted, codeOf_quoted, ← List.cons_append, isPrefixOf_append_return (hq q rfl)]
        split
        · exact ih isPlainQuote_none _
        · exact ih hq _
      | none =>
        rw [List.cons_append, codeOf_plain, codeOf_plain, ← List.cons_append, longQuote_append_return]
        split
        · exact ⟨.inl rfl, rfl, isPlainQuote_none⟩
        · cases hlong : longQuote? (c :: line) with
          | some q => exact ih (isPlainQuote_long hlong) _
          | none =>
            simp only
            split
            · rename_i hc
              exact ih (isPlainQuote_short hc) 0
            · obtain ⟨hcode, hleft, hplain⟩ := ih isPlainQuote_none 0
              refine ⟨?_, hleft, hplain⟩
              rcases hcode with hcode | hcode
              · exact .inl (congrArg (c :: ·) hcode)
              · exact .inr (congrArg (c :: ·) hcode)

theorem codeOf_sameLine (h : IsSameLine line line') {quote : Option Text} (hq : IsPlainQuote quote) :
    IsSameLine (codeOf quote 0 line).1 (codeOf quote 0 line').1 ∧
      (codeOf quote 0 line').2 = (codeOf quote 0 line).2 ∧ IsPlainQuote (codeOf quote 0 line).2 := by
  have := codeOf_append_return hq 0 line
  rcases h with rfl | rfl
  · exact ⟨.inl rfl, rfl, this.2.2⟩
  · exact this

theorem hasWordFrom_append_return {word : Text} (hw : '\r' ∉ word) (hne : word ≠ []) (isOpen : Bool) (t : Text) :
    hasWordFrom word isOpen (t ++ ['\r']) = hasWordFrom word isOpen t := by
  induction t generalizing isOpen with
  | nil =>
    have hp : word.isPrefixOf ['\r'] = false := by
      have := isPrefixOf_append_return hw []
      rw [List.nil_append] at this
      rw [this]
      cases word with
      | nil => exact absurd rfl hne
      | cons c word => rfl
    simp [hasWordFrom, hp]
  | cons c t ih =>
    have hp := isPrefixOf_append_return hw (c :: t)
    rw [List.cons_append] at hp ⊢
    rw [hasWordFrom, hasWordFrom, ih, hp]
    congr 1
    cases hpre : word.isPrefixOf (c :: t) with
    | false => simp only [Bool.and_false, Bool.false_and]
    | true =>
      -- The character after the word may be the carriage return, which is no word character.
      have hlen : word.length ≤ (c :: t).length := (List.isPrefixOf_iff_prefix.mp hpre).length_le
      rw [← List.cons_append, List.drop_append_of_le_length hlen]
      cases (c :: t).drop word.length with
      | nil => simp [show isWord '\r' = false by decide]
      | cons d rest => rfl

theorem hasWord_sameLine (h : IsSameLine line line') {word : Text} (hw : '\r' ∉ word) (hne : word ≠ []) :
    hasWord word line' = hasWord word line := by
  rcases h with rfl | rfl
  · rfl
  · exact hasWordFrom_append_return hw hne true line

theorem yieldsFrom_sameLines (h : SameLines lines lines') {quote : Option Text} (hq : IsPlainQuote quote)
    (nested : Option Nat) : yieldsFrom quote nested lines' = yieldsFrom quote nested lines := by
  induction h generalizing quote nested with
  | nil => rfl
  | @cons line line' rest rest' hline _ ih =>
    obtain ⟨hcode, hleft, hplain⟩ := codeOf_sameLine hline hq
    have hword := hasWord_sameLine hcode (show '\r' ∉ yieldWord by decide) (by decide)
    rw [yieldsFrom, yieldsFrom, hline.isBlankText_eq]
    simp only [hleft, hword, hcode.strip_eq, ih hplain]
    cases hblank : isBlankText line with
    | true => simp only [Bool.or_true, if_true]
    | false => rw [hline.indentation_eq hblank]

theorem yields_sameLines (h : SameLines lines lines') (start stop : Nat) :
    yields lines' start stop = yields lines start stop := by
  unfold yields
  rw [afterDocumentation_sameLines h, yieldsFrom_sameLines ((h.take stop).drop _) isPlainQuote_none]

/-! ## Symbols -/

theorem functionAt_sameLines (h : SameLines lines lines') (total : Nat) (isMethod : Bool) (i : Nat)
    (hi : isBlankText ((lines[i]?).getD []) = false) :
    functionAt? lines' total isMethod i = functionAt? lines total isMethod i := by
  unfold functionAt? FunctionHeader.read?
  rw [header_sameLines (h.drop i)]
  simp only [(h.getD i).indentation_eq hi, blockEnd_sameLines h, decorators_sameLines h, yields_sameLines h,
    documentation_sameLines h]

theorem instanceAttributes_sameLines (h : SameLines lines lines') (start stop : Nat) :
    instanceAttributes lines' start stop = instanceAttributes lines start stop := by
  unfold instanceAttributes
  exact ((h.take stop).drop start).filterMap_eq fun _ _ hline => by rw [hline.strip_eq]

theorem addMethod_sameLines (h : SameLines lines lines') (i : Nat) (b : ClassBody) (m : FunctionDecl) :
    b.addMethod lines' i m = b.addMethod lines i m := by
  unfold ClassBody.addMethod
  rw [instanceAttributes_sameLines h]

/-- A line that is not blank has the same effect on the body of a class. -/
theorem step_sameLines (h : SameLines lines lines') (total i : Nat) (hi : lines[i]? = some line)
    (hline : IsSameLine line line') (b : ClassBody) :
    ClassBody.step lines' total i line' b = ClassBody.step lines total i line b := by
  unfold ClassBody.step
  rw [hline.strip_eq]
  by_cases hblank : strip line = [] ∨ startsWith (strip line) ['#'] = true
  · simp only [if_pos hblank]
  · have hcode : isBlankText line = false := by
      rw [not_or, strip_eq_nil_iff, Bool.not_eq_true] at hblank
      exact hblank.1
    have hat : isBlankText ((lines[i]?).getD []) = false := by rwa [hi]
    simp only [if_neg hblank, hline.indentation_eq hcode, functionAt_sameLines h total true i hat,
      addMethod_sameLines h]

theorem classBody_sameLines (h : SameLines lines lines') (total stop i : Nat) (b : ClassBody) :
    ClassBody.read lines' total stop i b = ClassBody.read lines total stop i b := by
  induction i, b using ClassBody.readInduction lines total stop with
  | ends i b hi => rw [ClassBody.read_of_end hi, ClassBody.read_of_end hi]
  | beyond i b hi hline =>
    have hline' : lines'[i]? = none := by
      rw [List.getElem?_eq_none_iff] at hline ⊢
      rwa [← h.length_eq]
    rw [ClassBody.read_of_beyond hi hline, ClassBody.read_of_beyond hi hline']
  | steps i b line hi hline ih =>
    have hlt : i < lines'.length := h.length_eq ▸ (List.getElem?_eq_some_iff.mp hline).1
    have hline' := List.getElem?_eq_getElem hlt
    have hsame := h.getD i
    rw [hline, hline', Option.getD_some, Option.getD_some] at hsame
    rw [ClassBody.read_of_line hi hline, ClassBody.read_of_line hi hline', step_sameLines h total i hline hsame, ih]

theorem classAt_sameLines (h : SameLines lines lines') (total i : Nat)
    (hi : isBlankText ((lines[i]?).getD []) = false) : classAt? lines' total i = classAt? lines total i := by
  unfold classAt? ClassHeader.read?
  rw [header_sameLines (h.drop i)]
  simp only [(h.getD i).indentation_eq hi, blockEnd_sameLines h, afterDocumentation_sameLines h, classBody_sameLines h,
    documentation_sameLines h]

theorem symbolAt_sameLines (h : SameLines lines lines') (total i : Nat) :
    symbolAt? lines' total i = symbolAt? lines total i := by
  unfold symbolAt?
  simp only [(h.getD i).strip_eq, strip_eq_nil_iff]
  cases hblank : isBlankText ((lines[i]?).getD []) with
  | true => rfl
  | false => rw [(h.getD i).indentation_eq hblank, functionAt_sameLines h total false i hblank,
      classAt_sameLines h total i hblank]

theorem symbolsOf_sameLines (h : SameLines lines lines') (total : Nat) :
    symbolsOf lines' total = symbolsOf lines total := by
  unfold symbolsOf
  rw [h.length_eq, funext (symbolAt_sameLines h total)]

/-! ## Imports and exports -/

theorem uncommented_sameLine (h : IsSameLine line line') : uncommented line' = uncommented line :=
  (h.before '#').strip_eq

theorem importsFrom_sameLines (h : SameLines lines lines') (opened : Option OpenImport) (n : Nat) :
    importsFrom opened n lines' = importsFrom opened n lines := by
  induction h generalizing opened n with
  | nil => rfl
  | cons hline _ ih =>
    cases opened <;> simp only [importsFrom, uncommented_sameLine hline, ih]

theorem exportLiteral_sameLine (h : IsSameLine line line') (n : Int) :
    exportLiteral? n line' = exportLiteral? n line := by
  unfold exportLiteral?
  rcases h.after (show '\r' ∉ "__all__".toList by decide) with ⟨hnone, hnone'⟩ | ⟨rest, rest', hrest, hrest', hsame⟩
  · rw [hnone, hnone']
  · rw [hrest, hrest', Option.bind_some, Option.bind_some]
    simp only
    rcases (hsame.stripLeft.dropHead (show '\r' ∉ ['+'] by decide)).after (show '\r' ∉ ['='] by decide) with
      ⟨hnone, hnone'⟩ | ⟨value, value', hvalue, hvalue', hsame⟩
    · rw [hnone, hnone']
    · rw [hvalue, hvalue', Option.bind_some, Option.bind_some, uncommented_sameLine hsame]

theorem exportsFrom_sameLines (h : SameLines lines lines') (opened : Option OpenExport) (n : Nat) :
    exportsFrom opened n lines' = exportsFrom opened n lines := by
  induction h generalizing opened n with
  | nil => rfl
  | cons hline _ ih =>
    cases opened <;> simp only [exportsFrom, uncommented_sameLine hline, exportLiteral_sameLine hline, ih]

/-- **The outline does not depend on carriage returns before newlines,** but for the source itself. -/
theorem outlineOf_withReturns (language path : Text) {t : Text} (ht : '\r' ∉ t) :
    outlineOf language path (withReturns t) =
      (outlineOf language path t).map fun o => { o with source := withReturns t } := by
  have h := lines_withReturns t
  unfold outlineOf importsOf exportsOf
  simp only [length_boundaryLines_withReturns ht, symbolsOf_sameLines h, importsFrom_sameLines h,
    exportsFrom_sameLines h]
  cases symbolsOf (Text.lines t) (boundaryLines t).length <;> rfl

end SourceDoc.Indented
