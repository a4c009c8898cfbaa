import SourceDoc.Proofs.Indented.Lookahead
import SourceDoc.Proofs.Indented.Within

/-!
# Reading above other lines

What is read in some lines does not depend on the lines below, if these end every block at once (`EndsBlocks`) and
nothing that is read runs into them: a block ends where it did (`blockEnd_above`), and so do headers and documentations
(`header_above`, `afterDocumentation_above`).  So the functions and classes are the same (`functionAt_above`,
`classAt_above`), and with them the symbols (`symbolAt_above`).
-/

namespace SourceDoc.Indented

open Text

variable {lines below : List Text} {rest start stop i : Nat}

/-- The lines end a block above them, however deep it is; `total` is their number, counted by all line boundaries. -/
def EndsBlocks (total : Nat) (lines : List Text) : Prop := ∀ depth, blockEnd depth total 0 lines = 0

theorem endsBlocks_empty : EndsBlocks 0 [[]] := fun _ => rfl

theorem endsBlocks_margin {line : Text} (hcode : isBlankText line = false) (hmargin : indentation line = 0)
    (total : Nat) (more : List Text) : EndsBlocks total (line :: more) := by
  intro depth
  simp [blockEnd, List.findIdx?_cons, hcode, hmargin]

/-! ## Blocks -/

/-- **A block ends where it did.** -/
theorem blockEnd_above (h : EndsBlocks rest below) (hs : start ≤ lines.length) (depth : Nat) :
    blockEnd depth (lines.length + rest) start (lines ++ below) = blockEnd depth lines.length start lines := by
  have hend := h depth
  unfold blockEnd at hend ⊢
  rw [List.drop_append_of_le_length hs, List.findIdx?_append]
  rw [List.drop_zero] at hend
  cases hinside : (lines.drop start).findIdx? fun line => !isBlankText line && indentation line ≤ depth with
  | some n => rfl
  | none =>
    -- None of these lines ends the block, so the first one below does, or the file ends there.
    have hlen : (lines.drop start).length = lines.length - start := List.length_drop
    cases hbelow : below.findIdx? fun line => !isBlankText line && indentation line ≤ depth with
    | some n =>
      rw [hbelow] at hend
      simp only [Option.none_or, Option.map_some, hlen] at hend ⊢
      omega
    | none =>
      rw [hbelow] at hend
      simp only [Option.none_or, Option.map_none] at hend ⊢
      omega

theorem firstCode_above (hstop : stop ≤ lines.length) :
    firstCode? (lines ++ below) start stop = firstCode? lines start stop := by
  unfold firstCode?
  rw [List.take_append_of_le_length hstop]

/-! ## Documentations -/

/-- No letter is dropped in front of a long quote. -/
theorem dropLeft_longQuote {t mark : Text} (h : longQuote? t = some mark) : dropLeft isQuoteLetter t = t := by
  have hmem : mark ∈ longQuotes := List.mem_of_find?_eq_some h
  have hhead : mark.isPrefixOf t = true := by simpa using List.find?_some h
  obtain ⟨after, rfl⟩ := List.isPrefixOf_iff_prefix.mp hhead
  simp only [longQuotes, List.mem_cons, List.not_mem_nil, or_false] at hmem
  rcases hmem with rfl | rfl <;> rfl

/-- Where a documentation starts after one letter at most, all letters in front of it are dropped. -/
theorem dropLeft_quoteLetter {t mark : Text} (h : longQuote? (dropQuoteLetter t) = some mark) :
    dropLeft isQuoteLetter t = dropQuoteLetter t := by
  cases t with
  | nil => rfl
  | cons c t =>
    rw [dropQuoteLetter] at h ⊢
    by_cases hletter : (isQuoteLetter c && (longQuote? t).isSome) = true
    · rw [if_pos hletter] at h ⊢
      rw [dropLeft, List.dropWhile_cons_of_pos (Bool.and_eq_true_iff.mp hletter).1]
      exact dropLeft_longQuote h
    · rw [if_neg hletter] at h ⊢
      exact dropLeft_longQuote h

theorem linesUpTo_append {mark : Text} (h : lines.any (contains · mark) = true) :
    linesUpTo mark (lines ++ below) = linesUpTo mark lines := by
  induction lines with
  | nil => cases h
  | cons line lines ih =>
    rw [List.cons_append, linesUpTo, linesUpTo]
    cases hb : breakOn? mark line with
    | some parts => rfl
    | none =>
      have hnot : contains line mark = false := by rw [contains, hb]; rfl
      rw [List.any_cons, hnot, Bool.false_or] at h
      simp only [ih h]

/-- A documentation that is closed is closed on its first line or on a later one. -/
theorem closed_cases {mark : Text} (hclosed : documentationRunsOut lines start stop = false)
    (hcode : firstCode? lines start stop = some i)
    (hmark : longQuote? (dropLeft isQuoteLetter (strip ((lines[i]?).getD []))) = some mark) :
    contains ((dropLeft isQuoteLetter (strip ((lines[i]?).getD []))).drop mark.length) mark = true ∨
      (lines.drop (i + 1)).any (contains · mark) = true := by
  simp only [documentationRunsOut, hcode, hmark, Bool.and_eq_false_iff, Bool.not_eq_false'] at hclosed
  exact hclosed

theorem documentation_above (hstop : stop ≤ lines.length) (hclosed : documentationRunsOut lines start stop = false) :
    documentation? (lines ++ below) start stop = documentation? lines start stop := by
  unfold documentation?
  rw [firstCode_above hstop]
  cases hcode : firstCode? lines start stop with
  | none => rfl
  | some i =>
    have hi := (firstCode_bounds hcode).2
    simp only [Option.bind_some, List.getElem?_append_left hi]
    cases hmark : longQuote? (dropQuoteLetter (strip ((lines[i]?).getD []))) with
    | none => rfl
    | some mark =>
      have hletters := dropLeft_quoteLetter hmark
      have hend := closed_cases hclosed hcode (by rw [hletters]; exact hmark)
      rw [hletters] at hend
      simp only [Option.bind_some]
      cases hb : breakOn? mark ((dropQuoteLetter (strip ((lines[i]?).getD []))).drop mark.length) with
      | some parts => rfl
      | none =>
        rcases hend with hend | hend
        · rw [contains, hb] at hend
          cases hend
        · simp only [List.drop_append_of_le_length (show i + 1 ≤ lines.length from hi), linesUpTo_append hend]

theorem afterDocumentation_above (hstop : stop ≤ lines.length)
    (hclosed : documentationRunsOut lines start stop = false) :
    afterDocumentation (lines ++ below) start stop = afterDocumentation lines start stop := by
  unfold afterDocumentation
  rw [firstCode_above hstop]
  cases hcode : firstCode? lines start stop with
  | none => rfl
  | some i =>
    have hi := (firstCode_bounds hcode).2
    simp only [List.getElem?_append_left hi]
    cases hmark : longQuote? (dropLeft isQuoteLetter (strip ((lines[i]?).getD []))) with
    | none => rfl
    | some mark =>
      simp only
      rcases closed_cases hclosed hcode hmark with hend | hend
      · rw [if_pos hend, if_pos hend]
      · rw [List.drop_append_of_le_length (show i + 1 ≤ lines.length from hi), List.findIdx?_append]
        cases hfound : (lines.drop (i + 1)).findIdx? (contains · mark) with
        | some n => rfl
        | none =>
          obtain ⟨line, hmem, hline⟩ := List.any_eq_true.mp hend
          have := List.findIdx?_eq_none_iff.mp hfound line hmem
          rw [hline] at this
          cases this

theorem yields_above (hstop : stop ≤ lines.length) (hclosed : documentationRunsOut lines start stop = false) :
    yields (lines ++ below) start stop = yields lines start stop := by
  unfold yields
  rw [afterDocumentation_above hstop hclosed, List.take_append_of_le_length hstop]

theorem decorators_above (hi : i ≤ lines.length) : decorators (lines ++ below) i = decorators lines i := by
  unfold decorators
  rw [List.take_append_of_le_length hi]

/-! ## Headers -/

theorem headerPieces_above {bound : Nat} {depth : Int} (h : headerRunsOut bound depth lines = false) :
    headerPieces? bound depth (lines ++ below) = headerPieces? bound depth lines := by
  induction lines generalizing bound depth with
  | nil =>
    cases bound with
    | zero => simp [headerPieces?]
    | succ bound => cases h
  | cons line lines ih =>
    cases bound with
    | zero => simp [headerPieces?]
    | succ bound =>
      rw [headerRunsOut] at h
      rw [List.cons_append, headerPieces?, headerPieces?]
      cases hline : headerLine depth none (strip line) with
      | closed piece => rfl
      | goesOn piece depth' =>
        rw [hline] at h
        simp only [ih h]

theorem header_above (hi : i ≤ lines.length) (h : (Lookahead.header i).runsOut lines = false) :
    Header.read? ((lines ++ below).drop i) = Header.read? (lines.drop i) := by
  unfold Header.read?
  rw [List.drop_append_of_le_length hi, headerPieces_above h]

/-! ## Functions -/

theorem functionAt_above (hends : EndsBlocks rest below) (hi : i ≤ lines.length) (isMethod : Bool)
    (hclosed : ∀ l ∈ Lookahead.ofFunction lines lines.length i, l.runsOut lines = false) :
    functionAt? (lines ++ below) (lines.length + rest) isMethod i = functionAt? lines lines.length isMethod i := by
  obtain ⟨hheader, hdocumentation⟩ := List.forall_mem_cons.mp hclosed
  have hread : FunctionHeader.read? ((lines ++ below).drop i) = FunctionHeader.read? (lines.drop i) := by
    unfold FunctionHeader.read?
    rw [header_above hi hheader]
  unfold functionAt?
  rw [hread]
  cases h : FunctionHeader.read? (lines.drop i) with
  | none => rfl
  | some header =>
    have hlt := functionHeader_lt h
    have hbody : i + header.extraLines + 1 ≤ lines.length := hlt
    have hdoc := hdocumentation (.documentation _ _) (by rw [h]; exact List.mem_singleton_self _)
    simp only [Option.map_some, List.getElem?_append_left (show i < lines.length by omega),
      blockEnd_above hends hbody, decorators_above hi]
    have hstop := blockEnd_le (Nat.le_refl _) hbody (indentation ((lines[i]?).getD []))
    rw [yields_above hstop hdoc, documentation_above hstop hdoc]

/-! ## Classes -/

namespace ClassBody

variable {line : Text} {b : ClassBody}

theorem addMethod_above {m : FunctionDecl} (hm : m.endLine.toNat ≤ lines.length) :
    b.addMethod (lines ++ below) i m = b.addMethod lines i m := by
  unfold addMethod instanceAttributes
  rw [List.take_append_of_le_length hm]

theorem step_above (hends : EndsBlocks rest below) (hi : i ≤ lines.length)
    (hclosed : b.startsMethod line = true →
      ∀ l ∈ Lookahead.ofFunction lines lines.length i, l.runsOut lines = false) :
    step (lines ++ below) (lines.length + rest) i line b = step lines lines.length i line b := by
  unfold step
  simp only
  split
  · rfl
  · rename_i hcode
    split
    · rfl
    · rename_i hindent
      split
      · rename_i hstart
        have hmethod : b.startsMethod line = true := by
          simp only [ne_eq, Decidable.not_not] at hindent
          simp only [startsMethod, hcode, hindent, hstart]
          rfl
        rw [functionAt_above hends hi true (hclosed hmethod)]
        cases hm : functionAt? lines lines.length true i with
        | none => rfl
        | some m => simp only [addMethod_above (functionAt_end_le (Nat.le_refl _) hm)]
      · rfl

/-- **The body of a class is the same above other lines.** -/
theorem read_above (hends : EndsBlocks rest below) (hstop : stop ≤ lines.length) (i : Nat) (b : ClassBody)
    (hclosed : ∀ l ∈ lookaheads lines lines.length stop i b, l.runsOut lines = false) :
    read (lines ++ below) (lines.length + rest) stop i b = read lines lines.length stop i b := by
  induction i, b using readInduction lines lines.length stop with
  | ends i b hi => rw [read_of_end hi, read_of_end hi]
  | beyond i b hi hline =>
    have := List.getElem?_eq_none_iff.mp hline
    omega
  | steps i b line hi hline ih =>
    have hlt : i < lines.length := by omega
    rw [lookaheads, if_pos hi, hline] at hclosed
    obtain ⟨hmethod, hrest⟩ := List.forall_mem_append.mp hclosed
    have hstep : step (lines ++ below) (lines.length + rest) i line b = step lines lines.length i line b := by
      refine step_above hends (Nat.le_of_lt hlt) fun hm => ?_
      rwa [if_pos hm] at hmethod
    rw [read_of_line hi hline, read_of_line hi (by rw [List.getElem?_append_left hlt, hline]), hstep]
    exact ih hrest

end ClassBody

theorem classAt_above (hends : EndsBlocks rest below) (hi : i ≤ lines.length)
    (hclosed : ∀ l ∈ Lookahead.ofClass lines lines.length i, l.runsOut lines = false) :
    classAt? (lines ++ below) (lines.length + rest) i = classAt? lines lines.length i := by
  obtain ⟨hheader, hclosed⟩ := List.forall_mem_cons.mp hclosed
  have hread : ClassHeader.read? ((lines ++ below).drop i) = ClassHeader.read? (lines.drop i) := by
    unfold ClassHeader.read?
    rw [header_above hi hheader]
  unfold classAt?
  rw [hread]
  cases h : ClassHeader.read? (lines.drop i) with
  | none => rfl
  | some header =>
    rw [h] at hclosed
    obtain ⟨hdoc, hmembers⟩ := List.forall_mem_cons.mp hclosed
    have hlt := classHeader_lt h
    have hbody : i + header.extraLines + 1 ≤ lines.length := hlt
    have hstop := blockEnd_le (Nat.le_refl _) hbody (indentation ((lines[i]?).getD []))
    simp only [List.getElem?_append_left (show i < lines.length by omega), blockEnd_above hends hbody,
      afterDocumentation_above hstop hdoc, documentation_above hstop hdoc,
      ClassBody.read_above hends hstop _ _ hmembers]

/-! ## Symbols -/

/-- **A symbol is the same above other lines.** -/
theorem symbolAt_above (hends : EndsBlocks rest below) (hi : i < lines.length)
    (hclosed : ∀ l ∈ lookaheadsAt lines lines.length i, l.runsOut lines = false) :
    symbolAt? (lines ++ below) (lines.length + rest) i = symbolAt? lines lines.length i := by
  unfold lookaheadsAt at hclosed
  unfold symbolAt?
  rw [List.getElem?_append_left hi]
  simp only at hclosed ⊢
  split
  · rfl
  · rename_i hmargin
    rw [if_neg hmargin] at hclosed
    split
    · rename_i hfunction
      rw [if_pos hfunction] at hclosed
      rw [functionAt_above hends (Nat.le_of_lt hi) false hclosed]
    · rename_i hfunction
      rw [if_neg hfunction] at hclosed
      split
      · rename_i hclass
        rw [if_pos hclass] at hclosed
        rw [classAt_above hends (Nat.le_of_lt hi) hclosed]
      · rfl

end SourceDoc.Indented
