import SourceDoc.Indented.Symbol
import SourceDoc.Proofs.Text.Pattern

/-!
# The search for a yield

The lines of a function are searched one after another.  Between two lines it matters only which long quote is open and
which inner block the lines are in (`YieldScan`), so what is found in lines is found in those above or in those below
(`finds_append`).

Take lines without quotes that are all in the block of a header at some depth.  If the search is in a text, or in a
block whose header is indented no deeper than that, then they change nothing and nothing is found in them
(`after_of_shelters`).  Otherwise the search is behind them as it would be without them, once a line follows that ends
the block (`finds_of_exposed`).
-/

namespace SourceDoc.Indented

open Text

/-! ## The code of a line -/

theorem longQuote_mem {t mark : Text} (h : longQuote? t = some mark) : mark ∈ longQuotes := List.mem_of_find?_eq_some h

theorem codeOf_quoted (q : Text) (c : Char) (rest : Text) :
    codeOf (some q) 0 (c :: rest) =
      if q.isPrefixOf (c :: rest) then codeOf none (q.length - 1) rest
      else codeOf (some q) (if c = '\\' then 1 else 0) rest := rfl

theorem codeOf_plain (c : Char) (rest : Text) :
    codeOf none 0 (c :: rest) =
      if c = '#' then ([], none)
      else
        match longQuote? (c :: rest) with
        | some q => codeOf (some q) (q.length - 1) rest
        | none =>
          if c = '"' ∨ c = '\'' then codeOf (some [c]) 0 rest
          else (c :: (codeOf none 0 rest).1, (codeOf none 0 rest).2) := rfl

/-- A long quote is of quotes, and of more than one. -/
theorem longQuotes_cases {q : Text} (h : q ∈ longQuotes) :
    ∃ c rest, q = c :: rest ∧ isTextQuote c = true ∧ 1 < q.length := by
  simp only [longQuotes, List.mem_cons, List.not_mem_nil, or_false] at h
  rcases h with rfl | rfl <;> exact ⟨_, _, rfl, by decide, by decide⟩

/-- A quote that a line leaves open is a long one. -/
theorem codeOf_left {quote : Option Text} (hq : ∀ q ∈ quote, q ∈ longQuotes ∨ q.length = 1) (skip : Nat) (line : Text) :
    ∀ q ∈ (codeOf quote skip line).2, q ∈ longQuotes := by
  induction line generalizing quote skip with
  | nil =>
    intro q hmem
    obtain ⟨hopen, hlong⟩ := Option.mem_filter_iff.mp hmem
    exact (hq q hopen).resolve_right fun h => by simp [h] at hlong
  | cons c line ih =>
    cases skip with
    | succ n => exact ih hq n
    | zero =>
      cases quote with
      | some q =>
        rw [codeOf_quoted]
        split
        · exact ih (by simp) _
        · exact ih hq _
      | none =>
        rw [codeOf_plain]
        split
        · simp
        · cases hlong : longQuote? (c :: line) with
          | some q => exact ih (by rintro q' ⟨⟩; exact .inl (longQuote_mem hlong)) _
          | none =>
            simp only
            split
            · exact ih (by rintro q' ⟨⟩; exact .inr rfl) _
            · exact ih (by simp) _

/-- The code of a line is what is left of it. -/
theorem codeOf_sublist (quote : Option Text) (skip : Nat) (line : Text) :
    (codeOf quote skip line).1.Sublist line := by
  induction line generalizing quote skip with
  | nil => exact List.Sublist.refl _
  | cons c line ih =>
    cases skip with
    | succ n => exact (ih quote n).cons c
    | zero =>
      cases quote with
      | some q =>
        rw [codeOf_quoted]
        split
        · exact (ih _ _).cons c
        · exact (ih _ _).cons c
      | none =>
        rw [codeOf_plain]
        split
        · exact List.nil_sublist _
        · cases longQuote? (c :: line) with
          | some q => exact (ih _ _).cons c
          | none =>
            simp only
            split
            · exact (ih _ _).cons c
            · exact (ih none 0).cons_cons c

/-! ## Lines without quotes -/

/-- There is no quote in the line. -/
def IsUnquoted (line : Text) : Prop := ∀ c ∈ line, isTextQuote c = false

instance (line : Text) : Decidable (IsUnquoted line) := decidableForallMem line _

theorem isUnquoted_of_blank {line : Text} (h : isBlankText line = true) : IsUnquoted line := by
  intro c hc
  have hblank : isBlank c = true := List.all_eq_true.mp h c hc
  rw [← Bool.not_eq_true]
  intro hquote
  simp only [isTextQuote, Bool.or_eq_true, decide_eq_true_eq] at hquote
  rcases hquote with rfl | rfl <;> cases hblank

theorem not_prefix_of_unquoted {q : Text} (hq : q ∈ longQuotes) {c : Char} {line : Text} (hc : isTextQuote c = false) :
    q.isPrefixOf (c :: line) = false := by
  obtain ⟨d, rest, rfl, hd, -⟩ := longQuotes_cases hq
  have hne : (d == c) = false := by
    rw [beq_eq_false_iff_ne]
    rintro rfl
    rw [hc] at hd
    cases hd
  rw [List.isPrefixOf, hne, Bool.false_and]

/-- A line without quotes leaves none open. -/
theorem codeOf_unquoted {line : Text} (h : IsUnquoted line) : (codeOf none 0 line).2 = none := by
  induction line with
  | nil => rfl
  | cons c line ih =>
    obtain ⟨hc, hline⟩ := List.forall_mem_cons.mp h
    have hnone : longQuote? (c :: line) = none :=
      List.find?_eq_none.mpr fun q hq => by simp [not_prefix_of_unquoted hq hc]
    have hplain : ¬ (c = '"' ∨ c = '\'') := by simpa [isTextQuote] using hc
    rw [codeOf_plain, hnone]
    simp only [if_neg hplain]
    split
    · rfl
    · exact ih hline

/-- In a text, a line without quotes has no code and leaves the text open. -/
theorem codeOf_unquoted_text {q : Text} (hq : q ∈ longQuotes) (skip : Nat) {line : Text} (h : IsUnquoted line) :
    codeOf (some q) skip line = ([], some q) := by
  induction line generalizing skip with
  | nil =>
    obtain ⟨-, -, -, -, hlong⟩ := longQuotes_cases hq
    simp [codeOf, hlong]
  | cons c line ih =>
    obtain ⟨hc, hline⟩ := List.forall_mem_cons.mp h
    cases skip with
    | succ n => exact ih n hline
    | zero =>
      rw [codeOf_quoted, not_prefix_of_unquoted hq hc]
      exact ih _ hline

/-- The word stands in no blank line. -/
theorem hasWord_blank (quote : Option Text) {line : Text} (h : isBlankText line = true) :
    hasWord yieldWord (codeOf quote 0 line).1 = false := by
  rw [← Bool.not_eq_true]
  intro hword
  have hy : 'y' ∈ line := (codeOf_sublist quote 0 line).subset ((infix_of_hasWord hword).subset (by decide))
  have hblank : isBlank 'y' = true := List.all_eq_true.mp h 'y' hy
  cases hblank

/-! ## The search -/

/-- Where the search is between two lines: the long quote that is open, and the indentation of the header of the inner
block that the lines are in. -/
structure YieldScan where
  quote : Option Text := none
  nested : Option Nat := none
  deriving DecidableEq, Repr

/-- The line is blank or indented deeper than a header, and so in the block of the header. -/
def isInBlock (depth : Nat) (line : Text) : Bool := isBlankText line || decide (depth < indentation line)

theorem isInBlock_mono {depth depth' : Nat} (hle : depth ≤ depth') {line : Text} (h : isInBlock depth' line = true) :
    isInBlock depth line = true := by
  simp only [isInBlock, Bool.or_eq_true, decide_eq_true_eq] at h ⊢
  exact h.imp_right (Nat.lt_of_le_of_lt hle)

namespace YieldScan

/-- The search after a line. -/
def next (s : YieldScan) (line : Text) : YieldScan :=
  { quote := (codeOf s.quote 0 line).2
    nested :=
      if s.quote.isSome || isBlankText line then s.nested
      else if s.nested.any (· < indentation line) then s.nested
      else if startsBlock (strip (codeOf s.quote 0 line).1) then some (indentation line)
      else none }

/-- A line yields. -/
def findsOn (s : YieldScan) (line : Text) : Bool :=
  hasWord yieldWord (codeOf s.quote 0 line).1 &&
    if s.quote.isSome || isBlankText line then s.nested.isNone
    else !s.nested.any (· < indentation line) && !startsBlock (strip (codeOf s.quote 0 line).1)

/-- The search after some lines. -/
def after (s : YieldScan) (lines : List Text) : YieldScan := lines.foldl next s

/-- Some of the lines yield. -/
def finds (s : YieldScan) (lines : List Text) : Bool := yieldsFrom s.quote s.nested lines

variable {s : YieldScan} {depth : Nat} {line : Text} {lines : List Text}

theorem finds_cons (s : YieldScan) (line : Text) (lines : List Text) :
    s.finds (line :: lines) = (s.findsOn line || (s.next line).finds lines) := by
  unfold finds findsOn next
  rw [yieldsFrom]
  simp only
  split
  · rw [Bool.and_comm]
  · split
    · simp_all
    · split
      · simp_all
      · simp_all

/-- **What is found in lines is found in those above or in those below.** -/
theorem finds_append (s : YieldScan) (lines lines' : List Text) :
    s.finds (lines ++ lines') = (s.finds lines || (s.after lines).finds lines') := by
  induction lines generalizing s with
  | nil => rfl
  | cons line lines ih =>
    rw [List.cons_append, finds_cons, finds_cons, ih, Bool.or_assoc]
    rfl

/-- Blank lines at the end do not yield. -/
theorem finds_blank {blanks : List Text} (h : ∀ line ∈ blanks, isBlankText line = true) (s : YieldScan) :
    s.finds blanks = false := by
  induction blanks generalizing s with
  | nil => rfl
  | cons line blanks ih =>
    obtain ⟨hline, hblanks⟩ := List.forall_mem_cons.mp h
    rw [finds_cons, ih hblanks, findsOn, hasWord_blank s.quote hline]
    rfl

theorem finds_append_blank {blanks : List Text} (h : ∀ line ∈ blanks, isBlankText line = true) (s : YieldScan)
    (lines : List Text) : s.finds (lines ++ blanks) = s.finds lines := by
  rw [finds_append, finds_blank h, Bool.or_false]

/-- Only a long quote is left open. -/
def IsLong (s : YieldScan) : Prop := ∀ q ∈ s.quote, q ∈ longQuotes

theorem IsLong.after (h : s.IsLong) (lines : List Text) : (s.after lines).IsLong := by
  induction lines generalizing s with
  | nil => exact h
  | cons line lines ih => exact ih (codeOf_left (fun q hq => .inl (h q hq)) 0 line)

/-! ## Lines of a block -/

/-- The search is in a text, or in a block whose header is indented by `depth` at most. -/
def shelters (s : YieldScan) (depth : Nat) : Bool := s.quote.isSome || s.nested.any (· ≤ depth)

/-- In a block whose header is indented no deeper the search stays there. -/
theorem nested_next (hline : isInBlock depth line = true) (h : s.nested.any (· ≤ depth) = true) :
    (s.next line).nested = s.nested := by
  obtain ⟨quote, nested⟩ := s
  cases nested with
  | none => cases h
  | some n =>
    simp only [Option.any_some, decide_eq_true_eq] at h
    simp only [isInBlock, Bool.or_eq_true, decide_eq_true_eq] at hline
    unfold next
    simp only
    split
    · rfl
    · rename_i hcode
      simp only [Bool.or_eq_true, not_or] at hcode
      have hlt : n < indentation line := by
        have := hline.resolve_left hcode.2
        omega
      rw [if_pos (by simpa using hlt)]

theorem nested_after (h : s.nested.any (· ≤ depth) = true) (hlines : ∀ line ∈ lines, isInBlock depth line = true) :
    (s.after lines).nested = s.nested := by
  induction lines generalizing s with
  | nil => rfl
  | cons line lines ih =>
    obtain ⟨hline, hlines⟩ := List.forall_mem_cons.mp hlines
    have hsame := nested_next hline h
    exact (ih (hsame ▸ h) hlines).trans hsame

/-- A header in code is one that is indented no deeper than itself, if it is not already in such a block. -/
theorem nested_next_header (hquote : s.quote = none) (hcode : isBlankText line = false)
    (hstarts : startsBlock (strip (codeOf none 0 line).1) = true) :
    (s.next line).nested.any (· ≤ indentation line) = true := by
  obtain ⟨quote, nested⟩ := s
  simp only at hquote
  unfold next
  simp only [hquote, hcode, hstarts]
  cases nested with
  | none => simp
  | some m =>
    by_cases hm : m < indentation line
    · simp [hm, Nat.le_of_lt hm]
    · simp [hm]

/-- The line changes nothing, and does not yield. -/
theorem next_of_shelters (hs : s.IsLong) (h : s.shelters depth = true) (hline : isInBlock depth line = true)
    (hunquoted : IsUnquoted line) : s.next line = s ∧ s.findsOn line = false := by
  obtain ⟨quote, nested⟩ := s
  cases quote with
  | some q =>
    have hcode := codeOf_unquoted_text (hs q rfl) 0 hunquoted
    unfold next findsOn
    simp only [hcode]
    exact ⟨rfl, rfl⟩
  | none =>
    have hnested : nested.any (· ≤ depth) = true := h
    have hnext : (next ⟨none, nested⟩ line).nested = nested := nested_next hline hnested
    have hquote : (next ⟨none, nested⟩ line).quote = none := codeOf_unquoted hunquoted
    refine ⟨by cases hn : next ⟨none, nested⟩ line; simp_all, ?_⟩
    cases nested with
    | none => cases hnested
    | some n =>
      simp only [Option.any_some, decide_eq_true_eq] at hnested
      simp only [isInBlock, Bool.or_eq_true, decide_eq_true_eq] at hline
      unfold findsOn
      simp only
      split
      · simp
      · rename_i hcode
        simp only [Bool.or_eq_true, not_or] at hcode
        have hlt : n < indentation line := by
          have := hline.resolve_left hcode.2
          omega
        simp [hlt]

/-- **In a text or in a block whose header is indented no deeper, the lines of a block change nothing.** -/
theorem after_of_shelters (hs : s.IsLong) (h : s.shelters depth = true)
    (hlines : ∀ line ∈ lines, isInBlock depth line = true) (hunquoted : ∀ line ∈ lines, IsUnquoted line) :
    s.after lines = s ∧ s.finds lines = false := by
  induction lines with
  | nil => exact ⟨rfl, rfl⟩
  | cons line lines ih =>
    obtain ⟨hline, hlines⟩ := List.forall_mem_cons.mp hlines
    obtain ⟨hquotes, hunquoted⟩ := List.forall_mem_cons.mp hunquoted
    obtain ⟨hnext, hnone⟩ := next_of_shelters hs h hline hquotes
    obtain ⟨hafter, hfinds⟩ := ih hlines hunquoted
    refine ⟨?_, ?_⟩
    · show (s.next line).after lines = s
      rw [hnext, hafter]
    · rw [finds_cons, hnext, hnone, hfinds]
      rfl

/-- Outside of texts and of blocks whose header is indented no deeper, a line of a block stays outside of them. -/
theorem next_of_exposed (h : s.shelters depth = false) (hline : isInBlock depth line = true)
    (hunquoted : IsUnquoted line) : (s.next line).shelters depth = false := by
  obtain ⟨quote, nested⟩ := s
  simp only [shelters, Bool.or_eq_false_iff] at h ⊢
  obtain ⟨hquote, hnested⟩ := h
  cases quote with
  | some q => cases hquote
  | none =>
    refine ⟨by rw [next, codeOf_unquoted hunquoted]; rfl, ?_⟩
    simp only [isInBlock, Bool.or_eq_true, decide_eq_true_eq] at hline
    unfold next
    simp only
    split
    · exact hnested
    · rename_i hcode
      simp only [Bool.or_eq_true, not_or] at hcode
      split
      · exact hnested
      · split
        · have := hline.resolve_left hcode.2
          simpa using this
        · rfl

theorem after_of_exposed (h : s.shelters depth = false) (hlines : ∀ line ∈ lines, isInBlock depth line = true)
    (hunquoted : ∀ line ∈ lines, IsUnquoted line) : (s.after lines).shelters depth = false := by
  induction lines generalizing s with
  | nil => exact h
  | cons line lines ih =>
    obtain ⟨hline, hlines⟩ := List.forall_mem_cons.mp hlines
    obtain ⟨hquotes, hunquoted⟩ := List.forall_mem_cons.mp hunquoted
    exact ih (next_of_exposed h hline hquotes) hlines hunquoted

/-- Outside of them, a line that ends the block is read as outside of every block. -/
theorem closing_of_exposed (h : s.shelters depth = false) (hline : isInBlock depth line = false) :
    s.next line = next {} line ∧ s.findsOn line = findsOn {} line := by
  obtain ⟨quote, nested⟩ := s
  simp only [shelters, Bool.or_eq_false_iff] at h
  obtain ⟨hquote, hnested⟩ := h
  simp only [isInBlock, Bool.or_eq_false_iff, decide_eq_false_iff_not] at hline
  cases quote with
  | some q => cases hquote
  | none =>
    have hnone : nested.any (· < indentation line) = false := by
      cases nested with
      | none => rfl
      | some n =>
        simp only [Option.any_some, decide_eq_false_iff_not] at hnested ⊢
        omega
    unfold next findsOn
    simp only [hline.1, hnone]
    exact ⟨rfl, rfl⟩

/-- **Outside of them, the search goes on as outside of every block,** if a line that ends the block comes next but for
blank lines. -/
theorem finds_of_exposed (h : s.shelters depth = false)
    (hlines : ∀ line ∈ lines.takeWhile (isInBlock depth), isBlankText line = true) :
    s.finds lines = finds {} lines := by
  induction lines generalizing s with
  | nil => rfl
  | cons line lines ih =>
    rw [finds_cons, finds_cons]
    cases hline : isInBlock depth line with
    | false =>
      obtain ⟨hnext, hfinds⟩ := closing_of_exposed h hline
      rw [hnext, hfinds]
    | true =>
      rw [List.takeWhile_cons_of_pos hline] at hlines
      obtain ⟨hblank, hlines⟩ := List.forall_mem_cons.mp hlines
      have hquotes := isUnquoted_of_blank hblank
      rw [ih (next_of_exposed h hline hquotes) hlines, ih (next_of_exposed (s := {}) rfl hline hquotes) hlines, findsOn,
        findsOn, hasWord_blank _ hblank, hasWord_blank _ hblank]
      rfl

end YieldScan

end SourceDoc.Indented
