import Mathlib.Data.List.DropRight
import SourceDoc.Page.Layout
import SourceDoc.Proofs.List
import SourceDoc.Proofs.Text.Line

/-!
# The normal layout of Markdown

A page is laid out once and for all, in a layout that can be read off it, and nothing but blanks and blank lines is lost
or added on the way:

    lint (lint s) = lint s ∧ IsLaidOutPage (lint s) ∧ IsKept s (lint s)                     (lint_isNormalForm)

What the layout of a line depends on is a function of the lines kept before it (`Layout.of`).  A line that fits behind
those (`Fits`) is kept as it is, another is left out or put below a blank line (`add_cases`).  So all lines that are kept
fit (`areFitting_layoutLines`), and lines that fit are kept as they are (`layoutLines_of_fitting`): what the first pass
leaves, the second leaves too.
-/

namespace SourceDoc.Markdown

open Text

/-! ## What a layout is -/

/-- A line that begins or ends code. -/
def isFence (line : Text) : Bool := startsWith line fence

/-- Some lines end in code if the number of fences among them is odd. -/
def endsInCode (before : List Text) : Bool := before.countP isFence % 2 = 1

/-- A line without blanks at its end, unless it ends in two spaces. -/
def cutEnd (line : Text) : Text := if endsWith line [' ', ' '] then line else stripRight line

/-- A page in normal layout. -/
structure IsLaidOutPage (t : Text) : Prop where
  no_return : '\r' ∉ t
  /-- There is one newline at the end. -/
  ends : ∃ body, t = body ++ ['\n'] ∧ body.getLast? ≠ some '\n'
  /-- The last line is not blank unless there is no other character. -/
  last : t = ['\n'] ∨ ∀ line ∈ (wholeLines t).getLast?, isBlankText line = false
  /-- Outside code no blank line follows another. -/
  blanks : ∀ before line line', before ++ [line, line'] <+: wholeLines t → endsInCode before = false →
    isBlankText line = true → isBlankText line' = false
  /-- Outside code a heading comes first or after a blank line. -/
  headings : ∀ before line, before ++ [line] <+: wholeLines t → endsInCode before = false →
    startsWith line ['#'] = true → ∀ above ∈ before.getLast?, isBlankText above = true

/-- The second page has the text of the first. -/
structure IsKept (s t : Text) : Prop where
  /-- The lines that are not blank are those of the first page, cut at their ends. -/
  lines : (wholeLines t).filter (!isBlankText ·) =
    ((Text.lines (unifyNewlines s)).map cutEnd).filter (!isBlankText ·)
  /-- Code that is closed has all its lines, the blank ones too. -/
  code : ∀ before opening body closing after,
    Text.lines (unifyNewlines s) = before ++ opening :: (body ++ closing :: after) → endsInCode before = false →
    isFence opening = true → (∀ line ∈ body, isFence line = false) → isFence closing = true →
    ∃ before' after', wholeLines t = before' ++ cutEnd opening :: (body.map tidyEnd ++ cutEnd closing :: after') ∧
      before'.countP isFence = before.countP isFence

/-! ## The ends of lines -/

theorem tidyEnd_of_blank {line : Text} (h : isBlankText line = true) : tidyEnd line = [] := by
  unfold tidyEnd
  rw [h, Bool.not_true, Bool.and_false, if_neg Bool.false_ne_true]
  exact (dropRight_eq_nil_iff isBlank line).mpr h

theorem tidyEnd_of_not_blank {line : Text} (h : isBlankText line = false) : tidyEnd line = cutEnd line := by
  unfold tidyEnd cutEnd
  rw [h, Bool.not_false, Bool.and_true]

theorem isBlankText_cutEnd (line : Text) : isBlankText (cutEnd line) = isBlankText line := by
  unfold cutEnd
  split
  · rfl
  · exact all_dropRight isBlank line

theorem isBlankText_tidyEnd (line : Text) : isBlankText (tidyEnd line) = isBlankText line := by
  cases h : isBlankText line with
  | true => rw [tidyEnd_of_blank h]; rfl
  | false => rw [tidyEnd_of_not_blank h, isBlankText_cutEnd, h]

/-- A line is cut once and for all. -/
theorem cutEnd_cutEnd (line : Text) : cutEnd (cutEnd line) = cutEnd line := by
  unfold cutEnd
  by_cases h : endsWith line [' ', ' '] = true
  · rw [if_pos h, if_pos h]
  · rw [if_neg h]
    split
    · rfl
    · exact (dropRight_eq_self_iff isBlank _).mpr (getLast_dropRight isBlank line)

theorem tidyEnd_tidyEnd (line : Text) : tidyEnd (tidyEnd line) = tidyEnd line := by
  cases h : isBlankText line with
  | true => rw [tidyEnd_of_blank h]; rfl
  | false =>
    rw [tidyEnd_of_not_blank h, tidyEnd_of_not_blank (by rw [isBlankText_cutEnd, h]), cutEnd_cutEnd]

/-- A tidy line that is blank is empty. -/
theorem eq_nil_of_tidyEnd {line : Text} (h : tidyEnd line = line) (hblank : isBlankText line = true) : line = [] := by
  rw [← h, tidyEnd_of_blank hblank]

theorem tidyEnd_within (line : Text) : tidyEnd line <+: line := by
  unfold tidyEnd
  split
  · exact List.prefix_refl line
  · exact stripRight_within line

/-- What is cut off is no mark at the front. -/
theorem isFence_tidyEnd (line : Text) : isFence (tidyEnd line) = isFence line := by
  unfold tidyEnd
  split
  · rfl
  · obtain ⟨gap, hgap, hline⟩ := stripRight_append line
    have hapart : ∀ c ∈ gap.head?, c ∉ fence := by
      intro c hc hmem
      have hblank : isBlank c = true := List.all_eq_true.mp hgap c (List.mem_of_head? hc)
      have hmark : ∀ d ∈ fence, isBlank d = false := by decide
      rw [hmark c hmem] at hblank
      cases hblank
    unfold isFence
    rw [← startsWith_append hapart (stripRight line), hline]

theorem isBlankText_of_isFence {line : Text} (h : isFence line = true) : isBlankText line = false := by
  obtain ⟨rest, rfl⟩ := List.isPrefixOf_iff_prefix.mp h
  rfl

/-! ## One line -/

/-- What the layout of a line depends on, read off the lines kept before it. -/
def Layout.of (out : List Text) : Layout := ⟨endsInCode out, !endsInCode out && out.getLast? = some [], out.getLast?⟩

/-- Behind some lines a line is in place as it is. -/
structure Fits (out : List Text) (line : Text) : Prop where
  tidy : tidyEnd line = line
  blank : endsInCode out = false → line = [] → out.getLast? ≠ some []
  heading : endsInCode out = false → startsWith line ['#'] = true → ∀ above ∈ out.getLast?, above = []

theorem endsInCode_concat (out : List Text) (line : Text) :
    endsInCode (out ++ [line]) = (endsInCode out ^^ isFence line) := by
  unfold endsInCode
  rw [List.countP_append, List.countP_singleton]
  cases isFence line
  · simp
  · rw [if_pos rfl, Bool.xor_true, ← decide_not, decide_eq_decide]
    omega

section

variable {out : List Text} {line : Text}

theorem ne_nil_of_isFence (h : isFence line = true) : line ≠ [] := by
  rintro rfl
  cases h

theorem Fits.of_isFence (htidy : tidyEnd line = line) (h : isFence line = true) : Fits out line where
  tidy := htidy
  blank _ hnil := absurd hnil (ne_nil_of_isFence h)
  heading _ hmark := by
    obtain ⟨rest, rfl⟩ := List.isPrefixOf_iff_prefix.mp h
    cases hmark

/-- In code every line without blanks at its end is in place. -/
theorem Fits.of_endsInCode (htidy : tidyEnd line = line) (h : endsInCode out = true) : Fits out line where
  tidy := htidy
  blank hout := by rw [h] at hout; cases hout
  heading hout := by rw [h] at hout; cases hout

/-- **A line that fits is kept; another is left out if it is blank, and put below a blank line if it is not.** -/
theorem add_cases (out : List Text) (htidy : tidyEnd line = line) :
    (Fits out line ∧ (Layout.of out).add line = ([line], Layout.of (out ++ [line]))) ∨
    (line = [] ∧ ¬ Fits out line ∧ (Layout.of out).add line = ([], Layout.of out)) ∨
    (¬ Fits out line ∧ Fits out [] ∧ Fits (out ++ [[]]) line ∧
      (Layout.of out).add line = ([[], line], Layout.of (out ++ [[], line]))) := by
  cases hfence : startsWith line fence with
  | true =>
    refine .inl ⟨.of_isFence htidy hfence, ?_⟩
    simp [Layout.add, Layout.of, endsInCode_concat, hfence, ne_nil_of_isFence hfence, isFence]
  | false =>
  cases hcode : endsInCode out with
  | true =>
    refine .inl ⟨.of_endsInCode htidy hcode, ?_⟩
    simp [Layout.add, Layout.of, endsInCode_concat, hfence, hcode, isFence]
  | false =>
  by_cases hnil : line = []
  · subst hnil
    by_cases hblank : out.getLast? = some []
    · refine .inr (.inl ⟨rfl, fun h => h.blank hcode rfl hblank, ?_⟩)
      simp [Layout.add, Layout.of, hcode, hblank, hfence]
    · refine .inl ⟨⟨htidy, fun _ _ => hblank, fun _ hmark => by cases hmark⟩, ?_⟩
      simp [Layout.add, Layout.of, endsInCode_concat, hcode, hblank, hfence, isFence]
  have hany : (Layout.of out).last.any (· ≠ []) = true ↔ ∃ above, out.getLast? = some above ∧ above ≠ [] := by
    simp [Layout.of, Option.any_eq_true]
  by_cases hheading : startsWith line ['#'] = true ∧ (Layout.of out).last.any (· ≠ [])
  · obtain ⟨above, hlast, hne⟩ := hany.mp hheading.2
    refine .inr (.inr ⟨fun h => hne (h.heading hcode hheading.1 above hlast), ?_, ?_, ?_⟩)
    · refine ⟨rfl, fun _ _ => ?_, fun _ hmark => by cases hmark⟩
      rw [hlast]
      exact fun h => hne (Option.some.inj h)
    · refine ⟨htidy, fun _ h => absurd h hnil, fun _ _ above habove => ?_⟩
      rw [List.getLast?_concat] at habove
      exact (Option.some.inj habove).symm
    · rw [Layout.add, if_neg (by simp [hfence]), if_neg (by simp [Layout.of, hcode]), if_neg hnil, if_pos hheading]
      have hcode' : endsInCode (out ++ [[]]) = false := by rw [endsInCode_concat, hcode]; rfl
      have hafter : endsInCode (out ++ [[], line]) = false := by
        rw [List.append_cons, endsInCode_concat, hcode', Bool.false_xor]
        exact hfence
      simp [Layout.of, hafter, hnil]
  · refine .inl ⟨⟨htidy, fun _ h => absurd h hnil, fun _ hmark above habove => ?_⟩, ?_⟩
    · by_contra hne
      exact hheading ⟨hmark, hany.mpr ⟨above, habove, hne⟩⟩
    · rw [Layout.add, if_neg (by simp [hfence]), if_neg (by simp [Layout.of, hcode]), if_neg hnil, if_neg hheading]
      simp [Layout.of, endsInCode_concat, hcode, hfence, isFence, hnil]

/-- What is kept of a line behind those that are kept already. -/
def kept (out : List Text) (line : Text) : List Text := ((Layout.of out).add (tidyEnd line)).1

theorem kept_cases (out : List Text) (line : Text) :
    (Fits out (tidyEnd line) ∧ kept out line = [tidyEnd line]) ∨
    (tidyEnd line = [] ∧ ¬ Fits out (tidyEnd line) ∧ kept out line = []) ∨
    (¬ Fits out (tidyEnd line) ∧ Fits out [] ∧ Fits (out ++ [[]]) (tidyEnd line) ∧
      kept out line = [[], tidyEnd line]) := by
  unfold kept
  rcases add_cases out (tidyEnd_tidyEnd line) with ⟨hfits, h⟩ | ⟨hnil, hnot, h⟩ | ⟨hnot, hblank, hfits, h⟩
  · exact .inl ⟨hfits, by rw [h]⟩
  · exact .inr (.inl ⟨hnil, hnot, by rw [h]⟩)
  · exact .inr (.inr ⟨hnot, hblank, hfits, by rw [h]⟩)

theorem kept_of_fits (h : Fits out (tidyEnd line)) : kept out line = [tidyEnd line] := by
  rcases kept_cases out line with ⟨-, heq⟩ | ⟨-, hnot, -⟩ | ⟨hnot, -⟩
  · exact heq
  · exact absurd h hnot
  · exact absurd h hnot

/-- Of a line no more is lost or added than a blank line. -/
theorem filter_kept {p : Text → Bool} (hp : p [] = false) (out : List Text) (line : Text) :
    (kept out line).filter p = [tidyEnd line].filter p := by
  rcases kept_cases out line with ⟨-, heq⟩ | ⟨hnil, -, heq⟩ | ⟨-, -, -, heq⟩
  · rw [heq]
  · rw [heq, hnil, List.filter_cons, hp]
    rfl
  · rw [heq, List.filter_cons, hp]
    rfl

theorem mem_kept {line' : Text} (h : line' ∈ kept out line) : line' = [] ∨ line' = tidyEnd line := by
  rcases kept_cases out line with ⟨-, heq⟩ | ⟨-, -, heq⟩ | ⟨-, -, -, heq⟩
  all_goals
    rw [heq] at h
    simp only [List.mem_cons, List.not_mem_nil, or_false] at h
  · exact .inr h
  · exact h

/-! ## All lines -/

/-- What is kept of some lines is kept line by line. -/
theorem layoutLines_cons (out : List Text) (line : Text) (ls : List Text) :
    layoutLines (Layout.of out) (line :: ls) =
      kept out line ++ layoutLines (Layout.of (out ++ kept out line)) ls := by
  have hafter : ((Layout.of out).add (tidyEnd line)).2 = Layout.of (out ++ kept out line) := by
    unfold kept
    rcases add_cases out (tidyEnd_tidyEnd line) with ⟨-, h⟩ | ⟨-, -, h⟩ | ⟨-, -, -, h⟩
    · rw [h]
    · rw [h, List.append_nil]
    · rw [h]
  rw [layoutLines, ← hafter]
  rfl

theorem layoutLines_append (out ls ls' : List Text) :
    layoutLines (Layout.of out) (ls ++ ls') =
      layoutLines (Layout.of out) ls ++ layoutLines (Layout.of (out ++ layoutLines (Layout.of out) ls)) ls' := by
  induction ls generalizing out with
  | nil => rw [List.nil_append, layoutLines, List.nil_append, List.append_nil]
  | cons line ls ih =>
    rw [List.cons_append, layoutLines_cons, layoutLines_cons, ih, List.append_assoc, List.append_assoc]

/-- Lines are kept but for blank ones. -/
theorem filter_layoutLines {p : Text → Bool} (hp : p [] = false) (out ls : List Text) :
    (layoutLines (Layout.of out) ls).filter p = (ls.map tidyEnd).filter p := by
  induction ls generalizing out with
  | nil => rfl
  | cons line ls ih =>
    rw [layoutLines_cons, List.filter_append, filter_kept hp, ih, ← List.filter_append]
    rfl

/-- What is kept of some lines is blank or one of them. -/
theorem mem_layoutLines {line' : Text} {ls : List Text} (h : line' ∈ layoutLines (Layout.of out) ls) :
    line' = [] ∨ ∃ line ∈ ls, line' = tidyEnd line := by
  induction ls generalizing out with
  | nil => cases h
  | cons line ls ih =>
    rw [layoutLines_cons, List.mem_append] at h
    rcases h with h | h
    · exact (mem_kept h).imp_right fun h => ⟨line, List.mem_cons_self, h⟩
    · exact (ih h).imp_right fun ⟨line, hline, h⟩ => ⟨line, List.mem_cons_of_mem _ hline, h⟩

/-- Behind some lines each line is in place as it is. -/
def AreFitting (out : List Text) : List Text → Prop
  | [] => True
  | line :: rest => Fits out line ∧ AreFitting (out ++ [line]) rest

theorem areFitting_append {ls ls' : List Text} :
    AreFitting out (ls ++ ls') ↔ AreFitting out ls ∧ AreFitting (out ++ ls) ls' := by
  induction ls generalizing out with
  | nil => simp [AreFitting]
  | cons line ls ih => simp [AreFitting, ih, and_assoc]

theorem AreFitting.fits {ls before : List Text} (h : AreFitting [] ls) (hfront : before ++ [line] <+: ls) :
    Fits before line := by
  obtain ⟨after, rfl⟩ := hfront
  rw [areFitting_append, areFitting_append] at h
  exact h.1.2.1

theorem AreFitting.tidy {ls : List Text} (h : AreFitting [] ls) : ∀ line ∈ ls, tidyEnd line = line := by
  intro line hline
  obtain ⟨before, after, rfl⟩ := List.append_of_mem hline
  exact (h.fits ⟨after, List.append_assoc _ _ _⟩).tidy

theorem areFitting_kept (out : List Text) (line : Text) : AreFitting out (kept out line) := by
  rcases kept_cases out line with ⟨hfits, heq⟩ | ⟨-, -, heq⟩ | ⟨-, hblank, hfits, heq⟩
  · rw [heq]
    exact ⟨hfits, trivial⟩
  · rw [heq]
    trivial
  · rw [heq]
    exact ⟨hblank, hfits, trivial⟩

/-- **All lines that are kept are in place.** -/
theorem areFitting_layoutLines (out ls : List Text) : AreFitting out (layoutLines (Layout.of out) ls) := by
  induction ls generalizing out with
  | nil => trivial
  | cons line ls ih =>
    rw [layoutLines_cons, areFitting_append]
    exact ⟨areFitting_kept out line, ih _⟩

/-- **Lines that are in place are kept.** -/
theorem layoutLines_of_fitting {ls : List Text} (h : AreFitting out (ls.map tidyEnd)) :
    layoutLines (Layout.of out) ls = ls.map tidyEnd := by
  induction ls generalizing out with
  | nil => rfl
  | cons line ls ih =>
    rw [layoutLines_cons, kept_of_fits h.1, ih h.2]
    rfl

end

/-! ## The end of a page -/

section

variable {ls gap : List Text} {line : Text}

theorem dropEmptyEnd_append (ls : List Text) : ∃ gap, (∀ line ∈ gap, line = []) ∧ dropEmptyEnd ls ++ gap = ls :=
  ⟨ls.rtakeWhile (· = []), fun _ hline => of_decide_eq_true (List.mem_rtakeWhile_imp (p := (· = [])) hline),
    List.rdropWhile_append_rtakeWhile⟩

theorem getLast_dropEmptyEnd (ls : List Text) : (dropEmptyEnd ls).getLast? ≠ some [] := by
  intro h
  rw [dropEmptyEnd, List.getLast?_reverse] at h
  have hnot := List.head?_dropWhile_not (· = []) ls.reverse
  rw [h] at hnot
  cases hnot

/-- Blank lines after a line that is not blank are left out. -/
theorem dropEmptyEnd_of_gap (hls : ls.getLast? ≠ some []) (hgap : ∀ line ∈ gap, line = []) :
    dropEmptyEnd (ls ++ gap) = ls := by
  unfold dropEmptyEnd
  rw [List.reverse_append,
    List.dropWhile_append_of_pos fun line hline => decide_eq_true (hgap line (List.mem_reverse.mp hline))]
  refine List.rdropWhile_eq_self_iff.mpr fun hne hlast => hls ?_
  rw [List.getLast?_eq_some_getLast hne, of_decide_eq_true hlast]

/-- Blank lines before a line that is not blank stay. -/
theorem dropEmptyEnd_append_cons (before : List Text) (hline : line ≠ []) (after : List Text) :
    dropEmptyEnd (before ++ line :: after) = before ++ line :: dropEmptyEnd after := by
  obtain ⟨gap, hgap, hafter⟩ := dropEmptyEnd_append after
  have hlast : (before ++ line :: dropEmptyEnd after).getLast? ≠ some [] := by
    rw [List.getLast?_append, List.getLast?_cons, Option.some_or]
    cases h : (dropEmptyEnd after).getLast? with
    | none => exact fun heq => hline (Option.some.inj heq)
    | some last => exact fun heq => getLast_dropEmptyEnd after (h.trans heq)
  have := dropEmptyEnd_of_gap hlast hgap
  rwa [List.append_assoc, List.cons_append, hafter] at this

end

/-! ## The text of a page -/

theorem not_mem_unifyNewlines (t : Text) : '\r' ∉ unifyNewlines t := by
  induction t using unifyNewlines.induct with
  | case1 => exact List.not_mem_nil
  | case2 rest ih =>
    rw [unifyNewlines, List.mem_cons, not_or]
    exact ⟨by decide, ih⟩
  | case3 c rest hpair ih =>
    rw [unifyNewlines, List.mem_cons, not_or]
    · refine ⟨?_, ih⟩
      split
      · decide
      · exact Ne.symm ‹_›
    · exact hpair

theorem unifyNewlines_of_not_mem {t : Text} (h : '\r' ∉ t) : unifyNewlines t = t := by
  induction t with
  | nil => rfl
  | cons c t ih =>
    rw [List.mem_cons, not_or] at h
    rw [unifyNewlines, if_neg (Ne.symm h.1), ih h.2]
    rintro rest rfl -
    exact h.1 rfl

/-- The lines of a page in its normal layout, before it is put together. -/
def pageLines (s : Text) : List Text := dropEmptyEnd (layoutLines (Layout.of []) (lines (unifyNewlines s)))

theorem lint_eq (s : Text) : lint s = joinLines (pageLines s) ++ ['\n'] := rfl

theorem areFitting_pageLines (s : Text) : AreFitting [] (pageLines s) := by
  obtain ⟨gap, -, heq⟩ := dropEmptyEnd_append (layoutLines (Layout.of []) (lines (unifyNewlines s)))
  have := areFitting_layoutLines [] (lines (unifyNewlines s))
  rw [← heq, areFitting_append] at this
  exact this.1

/-- A character of a line of the page that is laid out is one of the page. -/
theorem mem_of_mem_pageLines {s line : Text} (h : line ∈ pageLines s) {c : Char} (hc : c ∈ line) :
    c ≠ '\n' ∧ c ≠ '\r' := by
  obtain ⟨gap, -, heq⟩ := dropEmptyEnd_append (layoutLines (Layout.of []) (lines (unifyNewlines s)))
  rcases mem_layoutLines (heq ▸ List.mem_append_left gap h) with rfl | ⟨line', hline', rfl⟩
  · cases hc
  · have hc := (tidyEnd_within line').subset hc
    have hnewline : c ≠ '\n' := by
      rintro rfl
      exact not_mem_of_mem_splitOn hline' hc
    refine ⟨hnewline, ?_⟩
    rintro rfl
    refine not_mem_unifyNewlines s ?_
    rw [← joinLines_lines (unifyNewlines s)]
    exact (mem_joinLines_iff hnewline).mpr ⟨line', hline', hc⟩

theorem not_mem_lint (s : Text) : '\r' ∉ lint s := by
  rw [lint_eq, List.mem_append, not_or]
  refine ⟨fun h => ?_, by decide⟩
  obtain ⟨line, hline, hc⟩ := (mem_joinLines_iff (by decide)).mp h
  exact (mem_of_mem_pageLines hline hc).2 rfl

theorem lint_of_nil {s : Text} (h : pageLines s = []) : lint s = ['\n'] := by
  rw [lint_eq, h]
  rfl

theorem lines_lint {s : Text} (h : pageLines s ≠ []) : lines (lint s) = pageLines s ++ [[]] := by
  rw [lint_eq]
  refine (splitOn_append '\n' (joinLines (pageLines s)) []).trans (congrArg (· ++ [[]]) ?_)
  exact lines_joinLines h fun line hline hc => (mem_of_mem_pageLines hline hc).1 rfl

theorem wholeLines_lint {s : Text} (h : pageLines s ≠ []) : wholeLines (lint s) = pageLines s := by
  rw [wholeLines, lines_lint h, List.dropLast_concat]

/-- **A page is laid out once and for all.** -/
theorem lint_lint (s : Text) : lint (lint s) = lint s := by
  by_cases hnil : pageLines s = []
  · rw [lint_of_nil hnil]
    rfl
  have hfits := areFitting_pageLines s
  have hgap : ∀ out, ∀ line ∈ layoutLines (Layout.of out) [[]], line = [] := by
    intro out line hline
    rcases mem_layoutLines hline with rfl | ⟨line', hline', rfl⟩
    · rfl
    · rw [List.mem_singleton.mp hline']
      rfl
  suffices h : pageLines (lint s) = pageLines s by rw [lint_eq (lint s), h, ← lint_eq]
  have htidy : (pageLines s).map tidyEnd = pageLines s := map_eq_self hfits.tidy
  have hkept := layoutLines_of_fitting (htidy.symm ▸ hfits)
  calc pageLines (lint s)
      = dropEmptyEnd (layoutLines (Layout.of []) (pageLines s ++ [[]])) := by
        rw [pageLines, unifyNewlines_of_not_mem (not_mem_lint s), lines_lint hnil]
    _ = dropEmptyEnd (pageLines s ++ layoutLines (Layout.of ([] ++ pageLines s)) [[]]) := by
        rw [layoutLines_append, hkept, htidy]
    _ = pageLines s := dropEmptyEnd_of_gap (getLast_dropEmptyEnd _) (hgap _)

/-- **All lines of a page that is laid out are in place.** -/
theorem areFitting_lint (s : Text) : AreFitting [] (wholeLines (lint s)) := by
  by_cases hnil : pageLines s = []
  · rw [lint_of_nil hnil]
    exact ⟨⟨rfl, nofun, nofun⟩, trivial⟩
  · rw [wholeLines_lint hnil]
    exact areFitting_pageLines s

theorem lint_isLaidOutPage (s : Text) : IsLaidOutPage (lint s) where
  no_return := not_mem_lint s
  ends := by
    refine ⟨joinLines (pageLines s), lint_eq s, fun h => ?_⟩
    obtain ⟨front, hfront⟩ := List.getLast?_eq_some_iff.mp h
    have hnil : pageLines s ≠ [] := by
      intro hnil
      rw [hnil] at h
      cases h
    -- with a newline at its end, the last line would be empty
    have hlines : pageLines s = lines front ++ [[]] := by
      rw [← wholeLines_lint hnil, lint_eq, wholeLines_newline, hfront]
      exact splitOn_append '\n' front []
    exact getLast_dropEmptyEnd _ (hlines ▸ List.getLast?_concat)
  last := by
    by_cases hnil : pageLines s = []
    · exact .inl (lint_of_nil hnil)
    refine .inr fun line hline => ?_
    rw [wholeLines_lint hnil] at hline
    rw [← Bool.not_eq_true]
    intro hblank
    have htidy := (areFitting_pageLines s).tidy line (List.mem_of_getLast? hline)
    rw [eq_nil_of_tidyEnd htidy hblank] at hline
    exact getLast_dropEmptyEnd _ hline
  blanks before line line' hfront hcode hblank := by
    rw [← Bool.not_eq_true]
    intro hblank'
    rw [List.append_cons] at hfront
    have hline := (areFitting_lint s).fits ((List.prefix_append _ _).trans hfront)
    have hline' := (areFitting_lint s).fits hfront
    have hnil := eq_nil_of_tidyEnd hline.tidy hblank
    refine hline'.blank ?_ (eq_nil_of_tidyEnd hline'.tidy hblank') ?_
    · rw [endsInCode_concat, hcode, hnil]
      rfl
    · rw [List.getLast?_concat, hnil]
  headings before line hfront hcode hmark above habove := by
    have hline := (areFitting_lint s).fits hfront
    rw [hline.heading hcode hmark above habove]
    rfl

theorem filter_dropEmptyEnd {p : Text → Bool} (hp : p [] = false) (ls : List Text) :
    (dropEmptyEnd ls).filter p = ls.filter p := by
  obtain ⟨gap, hgap, heq⟩ := dropEmptyEnd_append ls
  have hnone : gap.filter p = [] := List.filter_eq_nil_iff.mpr fun line hline => by
    rw [hgap line hline, hp]
    exact Bool.false_ne_true
  rw [← heq, List.filter_append, hnone, List.append_nil, heq]

theorem filter_map_tidyEnd (ls : List Text) :
    (ls.map tidyEnd).filter (!isBlankText ·) = (ls.map cutEnd).filter (!isBlankText ·) := by
  induction ls with
  | nil => rfl
  | cons line ls ih =>
    rw [List.map_cons, List.map_cons, List.filter_cons, List.filter_cons, isBlankText_tidyEnd, isBlankText_cutEnd, ih]
    cases h : isBlankText line with
    | true => rfl
    | false => rw [tidyEnd_of_not_blank h]

theorem countP_layoutLines (out ls : List Text) :
    (layoutLines (Layout.of out) ls).countP isFence = ls.countP isFence := by
  rw [List.countP_eq_length_filter, filter_layoutLines rfl, ← List.countP_eq_length_filter, List.countP_map]
  exact congrArg (fun p => ls.countP p) (funext isFence_tidyEnd)

/-- In code all lines are in place up to the first fence. -/
theorem areFitting_code {out body : List Text} (hout : endsInCode out = true)
    (hbody : ∀ line ∈ body, isFence line = false) (closing : Text) :
    AreFitting out ((body ++ [closing]).map tidyEnd) := by
  induction body generalizing out with
  | nil => exact ⟨.of_endsInCode (tidyEnd_tidyEnd closing) hout, trivial⟩
  | cons line body ih =>
    obtain ⟨hline, hbody⟩ := List.forall_mem_cons.mp hbody
    refine ⟨.of_endsInCode (tidyEnd_tidyEnd line) hout, ih ?_ hbody⟩
    rw [endsInCode_concat, hout, isFence_tidyEnd, hline]
    rfl

/-- **Code keeps all its lines, the blank ones too.** -/
theorem layoutLines_code {out body : List Text} {opening : Text} (hout : endsInCode out = false)
    (hopening : isFence opening = true) (hbody : ∀ line ∈ body, isFence line = false) (closing : Text) :
    layoutLines (Layout.of out) (opening :: (body ++ [closing])) = (opening :: (body ++ [closing])).map tidyEnd := by
  rw [← isFence_tidyEnd] at hopening
  refine layoutLines_of_fitting ⟨.of_isFence (tidyEnd_tidyEnd opening) hopening, areFitting_code ?_ hbody closing⟩
  rw [endsInCode_concat, hout, hopening]
  rfl

theorem lint_isKept (s : Text) : IsKept s (lint s) where
  lines := by
    rw [← filter_map_tidyEnd, ← filter_layoutLines rfl [] (Text.lines _), ← filter_dropEmptyEnd rfl (layoutLines _ _)]
    by_cases hnil : pageLines s = []
    · rw [lint_of_nil hnil]
      exact (congrArg (List.filter _) hnil).symm
    · rw [wholeLines_lint hnil]
      rfl
  code before opening body closing after hlines hcode hopening hbody hclosing := by
    have hcount := countP_layoutLines [] before
    generalize hbefore' : layoutLines (Layout.of []) before = before' at hcount
    have hcode' : endsInCode before' = false := by rw [endsInCode, hcount, ← endsInCode, hcode]
    have hmark : ∀ {line}, isFence line = true → tidyEnd line = cutEnd line := fun h =>
      tidyEnd_of_not_blank (isBlankText_of_isFence h)
    have hne : cutEnd closing ≠ [] := by
      rw [← hmark hclosing]
      exact ne_nil_of_isFence ((isFence_tidyEnd closing).trans hclosing)
    have hsplit : before ++ opening :: (body ++ closing :: after) =
        before ++ (opening :: (body ++ [closing]) ++ after) := by simp
    obtain ⟨after', hafter'⟩ : ∃ after', layoutLines (Layout.of []) (lines (unifyNewlines s)) =
        before' ++ cutEnd opening :: body.map tidyEnd ++ cutEnd closing :: after' := by
      rw [hlines, hsplit, layoutLines_append, hbefore', List.nil_append, layoutLines_append,
        layoutLines_code hcode' hopening hbody]
      simp only [List.map_cons, List.map_append, List.map_nil, hmark hopening, hmark hclosing, List.append_assoc,
        List.cons_append, List.nil_append]
      exact ⟨_, rfl⟩
    have hpage : pageLines s =
        before' ++ cutEnd opening :: (body.map tidyEnd ++ cutEnd closing :: dropEmptyEnd after') := by
      rw [pageLines, hafter', dropEmptyEnd_append_cons _ hne, List.append_assoc, List.cons_append]
    refine ⟨before', dropEmptyEnd after', ?_, hcount⟩
    rw [wholeLines_lint (hpage ▸ List.append_ne_nil_of_right_ne_nil _ (List.cons_ne_nil _ _)), hpage]

/-- **A page is laid out once and for all, in normal layout, and keeps its text.** -/
theorem lint_isNormalForm (s : Text) : lint (lint s) = lint s ∧ IsLaidOutPage (lint s) ∧ IsKept s (lint s) :=
  ⟨lint_lint s, lint_isLaidOutPage s, lint_isKept s⟩

end SourceDoc.Markdown
