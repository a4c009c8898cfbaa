import SourceDoc.Proofs.Text.Blank

/-!
# Lines

A character in front of a text is in front of its first line, unless it is a newline (`lines_newline`,
`lines_cons_of_ne`).  A text of whole lines ends with a newline and has no other line boundaries.  The lines of a text
after it come after its lines, whether lines are split at newlines (`lines_append`) or counted by all boundaries
(`length_boundaryLines_append`).  In any text, all boundaries count all lines but an empty last one
(`drop_boundaryLines`).
-/

namespace SourceDoc.Text

/-! ## Splitting at newlines -/

theorem splitOn_append (sep : Char) (a b : Text) : splitOn sep (a ++ sep :: b) = splitOn sep a ++ splitOn sep b := by
  induction a with
  | nil =>
    obtain ⟨piece, pieces, h⟩ := List.exists_cons_of_ne_nil (splitOn_ne_nil sep b)
    rw [List.nil_append, splitOn_cons h, if_pos rfl, h]
    rfl
  | cons c a ih =>
    obtain ⟨piece, pieces, h⟩ := List.exists_cons_of_ne_nil (splitOn_ne_nil sep a)
    rw [h, List.cons_append] at ih
    rw [List.cons_append, splitOn_cons ih, splitOn_cons h]
    split <;> rfl

theorem splitOn_of_not_mem {sep : Char} {t : Text} (h : sep ∉ t) : splitOn sep t = [t] := by
  induction t with
  | nil => rfl
  | cons c t ih =>
    rw [List.mem_cons, not_or] at h
    rw [splitOn_cons (ih h.2), if_neg (Ne.symm h.1)]

theorem not_mem_of_mem_splitOn {sep : Char} {t piece : Text} (h : piece ∈ splitOn sep t) : sep ∉ piece := by
  induction t generalizing piece with
  | nil =>
    rw [List.mem_singleton.mp h]
    exact List.not_mem_nil
  | cons c t ih =>
    obtain ⟨first, pieces, ht⟩ := List.exists_cons_of_ne_nil (splitOn_ne_nil sep t)
    rw [splitOn_cons ht] at h
    rw [ht] at ih
    by_cases hc : c = sep
    · rw [if_pos hc] at h
      rcases List.mem_cons.mp h with rfl | h
      · exact List.not_mem_nil
      · exact ih h
    · rw [if_neg hc] at h
      rcases List.mem_cons.mp h with rfl | h
      · rw [List.mem_cons, not_or]
        exact ⟨Ne.symm hc, ih List.mem_cons_self⟩
      · exact ih (List.mem_cons_of_mem _ h)

theorem joinWith_append (sep : Text) {front back : List Text} (hfront : front ≠ []) (hback : back ≠ []) :
    joinWith sep (front ++ back) = joinWith sep front ++ sep ++ joinWith sep back := by
  induction front with
  | nil => exact absurd rfl hfront
  | cons piece front ih =>
    by_cases hlast : front = []
    · rw [hlast]
      exact joinWith_cons sep piece back hback
    · rw [List.cons_append, joinWith_cons _ _ _ (List.append_ne_nil_of_right_ne_nil front hback), ih hlast,
        joinWith_cons _ _ _ hlast]
      simp only [List.append_assoc]

/-- Lines in the place of a line are lines of the whole. -/
theorem joinLines_joinLines (before : List Text) {ls : List Text} (hne : ls ≠ []) (after : List Text) :
    joinLines (before ++ joinLines ls :: after) = joinLines (before ++ (ls ++ after)) := by
  unfold joinLines
  induction before with
  | nil =>
    by_cases hafter : after = []
    · rw [hafter, List.append_nil]
      rfl
    · rw [List.nil_append, List.nil_append, joinWith_cons _ _ _ hafter, joinWith_append _ hne hafter]
  | cons line before ih =>
    rw [List.cons_append, List.cons_append, joinWith_cons _ _ _ (by simp), joinWith_cons _ _ _ (by simp [hne]), ih]

theorem lines_joinLines {ls : List Text} (hne : ls ≠ []) (h : ∀ line ∈ ls, '\n' ∉ line) : lines (joinLines ls) = ls := by
  induction ls with
  | nil => exact absurd rfl hne
  | cons line ls ih =>
    obtain ⟨hline, hls⟩ := List.forall_mem_cons.mp h
    cases ls with
    | nil => exact splitOn_of_not_mem hline
    | cons line' ls =>
      unfold joinLines lines
      rw [joinWith_cons _ _ _ (List.cons_ne_nil _ _), List.append_assoc, List.singleton_append, splitOn_append,
        splitOn_of_not_mem hline]
      exact congrArg (line :: ·) (ih (List.cons_ne_nil _ _) hls)

/-- The lines of joined texts are those of the texts. -/
theorem lines_joinTexts {ts : List Text} (hne : ts ≠ []) : lines (joinLines ts) = ts.flatMap lines := by
  induction ts with
  | nil => exact absurd rfl hne
  | cons t ts ih =>
    by_cases hlast : ts = []
    · rw [hlast]
      exact (List.append_nil _).symm
    · unfold joinLines lines
      rw [joinWith_cons _ _ _ hlast, List.append_assoc, List.singleton_append, splitOn_append]
      exact congrArg (splitOn '\n' t ++ ·) (ih hlast)

theorem infix_of_mem_lines {t line : Text} (h : line ∈ lines t) : line <:+: t := by
  obtain ⟨front, back, hlines⟩ := List.append_of_mem h
  rw [← joinLines_lines t, hlines]
  unfold joinLines
  have hback : line <+: joinWith ['\n'] (line :: back) := by
    by_cases hnil : back = []
    · rw [hnil]
      exact List.prefix_refl line
    · rw [joinWith_cons _ _ _ hnil, List.append_assoc]
      exact List.prefix_append line _
  by_cases hnil : front = []
  · rw [hnil]
    exact hback.isInfix
  · rw [joinWith_append _ hnil (List.cons_ne_nil _ _)]
    exact hback.isInfix.trans (List.suffix_append _ _).isInfix

theorem mem_joinLines_iff {ls : List Text} {c : Char} (hc : c ≠ '\n') : c ∈ joinLines ls ↔ ∃ line ∈ ls, c ∈ line := by
  induction ls with
  | nil => simp [joinLines, joinWith]
  | cons line ls ih =>
    cases ls with
    | nil => simp [joinLines, joinWith]
    | cons line' ls =>
      unfold joinLines at ih ⊢
      rw [joinWith_cons _ _ _ (List.cons_ne_nil _ _), List.append_assoc, List.mem_append, List.mem_append, ih]
      simp [hc]

/-- Lines without line boundaries are joined to a text with no boundaries but newlines. -/
theorem boundaries_joinLines {ls : List Text} (h : ∀ line ∈ ls, ∀ c ∈ line, isBoundary c = false) :
    ∀ c ∈ joinLines ls, isBoundary c = true → c = '\n' := by
  intro c hc hboundary
  refine Decidable.byContradiction fun hn => ?_
  obtain ⟨line, hline, hmem⟩ := (mem_joinLines_iff hn).mp hc
  rw [h line hline c hmem] at hboundary
  cases hboundary

/-- The lines of a text with no boundaries but newlines have none. -/
theorem boundaries_lines {t : Text} (h : ∀ c ∈ t, isBoundary c = true → c = '\n') :
    ∀ line ∈ lines t, ∀ c ∈ line, isBoundary c = false := by
  intro line hline c hc
  have hn : c ≠ '\n' := by
    rintro rfl
    exact not_mem_of_mem_splitOn hline hc
  rw [← Bool.not_eq_true]
  intro hboundary
  refine hn (h c ?_ hboundary)
  rw [← joinLines_lines t]
  exact (mem_joinLines_iff hn).mpr ⟨line, hline, hc⟩

theorem lines_newline (t : Text) : lines ('\n' :: t) = [] :: lines t := splitOn_append '\n' [] t

theorem lines_ne_nil (t : Text) : lines t ≠ [] := splitOn_ne_nil '\n' t

/-- The first line of a text, up to its newline. -/
theorem lines_line {line : Text} (h : '\n' ∉ line) (t : Text) : lines (line ++ '\n' :: t) = line :: lines t := by
  have := splitOn_append '\n' line t
  rwa [splitOn_of_not_mem h] at this

theorem lines_cons_of_ne {c : Char} (hc : c ≠ '\n') (t : Text) :
    ∃ line more, lines t = line :: more ∧ lines (c :: t) = (c :: line) :: more := by
  obtain ⟨line, more, h⟩ := List.exists_cons_of_ne_nil (lines_ne_nil t)
  exact ⟨line, more, h, (splitOn_cons h c).trans (if_neg hc)⟩

theorem lines_append_of_line {x t line : Text} {more : List Text} (hx : '\n' ∉ x) (ht : lines t = line :: more) :
    lines (x ++ t) = (x ++ line) :: more := by
  induction x with
  | nil => exact ht
  | cons c x ih =>
    rw [List.mem_cons, not_or] at hx
    obtain ⟨line', more', hlines, hcons⟩ := lines_cons_of_ne (Ne.symm hx.1) (x ++ t)
    rw [ih hx.2] at hlines
    cases hlines
    exact hcons

/-- The first line of a text that starts with a line under way. -/
theorem lines_append_line {x : Text} (hx : '\n' ∉ x) (t : Text) :
    ∃ line more, lines (x ++ t) = (x ++ line) :: more := by
  obtain ⟨line, more, ht⟩ := List.exists_cons_of_ne_nil (splitOn_ne_nil '\n' t)
  exact ⟨line, more, lines_append_of_line hx ht⟩

/-! ## Whole lines -/

/-- The text ends with a newline, unless it is empty, and has no other line boundaries. -/
structure IsWholeLines (t : Text) : Prop where
  ends : t = [] ∨ t.getLast? = some '\n'
  boundaries : ∀ c ∈ t, isBoundary c = true → c = '\n'

instance (t : Text) : Decidable (IsWholeLines t) :=
  decidable_of_iff ((t = [] ∨ t.getLast? = some '\n') ∧ t.all (fun c => decide (isBoundary c → c = '\n')) = true)
    ⟨fun ⟨hends, hall⟩ => ⟨hends, fun c hc => of_decide_eq_true (List.all_eq_true.mp hall c hc)⟩,
      fun h => ⟨h.ends, List.all_eq_true.mpr fun c hc => decide_eq_true (h.boundaries c hc)⟩⟩

/-- The lines of a text that ends with a newline, without the empty one after it. -/
def wholeLines (t : Text) : List Text := (lines t).dropLast

/-- A text of whole lines is empty or has a newline at its end. -/
theorem IsWholeLines.cases {t : Text} (h : IsWholeLines t) :
    t = [] ∨ ∃ front, t = front ++ ['\n'] ∧ ∀ c ∈ front, isBoundary c = true → c = '\n' := by
  rcases h.ends with rfl | hlast
  · exact .inl rfl
  · obtain ⟨front, rfl⟩ := List.getLast?_eq_some_iff.mp hlast
    exact .inr ⟨front, rfl, fun c hc => h.boundaries c (List.mem_append_left _ hc)⟩

theorem wholeLines_newline (front : Text) : wholeLines (front ++ ['\n']) = lines front := by
  unfold wholeLines lines
  rw [splitOn_append]
  exact List.dropLast_concat

theorem IsWholeLines.lines_eq {t : Text} (h : IsWholeLines t) : lines t = wholeLines t ++ [[]] := by
  rcases h.cases with rfl | ⟨front, rfl, -⟩
  · rfl
  · rw [wholeLines_newline]
    exact splitOn_append '\n' front []

/-- The lines of a text after whole lines come after these. -/
theorem lines_append {a : Text} (h : IsWholeLines a) (b : Text) : lines (a ++ b) = wholeLines a ++ lines b := by
  rcases h.cases with rfl | ⟨front, rfl, -⟩
  · rfl
  · rw [wholeLines_newline, List.append_assoc]
    exact splitOn_append '\n' front b

theorem length_lines_cons (c : Char) (t : Text) :
    (lines (c :: t)).length = if c = '\n' then (lines t).length + 1 else (lines t).length := by
  by_cases hc : c = '\n'
  · rw [if_pos hc, hc, lines_newline, List.length_cons]
  · obtain ⟨line, more, hlines, hcons⟩ := lines_cons_of_ne hc t
    rw [if_neg hc, hcons, hlines, List.length_cons, List.length_cons]

/-- A line for each newline character, and the last. -/
theorem lineCount_eq (t : Text) : lineCount t = t.count '\n' + 1 := by
  induction t with
  | nil => rfl
  | cons c t ih =>
    rw [lineCount] at ih ⊢
    rw [length_lines_cons, ih, List.count_cons]
    by_cases hc : c = '\n' <;> simp [hc]

theorem boundaryLinesFrom_nil (current : Text) :
    boundaryLinesFrom current [] = if current = [] then [] else [current.reverse] := rfl

/-- A carriage return and the newline after it are one boundary. -/
theorem boundaryLinesFrom_return (current t : Text) :
    boundaryLinesFrom current ('\r' :: '\n' :: t) = current.reverse :: boundaryLinesFrom [] t := rfl

theorem boundaryLinesFrom_char (current : Text) {c : Char} {t : Text}
    (h : ∀ rest, c = '\r' → t = '\n' :: rest → False) : boundaryLinesFrom current (c :: t) =
      if isBoundary c then current.reverse :: boundaryLinesFrom [] t else boundaryLinesFrom (c :: current) t := by
  rw [boundaryLinesFrom]
  exact h

theorem boundaryLinesFrom_cons (current : Text) {c : Char} (hc : c ≠ '\r') (t : Text) :
    boundaryLinesFrom current (c :: t) =
      if isBoundary c then current.reverse :: boundaryLinesFrom [] t else boundaryLinesFrom (c :: current) t :=
  boundaryLinesFrom_char current fun _ h => absurd h hc

/-- Up to a newline, the line boundaries are the newlines; the line under way does not matter. -/
theorem length_boundaryLinesFrom_newline {front : Text} (h : ∀ c ∈ front, isBoundary c = true → c = '\n')
    (current b : Text) :
    (boundaryLinesFrom current (front ++ '\n' :: b)).length = (lines front).length + (boundaryLines b).length := by
  induction front generalizing current with
  | nil =>
    rw [List.nil_append, boundaryLinesFrom_cons current (by decide), if_pos (by decide), List.length_cons]
    exact Nat.add_comm _ _
  | cons c front ih =>
    obtain ⟨hc, hfront⟩ := List.forall_mem_cons.mp h
    have hr : c ≠ '\r' := by
      rintro rfl
      exact absurd (hc (by decide)) (by decide)
    rw [List.cons_append, boundaryLinesFrom_cons current hr, length_lines_cons]
    by_cases hn : c = '\n'
    · rw [if_pos hn, hn, if_pos (by decide), List.length_cons, ih hfront]
      omega
    · rw [if_neg hn, if_neg fun hb => hn (hc hb), ih hfront]

/-- Whole lines are counted by themselves. -/
theorem length_boundaryLines_append {a : Text} (h : IsWholeLines a) (b : Text) :
    (boundaryLines (a ++ b)).length = (wholeLines a).length + (boundaryLines b).length := by
  rcases h.cases with rfl | ⟨front, rfl, hfront⟩
  · exact (Nat.zero_add _).symm
  · rw [wholeLines_newline, List.append_assoc]
    exact length_boundaryLinesFrom_newline hfront [] b

theorem IsWholeLines.length_boundaryLines {a : Text} (h : IsWholeLines a) :
    (boundaryLines a).length = (wholeLines a).length := by
  have := length_boundaryLines_append h []
  rwa [List.append_nil] at this

/-- **With no line boundaries but newlines there are no more boundaries than lines.** -/
theorem length_boundaryLines_le {t : Text} (h : ∀ c ∈ t, isBoundary c = true → c = '\n') :
    (boundaryLines t).length ≤ lineCount t := by
  unfold boundaryLines lineCount
  generalize hcurrent : ([] : Text) = current
  clear hcurrent
  induction t generalizing current with
  | nil =>
    rw [boundaryLinesFrom_nil]
    split
    · exact Nat.zero_le _
    · exact Nat.le_refl _
  | cons c t ih =>
    obtain ⟨hc, ht⟩ := List.forall_mem_cons.mp h
    have hr : c ≠ '\r' := by
      rintro rfl
      exact absurd (hc (by decide)) (by decide)
    rw [boundaryLinesFrom_cons current hr, length_lines_cons]
    by_cases hn : c = '\n'
    · rw [if_pos hn, hn, if_pos (by decide), List.length_cons]
      exact Nat.succ_le_succ (ih ht [])
    · rw [if_neg hn, if_neg fun hb => hn (hc hb)]
      exact ih ht _

theorem boundaryLinesFrom_pos {current : Text} (h : current ≠ []) (t : Text) :
    0 < (boundaryLinesFrom current t).length := by
  induction current, t using boundaryLinesFrom.induct with
  | case1 => contradiction
  | case2 current h =>
    rw [boundaryLinesFrom_nil, if_neg h]
    exact Nat.one_pos
  | case3 current t => exact Nat.succ_pos _
  | case4 current c t hnot hc =>
    rw [boundaryLinesFrom_char current hnot, if_pos hc]
    exact Nat.succ_pos _
  | case5 current c t hnot hc ih =>
    rw [boundaryLinesFrom_char current hnot, if_neg hc]
    exact ih (List.cons_ne_nil c current)

theorem drop_boundaryLinesFrom (current t : Text) :
    ∀ line ∈ (lines t).drop (boundaryLinesFrom current t).length, line = [] := by
  induction current, t using boundaryLinesFrom.induct with
  | case1 => exact fun line hline => List.mem_singleton.mp hline
  | case2 current h =>
    rw [boundaryLinesFrom_nil, if_neg h]
    exact fun _ hline => nomatch hline
  | case3 current t ih =>
    obtain ⟨line, more, hlines, hcons⟩ := lines_cons_of_ne (show '\r' ≠ '\n' by decide) ('\n' :: t)
    rw [lines_newline] at hlines
    cases hlines
    rw [boundaryLinesFrom_return, hcons]
    exact ih
  | case4 current c t hnot hc ih =>
    rw [boundaryLinesFrom_char current hnot, if_pos hc, List.length_cons]
    by_cases hn : c = '\n'
    · rw [hn, lines_newline]
      exact ih
    · obtain ⟨line, more, hlines, hcons⟩ := lines_cons_of_ne hn t
      rw [hlines] at ih
      rw [hcons, List.drop_succ_cons]
      exact fun line hline => ih line (List.mem_of_mem_drop (i := 1) (by rwa [List.drop_drop]))
  | case5 current c t hnot hc ih =>
    have hn : c ≠ '\n' := by
      rintro rfl
      exact hc (by decide)
    obtain ⟨line, more, hlines, hcons⟩ := lines_cons_of_ne hn t
    obtain ⟨n, hlen⟩ := Nat.exists_eq_succ_of_ne_zero
      (Nat.pos_iff_ne_zero.mp (boundaryLinesFrom_pos (List.cons_ne_nil c current) t))
    rw [hlines, hlen] at ih
    rw [boundaryLinesFrom_char current hnot, if_neg hc, hlen, hcons]
    exact ih

/-- **No line but an empty last one is left out when lines are counted by all boundaries.** -/
theorem drop_boundaryLines (t : Text) : ∀ line ∈ (lines t).drop (boundaryLines t).length, line = [] :=
  drop_boundaryLinesFrom [] t

/-! ## Lines read back -/

/-- No line boundary. -/
def IsLine (t : Text) : Prop := ∀ c ∈ t, isBoundary c = false

instance (t : Text) : Decidable (IsLine t) := inferInstanceAs (Decidable (∀ c ∈ t, isBoundary c = false))

theorem isLine_append {a b : Text} : IsLine (a ++ b) ↔ IsLine a ∧ IsLine b := List.forall_mem_append

theorem isLine_cons {c : Char} {t : Text} : IsLine (c :: t) ↔ isBoundary c = false ∧ IsLine t := List.forall_mem_cons

theorem isLine_nil : IsLine [] := List.forall_mem_nil _

theorem boundaryLinesFrom_line {line : Text} (h : IsLine line) (current t : Text) :
    boundaryLinesFrom current (line ++ '\n' :: t) = (current.reverse ++ line) :: boundaryLines t := by
  induction line generalizing current with
  | nil =>
    rw [List.nil_append, boundaryLinesFrom_cons current (by decide), if_pos (by decide), List.append_nil]
    rfl
  | cons c line ih =>
    obtain ⟨hc, hline⟩ := List.forall_mem_cons.mp h
    have hr : c ≠ '\r' := by
      rintro rfl
      cases hc
    rw [List.cons_append, boundaryLinesFrom_cons current hr, hc, if_neg Bool.false_ne_true, ih hline]
    simp

theorem boundaryLinesFrom_last {line : Text} (h : IsLine line) (current : Text) (hne : current ++ line ≠ []) :
    boundaryLinesFrom current line = [current.reverse ++ line] := by
  induction line generalizing current with
  | nil =>
    rw [List.append_nil] at hne ⊢
    exact if_neg hne
  | cons c line ih =>
    obtain ⟨hc, hline⟩ := List.forall_mem_cons.mp h
    have hr : c ≠ '\r' := by
      rintro rfl
      cases hc
    rw [boundaryLinesFrom_cons current hr, hc, if_neg Bool.false_ne_true, ih hline _ (by simp)]
    simp

/-- **Lines are read back, if the last one is not empty.** -/
theorem boundaryLines_joinLines {ls : List Text} (h : ∀ line ∈ ls, IsLine line) {last : Text} (hlast : IsLine last)
    (hne : last ≠ []) : boundaryLines (joinLines (ls ++ [last])) = ls ++ [last] := by
  induction ls with
  | nil => exact boundaryLinesFrom_last hlast [] hne
  | cons line ls ih =>
    obtain ⟨hline, hls⟩ := List.forall_mem_cons.mp h
    rw [List.cons_append, joinLines, joinWith_cons _ _ _ (by simp), List.append_assoc]
    refine (boundaryLinesFrom_line hline [] _).trans ?_
    exact congrArg (line :: ·) (ih hls)

end SourceDoc.Text
