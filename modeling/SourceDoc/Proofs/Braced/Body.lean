import SourceDoc.Braced.Scan
import SourceDoc.Proofs.Text.Line
import SourceDoc.Text.Bracket

/-!
# Bodies of braced sources

Code has braces, and texts in which a brace is no brace: strings, runes, raw strings and comments.  `IsCode` says of a
text that it closes a number of open braces and all that it opens.  The search for the line that closes a block goes
over such a text without an end (`passes_code`), so it ends on the line of the next brace (`closingLine_block`).
-/

namespace SourceDoc.Braced

open Text

/-! ## Code -/

/-- The text is the inside of a string or a rune: a quote in it stands after a backslash. -/
inductive IsQuoted (quote : Char) : Text → Prop where
  | nil : IsQuoted quote []
  | plain (c : Char) (rest : Text) (hc : c ≠ quote ∧ c ≠ '\\' ∧ c ≠ '\n') (h : IsQuoted quote rest) :
    IsQuoted quote (c :: rest)
  | escaped (c : Char) (rest : Text) (hc : c ≠ '\n') (h : IsQuoted quote rest) : IsQuoted quote ('\\' :: c :: rest)

/-- The characters that may begin something else than code. -/
def codeMarks : List Char := ['/', '"', '\'', '\x60', '\x7b', '\x7d']

/-- After some open braces, the text closes these and all that it opens. -/
inductive IsCode : Nat → Text → Prop where
  | nil : IsCode 0 []
  | plain {depth : Nat} (c : Char) (rest : Text) (hc : c ∉ codeMarks) (h : IsCode depth rest) :
    IsCode depth (c :: rest)
  | slash {depth : Nat} (c : Char) (rest : Text) (hc : c ≠ '/' ∧ c ≠ '*') (h : IsCode depth (c :: rest)) :
    IsCode depth ('/' :: c :: rest)
  | opening {depth : Nat} (rest : Text) (h : IsCode (depth + 1) rest) : IsCode depth ('\x7b' :: rest)
  | closing {depth : Nat} (rest : Text) (h : IsCode depth rest) : IsCode (depth + 1) ('\x7d' :: rest)
  | lineComment {depth : Nat} (t rest : Text) (ht : '\n' ∉ t) (h : IsCode depth rest) :
    IsCode depth ('/' :: '/' :: t ++ '\n' :: rest)
  | blockComment {depth : Nat} (t rest : Text) (ht : ¬ ['*', '/'] <:+: t ++ ['*']) (h : IsCode depth rest) :
    IsCode depth ('/' :: '*' :: t ++ '*' :: '/' :: rest)
  | quoted {depth : Nat} (quote : Char) (t rest : Text) (hquote : quote = '"' ∨ quote = '\'') (ht : IsQuoted quote t)
    (h : IsCode depth rest) : IsCode depth (quote :: t ++ quote :: rest)
  /-- The end of its line ends a string that nothing else ends. -/
  | unquoted {depth : Nat} (quote : Char) (t rest : Text) (hquote : quote = '"' ∨ quote = '\'') (ht : IsQuoted quote t)
    (h : IsCode depth rest) : IsCode depth (quote :: t ++ '\n' :: rest)
  | raw {depth : Nat} (t rest : Text) (ht : '\x60' ∉ t) (h : IsCode depth rest) :
    IsCode depth ('\x60' :: t ++ '\x60' :: rest)

/-- Text without quotes, braces and comments is code. -/
theorem IsCode.text {depth : Nat} {t rest : Text} (hquote : ∀ c ∈ t, isQuote c = false)
    (hbrace : ∀ c ∈ t, c ≠ '\x7b' ∧ c ≠ '\x7d') (hbare : ¬ ['/', '/'] <:+: t ++ ['/']) (hstar : ¬ ['/', '*'] <:+: t)
    (h : IsCode depth rest) : IsCode depth (t ++ rest) := by
  induction t with
  | nil => exact h
  | cons c t ih =>
    obtain ⟨hc, hquote⟩ := List.forall_mem_cons.mp hquote
    obtain ⟨⟨hopen, hclose⟩, hbrace⟩ := List.forall_mem_cons.mp hbrace
    have hmore := ih hquote hbrace (fun hin => hbare (hin.trans (List.suffix_cons c _).isInfix))
      fun hin => hstar (hin.trans (List.suffix_cons c _).isInfix)
    by_cases hslash : c = '/'
    · subst hslash
      cases t with
      | nil => exact absurd ⟨[], [], rfl⟩ hbare
      | cons d t =>
        refine .slash d _ ⟨?_, ?_⟩ hmore
        · rintro rfl
          exact hbare ⟨[], t ++ ['/'], rfl⟩
        · rintro rfl
          exact hstar ⟨[], t, rfl⟩
    · refine .plain c _ ?_ hmore
      simp only [isQuote, Bool.or_eq_false_iff, decide_eq_false_iff_not] at hc
      simp [codeMarks, hslash, hc, hopen, hclose]

/-- Text without quotes, braces and slashes is code. -/
theorem IsCode.bare {depth : Nat} {t rest : Text} (ht : ∀ c ∈ t, c ∉ codeMarks) (h : IsCode depth rest) :
    IsCode depth (t ++ rest) := by
  induction t with
  | nil => exact h
  | cons c t ih =>
    obtain ⟨hc, ht⟩ := List.forall_mem_cons.mp ht
    exact .plain c _ hc (ih ht)

theorem not_codeMark_of_blank {t : Text} (h : isBlankText t = true) : ∀ c ∈ t, c ∉ codeMarks := by
  intro c hc hmem
  have hmark : ∀ d ∈ codeMarks, isBlank d = false := by decide
  have hblank := List.all_eq_true.mp h c hc
  rw [hmark c hmem] at hblank
  cases hblank

/-! ## The search for the closing line -/

namespace Progress

/-- How many lines of a text stand before the one that closes the block. -/
def closing? (p : Progress) (t : Text) : Option Nat := p.linesToClosing? (lines t)

/-- The search passes over the text, and is then as far as `p'`: the text closes no block. -/
def Passes (p : Progress) (t : Text) (p' : Progress) : Prop :=
  ∀ rest, p.closing? (t ++ rest) = (p'.closing? rest).map (· + t.count '\n')

theorem Passes.nil (p : Progress) : p.Passes [] p := fun _ => Option.map_id'.symm

theorem Passes.append {p p' p'' : Progress} {a b : Text} (ha : p.Passes a p') (hb : p'.Passes b p'') :
    p.Passes (a ++ b) p'' := by
  intro rest
  rw [List.append_assoc, ha, hb, Option.map_map, List.count_append]
  congr 1
  funext n
  exact (Nat.add_right_comm n _ _).trans (Nat.add_assoc n _ _)

/-- What has the same effect at the front of every line has the same effect in front of every text. -/
theorem closing_append {p p' : Progress} {x y : Text} (hx : '\n' ∉ x) (hy : '\n' ∉ y)
    (h : ∀ line, p.line? false (x ++ line) = p'.line? false (y ++ line)) (t : Text) :
    p.closing? (x ++ t) = p'.closing? (y ++ t) := by
  obtain ⟨line, more, ht⟩ := List.exists_cons_of_ne_nil (splitOn_ne_nil '\n' t)
  unfold closing?
  rw [lines_append_of_line hx ht, lines_append_of_line hy ht, linesToClosing?, linesToClosing?, h]

/-- What has no effect on a line is passed over. -/
theorem passes_of_line {p p' : Progress} {x : Text} (hx : '\n' ∉ x)
    (h : ∀ line, p.line? false (x ++ line) = p'.line? false line) : p.Passes x p' := by
  intro rest
  rw [closing_append hx List.not_mem_nil h, List.count_eq_zero.mpr hx]
  exact Option.map_id'.symm

/-- The end of a line that closes nothing. -/
theorem passes_line {p p' : Progress} {x : Text} (hx : '\n' ∉ x) (h : p.line? false x = some p') :
    p.Passes (x ++ ['\n']) p' := by
  intro rest
  have hcount : (x ++ ['\n']).count '\n' = 1 := by
    rw [List.count_append, List.count_eq_zero.mpr hx]
    rfl
  rw [hcount, List.append_assoc]
  unfold closing? lines
  rw [List.singleton_append, splitOn_append, splitOn_of_not_mem hx, List.singleton_append, linesToClosing?, h]

theorem passes_newline (p : Progress) (h : p.line? false [] = some p) : p.Passes ['\n'] p :=
  passes_line List.not_mem_nil h

/-! ## One piece of code -/

variable (depth : Nat)

theorem passes_plain {c : Char} (hc : c ∉ codeMarks) : Passes ⟨depth, .code⟩ [c] ⟨depth, .code⟩ := by
  by_cases hline : c = '\n'
  · subst hline
    exact passes_newline _ rfl
  · refine passes_of_line (by simpa using Ne.symm hline) fun line => ?_
    simp only [codeMarks, List.mem_cons, List.not_mem_nil, or_false, not_or] at hc
    simp [line?, hc]

theorem passes_slash {c : Char} (hc : c ≠ '/' ∧ c ≠ '*') (rest : Text) :
    closing? ⟨depth, .code⟩ ('/' :: c :: rest) = closing? ⟨depth, .code⟩ (c :: rest) := by
  by_cases hline : c = '\n'
  · subst hline
    exact (passes_line (x := ['/']) (p := ⟨depth, .code⟩) (by decide) rfl rest).trans
      (passes_newline ⟨depth, .code⟩ rfl rest).symm
  · refine closing_append (x := ['/', c]) (y := [c]) (by simp [Ne.symm hline]) (by simpa using Ne.symm hline)
      (fun line => ?_) rest
    simp [line?, hc]

theorem passes_opening : Passes ⟨depth, .code⟩ ['\x7b'] ⟨depth + 1, .code⟩ :=
  passes_of_line (by decide) fun line => by simp [line?]

theorem passes_closing (h : 1 ≤ depth) : Passes ⟨depth + 1, .code⟩ ['\x7d'] ⟨depth, .code⟩ :=
  passes_of_line (by decide) fun line => by simp [line?]; omega

/-! ## Comments -/

theorem passes_lineComment {t : Text} (ht : '\n' ∉ t) :
    Passes ⟨depth, .code⟩ ('/' :: '/' :: t ++ ['\n']) ⟨depth, .code⟩ :=
  passes_line (by simpa using ht) (line?_lineComment depth t)

theorem passes_star {c : Char} (hc : c ≠ '/') (rest : Text) :
    closing? ⟨depth, .blockComment⟩ ('*' :: c :: rest) = closing? ⟨depth, .blockComment⟩ (c :: rest) := by
  by_cases hline : c = '\n'
  · subst hline
    exact (passes_line (x := ['*']) (p := ⟨depth, .blockComment⟩) (by decide) rfl rest).trans
      (passes_newline ⟨depth, .blockComment⟩ rfl rest).symm
  · refine closing_append (x := ['*', c]) (y := [c]) (by simp [Ne.symm hline]) (by simpa using Ne.symm hline)
      (fun line => ?_) rest
    simp [line?, hc]

theorem passes_commentChar {c : Char} (hc : c ≠ '*') :
    Passes ⟨depth, .blockComment⟩ [c] ⟨depth, .blockComment⟩ := by
  by_cases hline : c = '\n'
  · subst hline
    exact passes_newline _ rfl
  · exact passes_of_line (by simpa using Ne.symm hline) fun line => by simp [line?, hc]

/-- The inside of a block comment and its end. -/
theorem passes_comment {t : Text} (ht : ¬ ['*', '/'] <:+: t ++ ['*']) :
    Passes ⟨depth, .blockComment⟩ (t ++ ['*', '/']) ⟨depth, .code⟩ := by
  induction t with
  | nil => exact passes_of_line (by decide) fun line => by simp [line?]
  | cons c t ih =>
    have hpass := ih fun h => ht (h.trans (List.suffix_cons c _).isInfix)
    by_cases hc : c = '*'
    · subst hc
      intro rest
      -- what follows the star is no slash
      obtain ⟨d, more, hmore⟩ : ∃ d more, t ++ ['*', '/'] ++ rest = d :: more :=
        List.exists_cons_of_ne_nil (by simp)
      have hd : d ≠ '/' := by
        rintro rfl
        cases t with
        | nil => exact absurd (List.cons.inj hmore).1 (by decide)
        | cons e t =>
          obtain ⟨rfl, -⟩ := List.cons.inj hmore
          exact ht ⟨[], t ++ ['*'], rfl⟩
      have hstar := passes_star depth hd more
      rw [← hmore] at hstar
      have hcount : ('*' :: t ++ ['*', '/']).count '\n' = (t ++ ['*', '/']).count '\n' := by
        rw [List.cons_append, List.count_cons_of_ne (by decide)]
      rw [hcount, ← hpass rest]
      exact hstar
    · exact (passes_commentChar depth hc).append hpass

theorem passes_blockComment {t : Text} (ht : ¬ ['*', '/'] <:+: t ++ ['*']) :
    Passes ⟨depth, .code⟩ ('/' :: '*' :: t ++ ['*', '/']) ⟨depth, .code⟩ := by
  have hopen : Passes ⟨depth, .code⟩ ['/', '*'] ⟨depth, .blockComment⟩ :=
    passes_of_line (by decide) fun line => by simp [line?]
  exact hopen.append (passes_comment depth ht)

/-! ## Strings -/

/-- The region that a quote begins. -/
def regionOf (quote : Char) : Region := if quote = '"' then .string else .rune

section

variable {quote : Char} (hquote : quote = '"' ∨ quote = '\'')

include hquote

theorem passes_quote : Passes ⟨depth, .code⟩ [quote] ⟨depth, regionOf quote⟩ := by
  rcases hquote with rfl | rfl
  · exact passes_of_line (by decide) fun line => by simp [line?, regionOf]
  · exact passes_of_line (by decide) fun line => by simp [line?, regionOf]

theorem passes_unquote : Passes ⟨depth, regionOf quote⟩ [quote] ⟨depth, .code⟩ := by
  rcases hquote with rfl | rfl
  · exact passes_of_line (by decide) fun line => by simp [line?, regionOf]
  · exact passes_of_line (by decide) fun line => by simp [line?, regionOf]

theorem passes_lineEnd : Passes ⟨depth, regionOf quote⟩ ['\n'] ⟨depth, .code⟩ := by
  rcases hquote with rfl | rfl
  · exact passes_line List.not_mem_nil rfl
  · exact passes_line List.not_mem_nil rfl

/-- The inside of a string or a rune. -/
theorem passes_inside {t : Text} (ht : IsQuoted quote t) :
    Passes ⟨depth, regionOf quote⟩ t ⟨depth, regionOf quote⟩ := by
  induction ht with
  | nil => exact .nil _
  | plain c rest hc h ih =>
    refine Passes.append (a := [c]) ?_ ih
    obtain ⟨hq, hslash, hline⟩ := hc
    refine passes_of_line (by simpa using hline.symm) fun line => ?_
    rcases hquote with rfl | rfl
    · simp [line?, regionOf, hq, hslash]
    · simp [line?, regionOf, hq, hslash]
  | escaped c rest hc h ih =>
    refine Passes.append (a := ['\\', c]) ?_ ih
    refine passes_of_line (by simp [hc.symm]) fun line => ?_
    rcases hquote with rfl | rfl
    · simp [line?, regionOf]
    · simp [line?, regionOf]

end

theorem passes_rawChar {c : Char} (hc : c ≠ '\x60') : Passes ⟨depth, .raw⟩ [c] ⟨depth, .raw⟩ := by
  by_cases hline : c = '\n'
  · subst hline
    exact passes_newline _ rfl
  · exact passes_of_line (by simpa using Ne.symm hline) fun line => by simp [line?, hc]

theorem passes_raw {t : Text} (ht : '\x60' ∉ t) :
    Passes ⟨depth, .code⟩ ('\x60' :: t ++ ['\x60']) ⟨depth, .code⟩ := by
  have hopen : Passes ⟨depth, .code⟩ ['\x60'] ⟨depth, .raw⟩ :=
    passes_of_line (by decide) fun line => by simp [line?]
  have hclose : Passes ⟨depth, .raw⟩ ['\x60'] ⟨depth, .code⟩ :=
    passes_of_line (by decide) fun line => by simp [line?]
  have hinside : Passes ⟨depth, .raw⟩ t ⟨depth, .raw⟩ := by
    induction t with
    | nil => exact .nil _
    | cons c t ih =>
      rw [List.mem_cons, not_or] at ht
      exact (passes_rawChar depth (Ne.symm ht.1)).append (ih ht.2)
  exact (hopen.append hinside).append hclose

/-! ## Code -/

/-- **Code that closes its braces is passed over;** `k` more braces are open around it. -/
theorem passes_code {open' : Nat} {t : Text} (h : IsCode open' t) {k : Nat} (hk : 1 ≤ k) :
    Passes ⟨k + open', .code⟩ t ⟨k, .code⟩ := by
  induction h with
  | nil => exact .nil _
  | plain c rest hc h ih => exact (passes_plain _ hc).append ih
  | @slash d c rest hc h ih =>
    intro more
    have hslash := passes_slash (k + d) hc (rest ++ more)
    have hcount : ('/' :: c :: rest).count '\n' = (c :: rest).count '\n' := List.count_cons_of_ne (by decide)
    rw [hcount, ← ih more]
    exact hslash
  | opening rest h ih => exact (passes_opening _).append ih
  | @closing d rest h ih => exact (passes_closing (k + d) (by omega)).append ih
  | lineComment t rest ht h ih =>
    rw [show ∀ a b : Text, a ++ '\n' :: b = a ++ ['\n'] ++ b by simp]
    exact (passes_lineComment _ ht).append ih
  | blockComment t rest ht h ih =>
    rw [show ∀ a b : Text, a ++ '*' :: '/' :: b = a ++ ['*', '/'] ++ b by simp]
    exact (passes_blockComment _ ht).append ih
  | quoted quote t rest hquote ht h ih =>
    rw [show ∀ a b : Text, a ++ quote :: b = a ++ ([quote] ++ b) by simp]
    refine Passes.append (a := quote :: t) ?_ ((passes_unquote _ hquote).append ih)
    exact (passes_quote _ hquote).append (passes_inside _ hquote ht)
  | unquoted quote t rest hquote ht h ih =>
    rw [show ∀ a b : Text, a ++ '\n' :: b = a ++ (['\n'] ++ b) by simp]
    refine Passes.append (a := quote :: t) ?_ ((passes_lineEnd _ hquote).append ih)
    exact (passes_quote _ hquote).append (passes_inside _ hquote ht)
  | raw t rest ht h ih =>
    rw [show ∀ a b : Text, a ++ '\x60' :: b = a ++ ['\x60'] ++ b by simp]
    exact (passes_raw _ ht).append ih

end Progress

/-! ## The closing line -/

/-- The text of some lines, each with its end. -/
def textOf (ls : List Text) : Text := (ls.map (· ++ ['\n'])).flatten

theorem lines_textOf {ls : List Text} (h : ∀ line ∈ ls, '\n' ∉ line) (t : Text) :
    lines (textOf ls ++ t) = ls ++ lines t := by
  induction ls with
  | nil => rfl
  | cons line ls ih =>
    obtain ⟨hline, hls⟩ := List.forall_mem_cons.mp h
    show splitOn '\n' (line ++ ['\n'] ++ textOf ls ++ t) = _
    rw [List.append_assoc, List.append_assoc, List.singleton_append, splitOn_append, splitOn_of_not_mem hline]
    exact congrArg (line :: ·) (ih hls)

theorem count_textOf {ls : List Text} (h : ∀ line ∈ ls, '\n' ∉ line) : (textOf ls).count '\n' = ls.length := by
  induction ls with
  | nil => rfl
  | cons line ls ih =>
    obtain ⟨hline, hls⟩ := List.forall_mem_cons.mp h
    show (line ++ ['\n'] ++ textOf ls).count '\n' = _
    rw [List.count_append, List.count_append, List.count_eq_zero.mpr hline, ih hls, List.length_cons]
    exact (congrArg (· + ls.length) (Nat.zero_add 1)).trans (Nat.add_comm _ _)

/-- Blanks at the front of a line have no effect. -/
theorem line_blank_append {pad : Text} (hpad : isBlankText pad = true) (p : Progress) (t : Text) :
    p.line? false (pad ++ t) = p.line? false t := by
  induction pad with
  | nil => rfl
  | cons c pad ih =>
    obtain ⟨depth, region⟩ := p
    have hmark : c ∉ codeMarks ∧ c ≠ '*' ∧ c ≠ '\\' := by
      refine ⟨not_codeMark_of_blank hpad c List.mem_cons_self, ?_, ?_⟩
      all_goals
        rintro rfl
        exact absurd (List.all_eq_true.mp hpad _ List.mem_cons_self) (by decide)
    unfold isBlankText at hpad
    rw [List.all_cons, Bool.and_eq_true] at hpad
    simp only [codeMarks, List.mem_cons, List.not_mem_nil, or_false, not_or] at hmark
    rw [List.cons_append, Progress.line?]
    cases region <;> simp only [hmark, false_and, if_false, Bool.false_eq_true] <;> exact ih hpad.2

/-- **A block is closed by the brace under a body that closes its own braces.** -/
theorem linesToClosing_body {body below : List Text} {pad : Text} (hpad : isBlankText pad = true)
    (hcode : IsCode 0 (textOf body)) (hline : ∀ l ∈ body ++ (pad ++ ['\x7d']) :: below, '\n' ∉ l) :
    Progress.linesToClosing? ⟨1, .code⟩ (body ++ (pad ++ ['\x7d']) :: below) = some body.length := by
  obtain ⟨hbody, hrest⟩ := List.forall_mem_append.mp hline
  have hlines : Text.lines (joinLines ((pad ++ ['\x7d']) :: below)) = (pad ++ ['\x7d']) :: below :=
    lines_joinLines (List.cons_ne_nil _ _) hrest
  have hpass := Progress.passes_code hcode (Nat.le_refl 1) (joinLines ((pad ++ ['\x7d']) :: below))
  have hbrace : Progress.closing? ⟨1, .code⟩ (joinLines ((pad ++ ['\x7d']) :: below)) = some 0 := by
    unfold Progress.closing?
    have hclose : Progress.line? ⟨1, .code⟩ false ['\x7d'] = none := rfl
    rw [hlines, Progress.linesToClosing?, line_blank_append hpad, hclose]
  rw [hbrace, count_textOf hbody, Progress.closing?, lines_textOf hbody, hlines] at hpass
  rw [hpass]
  exact congrArg some (Nat.zero_add _)

/-- The block ends where the search ends below its first line, if what stands behind the first brace of the block closes
nothing and leaves nothing open. -/
theorem closingLine_of_closing {lines above below : List Text} {line rest : Text} {n : Nat}
    (hlines : lines = above ++ (line ++ '\x7b' :: rest) :: below)
    (hrest : Progress.line? ⟨1, .code⟩ false rest = some ⟨1, .code⟩)
    (hclosing : Progress.linesToClosing? ⟨1, .code⟩ below = some n) (total : Nat) :
    closingLine lines total above.length line.length = above.length + n + 2 := by
  have hopen : Progress.line? ⟨0, .code⟩ false ('\x7b' :: rest) = some ⟨1, .code⟩ := hrest
  unfold closingLine
  rw [hlines, List.drop_left]
  simp only [List.drop_left]
  rw [Progress.linesToClosing?, hopen]
  simp only [hclosing, Option.map_some]
  omega

/-- **The block ends on the line of that brace.** -/
theorem closingLine_block {lines above body below : List Text} {line rest pad : Text}
    (hlines : lines = above ++ (line ++ '\x7b' :: rest) :: (body ++ (pad ++ ['\x7d']) :: below))
    (hrest : Progress.line? ⟨1, .code⟩ false rest = some ⟨1, .code⟩) (hpad : isBlankText pad = true)
    (hcode : IsCode 0 (textOf body)) (hline : ∀ l ∈ lines, '\n' ∉ l) (total : Nat) :
    closingLine lines total above.length line.length = above.length + body.length + 2 := by
  rw [hlines] at hline
  have hbelow := (List.forall_mem_cons.mp (List.forall_mem_append.mp hline).2).2
  exact closingLine_of_closing hlines hrest (linesToClosing_body hpad hcode hbelow) total

end SourceDoc.Braced
