import Mathlib.Data.List.Forall2
import SourceDoc.Braced.Scan
import SourceDoc.Proofs.List

/-!
# The closing line, read off one stream

The text from an opening brace on is one stream of characters and ends of lines.  `parts` says of each place of the
stream whether it is code, a mark around a literal or a comment, inside one, or part of an escape.  The search for the
closing line, which goes line by line, ends where the braces in code are first as many closing as opening ones:

    closingLine lines total i column = closingLineIn total i (streamFrom lines i column)        (closingLine_stream)

So what is inside literals and comments may be replaced (`parts_replaced`).
-/

namespace SourceDoc.Braced

open Text

/-! ## The parts of a stream -/

/-- A place of a stream: a character, or the end of a line. -/
inductive Sign where
  | char (c : Char)
  | lineEnd
  deriving DecidableEq, Repr

/-- Some lines as one stream. -/
def streamOf (lines : List Text) : List Sign := lines.flatMap fun line => line.map .char ++ [.lineEnd]

/-- The stream from a column of line `i` on. -/
def streamFrom (lines : List Text) (i column : Nat) : List Sign := (streamOf (lines.drop i)).drop column

/-- What a stream is in at a place. -/
inductive Mode where
  | code
  | lineComment
  | blockComment
  | raw
  /-- A string or a rune, up to its quote. -/
  | quoted (quote : Char)
  deriving DecidableEq, Repr

/-- What a place of a stream is. -/
inductive Part where
  | code
  /-- It begins or ends a literal or a comment. -/
  | mark
  /-- It is strictly inside a literal or a comment. -/
  | inside
  /-- It is a backslash in a string or a rune, or the character after one. -/
  | escape
  deriving DecidableEq, Repr

/-- What the places of a stream are.  Two slashes begin a comment that the line ends, a slash and a star one that a star
and a slash end; a backquote ends at the next one; a quote ends at the next one that is not escaped, or with its
line. -/
def parts : Mode → List Sign → List Part
  | _, [] => []
  | .code, .char '/' :: .char '/' :: rest => .mark :: .mark :: parts .lineComment rest
  | .code, .char '/' :: .char '*' :: rest => .mark :: .mark :: parts .blockComment rest
  | .code, .char '"' :: rest => .mark :: parts (.quoted '"') rest
  | .code, .char '\'' :: rest => .mark :: parts (.quoted '\'') rest
  | .code, .char '\x60' :: rest => .mark :: parts .raw rest
  | .code, _ :: rest => .code :: parts .code rest
  | .lineComment, .lineEnd :: rest => .code :: parts .code rest
  | .lineComment, _ :: rest => .inside :: parts .lineComment rest
  | .blockComment, .char '*' :: .char '/' :: rest => .mark :: .mark :: parts .code rest
  | .blockComment, _ :: rest => .inside :: parts .blockComment rest
  | .raw, .char '\x60' :: rest => .mark :: parts .code rest
  | .raw, _ :: rest => .inside :: parts .raw rest
  | .quoted _, .lineEnd :: rest => .code :: parts .code rest
  | .quoted q, .char '\\' :: .char _ :: rest => .escape :: .escape :: parts (.quoted q) rest
  | .quoted q, .char c :: rest =>
    if c = '\\' then .escape :: parts (.quoted q) rest
    else if c = q then .mark :: parts .code rest
    else .inside :: parts (.quoted q) rest

theorem parts_lineComment_other {sign : Sign} {s : List Sign} (h : sign ≠ .lineEnd) :
    parts .lineComment (sign :: s) = .inside :: parts .lineComment s := by
  rw [parts]
  exact h

theorem length_parts (mode : Mode) (s : List Sign) : (parts mode s).length = s.length := by
  fun_induction parts mode s
  all_goals simp only [List.length_nil, List.length_cons]
  all_goals omega

/-- A stream from code on, each place with what it is. -/
def annotated (mode : Mode) (s : List Sign) : List (Sign × Part) := s.zip (parts mode s)

theorem map_fst_annotated (mode : Mode) (s : List Sign) : (annotated mode s).map Prod.fst = s :=
  List.map_fst_zip (Nat.le_of_eq (length_parts mode s).symm)

/-! ## The closing brace of a stream -/

/-- How often a character stands in code among the first places of a stream. -/
def codeCount (c : Char) (n : Nat) (s : List (Sign × Part)) : Nat := (s.take n).count (.char c, .code)

/-- A closing brace in code stands at a place, and up to it as many braces are closed in code as are opened. -/
def Balances (s : List (Sign × Part)) (k : Nat) : Prop :=
  s[k]? = some (.char '\x7d', .code) ∧ codeCount '\x7b' (k + 1) s = codeCount '\x7d' (k + 1) s

instance (s : List (Sign × Part)) (k : Nat) : Decidable (Balances s k) := inferInstanceAs (Decidable (_ ∧ _))

/-- The first place of a stream where its braces balance. -/
def balance? (s : List (Sign × Part)) : Option Nat := (List.range s.length).find? fun k => Balances s k

/-- The number, from 1, of the line on which the braces of a stream that starts on line `i` first balance; without such
a line, the last of `total` lines. -/
def closingLineIn (total i : Nat) (s : List Sign) : Nat :=
  match balance? (annotated .code s) with
  | some k => i + 1 + (s.take k).count .lineEnd
  | none => max total (i + 1)

/-! ## The search, place by place -/

/-- How many braces are open after a place. -/
def bracesAfter (depth : Nat) (p : Sign × Part) : Nat :=
  if p = (.char '\x7b', .code) then depth + 1 else if p = (.char '\x7d', .code) then depth - 1 else depth

/-- The place where `depth` open braces are closed. -/
def balanceAfter? (depth : Nat) : List (Sign × Part) → Option Nat
  | [] => none
  | p :: rest =>
    if p = (.char '\x7d', .code) ∧ depth ≤ 1 then some 0 else (balanceAfter? (bracesAfter depth p) rest).map (· + 1)

/-- With `depth` braces open before a stream, its braces balance at a place. -/
def BalancesAfter (depth : Nat) (s : List (Sign × Part)) (k : Nat) : Prop :=
  s[k]? = some (.char '\x7d', .code) ∧ depth + codeCount '\x7b' (k + 1) s = codeCount '\x7d' (k + 1) s

instance (depth : Nat) (s : List (Sign × Part)) (k : Nat) : Decidable (BalancesAfter depth s k) :=
  inferInstanceAs (Decidable (_ ∧ _))

theorem codeCount_cons (c : Char) (k : Nat) (p : Sign × Part) (s : List (Sign × Part)) :
    codeCount c (k + 1) (p :: s) = codeCount c k s + if p = (.char c, .code) then 1 else 0 := by
  unfold codeCount
  rw [List.take_succ_cons, List.count_cons]
  simp only [beq_iff_eq]

theorem balancesAfter_zero {depth : Nat} (hdepth : 1 ≤ depth) (p : Sign × Part) (s : List (Sign × Part)) :
    BalancesAfter depth (p :: s) 0 ↔ p = (.char '\x7d', .code) ∧ depth ≤ 1 := by
  unfold BalancesAfter
  rw [codeCount_cons, codeCount_cons, List.getElem?_cons_zero, Option.some.injEq]
  constructor
  · rintro ⟨rfl, hcount⟩
    simp only [codeCount, List.take_zero, List.count_nil] at hcount
    exact ⟨rfl, by simp at hcount; omega⟩
  · rintro ⟨rfl, hle⟩
    refine ⟨rfl, ?_⟩
    simp only [codeCount, List.take_zero, List.count_nil]
    simp
    omega

/-- The braces balance at a later place if they do with what is open after the first one. -/
theorem balancesAfter_succ {depth : Nat} {p : Sign × Part} (hp : ¬ (p = (.char '\x7d', .code) ∧ depth ≤ 1))
    (s : List (Sign × Part)) (k : Nat) :
    BalancesAfter depth (p :: s) (k + 1) ↔ BalancesAfter (bracesAfter depth p) s k := by
  unfold BalancesAfter bracesAfter
  rw [codeCount_cons, codeCount_cons, List.getElem?_cons_succ]
  by_cases hopen : p = (.char '\x7b', .code)
  · subst hopen
    simp only [if_pos, Prod.mk.injEq, Sign.char.injEq, Char.reduceEq, false_and, if_false]
    refine and_congr_right fun _ => ?_
    omega
  · rw [if_neg hopen]
    by_cases hclose : p = (.char '\x7d', .code)
    · rw [if_pos hclose, if_neg hopen, if_pos hclose]
      refine and_congr_right fun _ => ?_
      have : ¬ depth ≤ 1 := fun h => hp ⟨hclose, h⟩
      omega
    · rw [if_neg hclose, if_neg hopen, if_neg hclose]
      simp only [Nat.add_zero]

/-- The first place that balances is found by counting the braces that are open. -/
theorem find_balancesAfter {depth : Nat} (hdepth : 1 ≤ depth) (s : List (Sign × Part)) :
    (List.range s.length).find? (fun k => BalancesAfter depth s k) = balanceAfter? depth s := by
  induction s generalizing depth with
  | nil => rfl
  | cons p s ih =>
    rw [List.length_cons, List.range_succ_eq_map, List.find?_cons, balanceAfter?]
    by_cases hp : p = (.char '\x7d', .code) ∧ depth ≤ 1
    · rw [if_pos hp, decide_eq_true ((balancesAfter_zero hdepth p s).mpr hp)]
    · rw [if_neg hp, decide_eq_false (mt (balancesAfter_zero hdepth p s).mp hp)]
      have hafter : 1 ≤ bracesAfter depth p := by
        unfold bracesAfter
        split
        · omega
        · split
          · rename_i hclose
            have : ¬ depth ≤ 1 := fun h => hp ⟨hclose, h⟩
            omega
          · exact hdepth
      rw [← ih hafter, List.find?_map]
      show (List.find? (fun k => decide (BalancesAfter depth (p :: s) (k + 1))) _).map _ = _
      simp only [balancesAfter_succ hp]

/-! ## Lines before the closing brace -/

/-- How many lines end before `depth` open braces are closed. -/
def linesToBalance? (depth : Nat) (s : List (Sign × Part)) : Option Nat :=
  (balanceAfter? depth s).map fun k => ((s.take k).map Prod.fst).count .lineEnd

theorem linesToBalance_cons (depth : Nat) (p : Sign × Part) (s : List (Sign × Part)) :
    linesToBalance? depth (p :: s) =
      if p = (.char '\x7d', .code) ∧ depth ≤ 1 then some 0
      else (linesToBalance? (bracesAfter depth p) s).map (· + if p.1 = .lineEnd then 1 else 0) := by
  unfold linesToBalance?
  rw [balanceAfter?]
  by_cases hp : p = (.char '\x7d', .code) ∧ depth ≤ 1
  · rw [if_pos hp, if_pos hp]
    rfl
  · rw [if_neg hp, if_neg hp, Option.map_map, Option.map_map]
    congr 1
    funext k
    show (((p :: s).take (k + 1)).map Prod.fst).count .lineEnd = _
    rw [List.take_succ_cons, List.map_cons, List.count_cons]
    simp only [beq_iff_eq, Function.comp_apply]

/-- A character that is no brace in code is passed over. -/
theorem linesToBalance_char (depth : Nat) (c : Char) (part : Part)
    (hpart : part ≠ .code ∨ c ≠ '\x7b' ∧ c ≠ '\x7d') (s : List (Sign × Part)) :
    linesToBalance? depth ((.char c, part) :: s) = linesToBalance? depth s := by
  have hopen : (Sign.char c, part) ≠ (.char '\x7b', .code) := by
    rintro ⟨⟩
    simp at hpart
  have hclose : (Sign.char c, part) ≠ (.char '\x7d', .code) := by
    rintro ⟨⟩
    simp at hpart
  rw [linesToBalance_cons, if_neg fun h => hclose h.1, bracesAfter, if_neg hopen, if_neg hclose]
  exact Option.map_id'

theorem linesToBalance_lineEnd (depth : Nat) (part : Part) (s : List (Sign × Part)) :
    linesToBalance? depth ((.lineEnd, part) :: s) = (linesToBalance? depth s).map (· + 1) := by
  have hopen : (Sign.lineEnd, part) ≠ (.char '\x7b', .code) := by simp
  have hclose : (Sign.lineEnd, part) ≠ (.char '\x7d', .code) := by simp
  rw [linesToBalance_cons, if_neg fun h => hclose h.1, bracesAfter, if_neg hopen, if_neg hclose, if_pos rfl]

theorem linesToBalance_opening (depth : Nat) (s : List (Sign × Part)) :
    linesToBalance? depth ((.char '\x7b', .code) :: s) = linesToBalance? (depth + 1) s := by
  rw [linesToBalance_cons, if_neg (by simp), bracesAfter, if_pos rfl]
  exact Option.map_id'

theorem linesToBalance_closing (depth : Nat) (s : List (Sign × Part)) :
    linesToBalance? depth ((.char '\x7d', .code) :: s) =
      if depth ≤ 1 then some 0 else linesToBalance? (depth - 1) s := by
  rw [linesToBalance_cons]
  by_cases hdepth : depth ≤ 1
  · rw [if_pos ⟨rfl, hdepth⟩, if_pos hdepth]
  · rw [if_neg fun h => hdepth h.2, if_neg hdepth, bracesAfter, if_neg (by simp), if_pos rfl]
    exact Option.map_id'

/-! ## Places that begin and end nothing -/

theorem annotated_cons {mode mode' : Mode} {sign : Sign} {part : Part} {s : List Sign}
    (h : parts mode (sign :: s) = part :: parts mode' s) :
    annotated mode (sign :: s) = (sign, part) :: annotated mode' s := by
  unfold annotated
  rw [h, List.zip_cons_cons]

theorem parts_code_other {sign : Sign} {s : List Sign}
    (hline : ¬ (sign = .char '/' ∧ s.head? = some (.char '/')))
    (hblock : ¬ (sign = .char '/' ∧ s.head? = some (.char '*'))) (hstring : sign ≠ .char '"')
    (hrune : sign ≠ .char '\'') (hraw : sign ≠ .char '\x60') :
    parts .code (sign :: s) = .code :: parts .code s := by
  rw [parts] <;> grind

theorem parts_blockComment_other {sign : Sign} {s : List Sign}
    (h : ¬ (sign = .char '*' ∧ s.head? = some (.char '/'))) :
    parts .blockComment (sign :: s) = .inside :: parts .blockComment s := by
  rw [parts]
  grind

theorem parts_raw_other {sign : Sign} {s : List Sign} (h : sign ≠ .char '\x60') :
    parts .raw (sign :: s) = .inside :: parts .raw s := by
  rw [parts]
  exact h

theorem parts_quoted_other {q c : Char} {s : List Sign} (hescape : c ≠ '\\') (hquote : c ≠ q) :
    parts (.quoted q) (.char c :: s) = .inside :: parts (.quoted q) s := by
  rw [parts, if_neg hescape, if_neg hquote]
  grind

theorem parts_quoted_quote {q : Char} {s : List Sign} (hquote : q ≠ '\\') :
    parts (.quoted q) (.char q :: s) = .mark :: parts .code s := by
  rw [parts, if_neg hquote, if_pos rfl]
  grind

/-- A backslash at the end of a line escapes nothing. -/
theorem parts_quoted_lastEscape {q : Char} {s : List Sign} (h : ∀ c, s.head? ≠ some (.char c)) :
    parts (.quoted q) (.char '\\' :: s) = .escape :: parts (.quoted q) s := by
  rw [parts, if_pos rfl]
  grind

/-! ## The search, line by line -/

/-- The mode of a region. -/
def Region.mode : Region → Mode
  | code => .code
  | blockComment => .blockComment
  | string => .quoted '"'
  | rune => .quoted '\''
  | raw => .raw

/-- How many lines of a stream end before the block is closed. -/
def Progress.linesIn? (p : Progress) (s : List Sign) : Option Nat := linesToBalance? p.depth (annotated p.region.mode s)

/-- The part of a line that is still to be read. -/
def unread (isSkipped : Bool) (line : Text) : Text := if isSkipped then line.drop 1 else line

namespace Progress

/-- A character that is no brace in code changes the region at most. -/
theorem linesIn_char {p : Progress} (region : Region) (part : Part) {c : Char} {s : List Sign}
    (hpart : part ≠ .code ∨ c ≠ '\x7b' ∧ c ≠ '\x7d')
    (hparts : parts p.region.mode (.char c :: s) = part :: parts region.mode s) :
    p.linesIn? (.char c :: s) = Progress.linesIn? { p with region := region } s := by
  unfold linesIn?
  rw [annotated_cons hparts, linesToBalance_char _ _ _ hpart]

/-- So do two characters that are read together. -/
theorem linesIn_pair {p : Progress} (region : Region) (part : Part) {c d : Char} {s : List Sign}
    (hpart : part ≠ .code)
    (hparts : parts p.region.mode (.char c :: .char d :: s) = part :: part :: parts region.mode s) :
    p.linesIn? (.char c :: .char d :: s) = Progress.linesIn? { p with region := region } s := by
  unfold linesIn? annotated
  rw [hparts, List.zip_cons_cons, List.zip_cons_cons, linesToBalance_char _ _ _ (.inl hpart),
    linesToBalance_char _ _ _ (.inl hpart)]

/-- A line ends a string and a rune, and no other literal or comment. -/
theorem linesIn_lineEnd {p : Progress} (region : Region) (part : Part) {s : List Sign}
    (hparts : parts p.region.mode (.lineEnd :: s) = part :: parts region.mode s) :
    p.linesIn? (.lineEnd :: s) = (Progress.linesIn? { p with region := region } s).map (· + 1) := by
  unfold linesIn?
  rw [annotated_cons hparts, linesToBalance_lineEnd]

/-- The line ends a comment that two slashes begin. -/
theorem linesIn_lineComment {p : Progress} (hregion : p.region = .code) (line : Text) (more : List Sign) :
    p.linesIn? (.char '/' :: .char '/' :: line.map .char ++ .lineEnd :: more) = (p.linesIn? more).map (· + 1) := by
  have hcomment : ∀ line : Text,
      linesToBalance? p.depth (annotated .lineComment (line.map .char ++ .lineEnd :: more)) =
        (p.linesIn? more).map (· + 1) := by
    intro line
    unfold linesIn?
    rw [hregion]
    induction line with
    | nil => exact linesToBalance_lineEnd p.depth .code (annotated .code more)
    | cons c line ih =>
      have hchar : Sign.char c ≠ .lineEnd := nofun
      rw [List.map_cons, List.cons_append, annotated_cons (parts_lineComment_other hchar),
        linesToBalance_char _ _ .inside (.inl nofun), ih]
  unfold linesIn?
  rw [hregion]
  show linesToBalance? p.depth ((.char '/', .mark) :: (.char '/', .mark) :: annotated .lineComment _) = _
  rw [linesToBalance_char _ _ .mark (.inl nofun), linesToBalance_char _ _ .mark (.inl nofun)]
  exact (hcomment line).trans (by rw [linesIn?, hregion])

/-- A backslash in a string or a rune is read with the next character of its line. -/
theorem linesIn_escape {p : Progress} (hregion : p.region = .string ∨ p.region = .rune) (rest : Text)
    (more : List Sign) :
    p.linesIn? (.char '\\' :: rest.map .char ++ .lineEnd :: more) =
      p.linesIn? ((unread true rest).map .char ++ .lineEnd :: more) := by
  obtain ⟨q, hmode⟩ : ∃ q, p.region.mode = .quoted q := by
    obtain hregion | hregion := hregion <;> rw [hregion] <;> exact ⟨_, rfl⟩
  cases rest with
  | nil =>
    apply linesIn_char p.region .escape (.inl nofun)
    rw [hmode]
    exact parts_quoted_lastEscape nofun
  | cons c rest =>
    apply linesIn_pair p.region .escape nofun
    rw [hmode]
    rfl

/-- The next character of a line is the next one of the stream. -/
theorem head_signs (rest : Text) (more : List Sign) (c : Char) :
    (rest.map Sign.char ++ .lineEnd :: more).head? = some (.char c) ↔ rest.head? = some c := by
  cases rest <;> simp

/-- **A line is read as its part of the stream.** -/
theorem line_stream (p : Progress) (isSkipped : Bool) (line : Text) (more : List Sign) :
    p.linesIn? ((unread isSkipped line).map .char ++ .lineEnd :: more) =
      match p.line? isSkipped line with
      | none => some 0
      | some p' => (p'.linesIn? more).map (· + 1) := by
  fun_induction Progress.line? p isSkipped line with
  | case1 p isSkipped =>
    obtain ⟨depth, region⟩ := p
    have hrest : unread isSkipped [] = [] := by cases isSkipped <;> rfl
    rw [hrest]
    cases region
    · exact linesIn_lineEnd .code .code rfl
    · exact linesIn_lineEnd .blockComment .inside rfl
    · exact linesIn_lineEnd .code .code rfl
    · exact linesIn_lineEnd .code .code rfl
    · exact linesIn_lineEnd .raw .inside rfl
  | case2 p c rest ih => exact ih
  | case3 p isSkipped c rest hskip hregion hslashes =>
    obtain ⟨rfl, hrest⟩ := hslashes
    obtain ⟨rest, rfl⟩ := List.head?_eq_some_iff.mp hrest
    rw [unread, if_neg hskip]
    exact linesIn_lineComment hregion rest more
  | case4 p isSkipped c rest hskip hregion hline hblock ih =>
    obtain ⟨rfl, hrest⟩ := hblock
    obtain ⟨rest, rfl⟩ := List.head?_eq_some_iff.mp hrest
    rw [unread, if_neg hskip]
    refine (linesIn_pair .blockComment .mark nofun ?_).trans ih
    rw [hregion]
    rfl
  | case5 p isSkipped rest hskip hregion hline hblock ih =>
    rw [unread, if_neg hskip]
    refine (linesIn_char .string .mark (.inl nofun) ?_).trans ih
    rw [hregion]
    rfl
  | case6 p isSkipped rest hskip hregion hline hblock hstring ih =>
    rw [unread, if_neg hskip]
    refine (linesIn_char .rune .mark (.inl nofun) ?_).trans ih
    rw [hregion]
    rfl
  | case7 p isSkipped rest hskip hregion hline hblock hstring hrune ih =>
    rw [unread, if_neg hskip]
    refine (linesIn_char .raw .mark (.inl nofun) ?_).trans ih
    rw [hregion]
    rfl
  | case8 p isSkipped rest hskip hregion hline hblock hstring hrune hraw ih =>
    rw [unread, if_neg hskip, ← ih]
    unfold linesIn?
    rw [hregion]
    exact linesToBalance_opening p.depth _
  | case9 p isSkipped rest hskip hregion hdepth =>
    rw [unread, if_neg hskip]
    unfold linesIn?
    rw [hregion]
    exact (linesToBalance_closing p.depth _).trans (if_pos hdepth)
  | case10 p isSkipped rest hskip hregion hdepth hline hblock hstring hrune hraw hopen ih =>
    rw [unread, if_neg hskip, ← ih]
    unfold linesIn?
    rw [hregion]
    exact (linesToBalance_closing p.depth _).trans (if_neg hdepth)
  | case11 p isSkipped c rest hskip hregion hline hblock hstring hrune hraw hopen hclose ih =>
    rw [unread, if_neg hskip]
    refine (linesIn_char p.region .code (.inr ⟨hopen, hclose⟩) ?_).trans ih
    rw [hregion]
    rw [← Sign.char.injEq, ← head_signs rest more] at hline hblock
    exact parts_code_other hline hblock (mt Sign.char.inj hstring) (mt Sign.char.inj hrune) (mt Sign.char.inj hraw)
  | case12 p isSkipped c rest hskip hregion hend ih =>
    obtain ⟨rfl, hrest⟩ := hend
    obtain ⟨rest, rfl⟩ := List.head?_eq_some_iff.mp hrest
    rw [unread, if_neg hskip]
    refine (linesIn_pair .code .mark nofun ?_).trans ih
    rw [hregion]
    rfl
  | case13 p isSkipped c rest hskip hregion hend ih =>
    rw [unread, if_neg hskip]
    refine (linesIn_char p.region .inside (.inl nofun) ?_).trans ih
    rw [hregion]
    rw [← Sign.char.injEq, ← head_signs rest more] at hend
    exact parts_blockComment_other hend
  | case14 p isSkipped rest hskip hregion ih =>
    rw [unread, if_neg hskip]
    exact (linesIn_escape (.inl hregion) rest more).trans ih
  | case15 p isSkipped rest hskip hregion hescape ih =>
    rw [unread, if_neg hskip]
    refine (linesIn_char .code .mark (.inl nofun) ?_).trans ih
    rw [hregion]
    exact parts_quoted_quote (by decide)
  | case16 p isSkipped c rest hskip hregion hescape hquote ih =>
    rw [unread, if_neg hskip]
    refine (linesIn_char p.region .inside (.inl nofun) ?_).trans ih
    rw [hregion]
    exact parts_quoted_other hescape hquote
  | case17 p isSkipped rest hskip hregion ih =>
    rw [unread, if_neg hskip]
    exact (linesIn_escape (.inr hregion) rest more).trans ih
  | case18 p isSkipped rest hskip hregion hescape ih =>
    rw [unread, if_neg hskip]
    refine (linesIn_char .code .mark (.inl nofun) ?_).trans ih
    rw [hregion]
    exact parts_quoted_quote (by decide)
  | case19 p isSkipped c rest hskip hregion hescape hquote ih =>
    rw [unread, if_neg hskip]
    refine (linesIn_char p.region .inside (.inl nofun) ?_).trans ih
    rw [hregion]
    exact parts_quoted_other hescape hquote
  | case20 p isSkipped rest hskip hregion ih =>
    rw [unread, if_neg hskip]
    refine (linesIn_char .code .mark (.inl nofun) ?_).trans ih
    rw [hregion]
    rfl
  | case21 p isSkipped c rest hskip hregion hraw ih =>
    rw [unread, if_neg hskip]
    refine (linesIn_char p.region .inside (.inl nofun) ?_).trans ih
    rw [hregion]
    exact parts_raw_other (mt Sign.char.inj hraw)

/-- **So are some lines.** -/
theorem linesToClosing_stream (p : Progress) (lines : List Text) :
    p.linesToClosing? lines = p.linesIn? (streamOf lines) := by
  induction lines generalizing p with
  | nil => rfl
  | cons line lines ih =>
    have hstream : streamOf (line :: lines) = line.map .char ++ .lineEnd :: streamOf lines := by
      unfold streamOf
      rw [List.flatMap_cons, List.append_assoc, List.singleton_append]
    rw [hstream, linesToClosing?]
    refine Eq.trans ?_ (line_stream p false line (streamOf lines)).symm
    cases p.line? false line with
    | none => rfl
    | some p' => exact congrArg (Option.map (· + 1)) (ih p')

end Progress

/-! ## The closing line -/

/-- From an opening brace on, the place that balances is the one that closes this brace. -/
theorem balance_opening (s : List (Sign × Part)) :
    balance? ((.char '\x7b', .code) :: s) = balanceAfter? 0 ((.char '\x7b', .code) :: s) := by
  have hopen : ¬ ((Sign.char '\x7b', Part.code) = (.char '\x7d', .code) ∧ 0 ≤ 1) := by simp
  have hsame : ∀ t k, Balances t k ↔ BalancesAfter 0 t k := by
    intro t k
    unfold Balances BalancesAfter
    rw [Nat.zero_add]
  have hfirst : ¬ BalancesAfter 0 ((.char '\x7b', .code) :: s) 0 := fun h => by simp [BalancesAfter] at h
  unfold balance?
  rw [List.length_cons, List.range_succ_eq_map, List.find?_cons, decide_eq_false (mt (hsame _ _).mp hfirst),
    balanceAfter?, if_neg hopen, List.find?_map, ← find_balancesAfter (by simp [bracesAfter])]
  show (List.find? (fun k => decide (Balances _ (k + 1))) _).map _ = _
  simp only [hsame, balancesAfter_succ hopen]

/-- The line of that place is as many lines below as the search passes. -/
theorem closingLineIn_opening (total i : Nat) (s : List Sign) :
    closingLineIn total i (.char '\x7b' :: s) =
      match Progress.linesIn? ⟨0, .code⟩ (.char '\x7b' :: s) with
      | some n => i + n + 1
      | none => max total (i + 1) := by
  have hlines : Progress.linesIn? ⟨0, .code⟩ (.char '\x7b' :: s) =
      (balance? (annotated .code (.char '\x7b' :: s))).map fun k => ((.char '\x7b' :: s).take k).count .lineEnd := by
    have hbalance : balance? (annotated .code (.char '\x7b' :: s)) =
        balanceAfter? 0 (annotated .code (.char '\x7b' :: s)) := balance_opening (annotated .code s)
    unfold Progress.linesIn? linesToBalance?
    simp only [List.map_take, map_fst_annotated, hbalance]
    rfl
  rw [hlines, closingLineIn]
  cases balance? (annotated .code (.char '\x7b' :: s)) with
  | none => rfl
  | some k =>
    show i + 1 + ((Sign.char '\x7b' :: s).take k).count .lineEnd =
      i + ((Sign.char '\x7b' :: s).take k).count .lineEnd + 1
    omega

/-- The text from a brace on, as a stream. -/
theorem streamFrom_opening {lines : List Text} {i column : Nat}
    (h : (lines[i]?).bind (·[column]?) = some '\x7b') :
    ∃ line rest s, lines.drop i = line :: rest ∧ streamOf (line.drop column :: rest) = streamFrom lines i column ∧
      streamFrom lines i column = .char '\x7b' :: s := by
  obtain ⟨line, hline, hcolumn⟩ := Option.bind_eq_some_iff.mp h
  obtain ⟨hi, rfl⟩ := List.getElem?_eq_some_iff.mp hline
  obtain ⟨hlength, hbrace⟩ := List.getElem?_eq_some_iff.mp hcolumn
  have hdrop : lines.drop i = lines[i] :: lines.drop (i + 1) := List.drop_eq_getElem_cons hi
  have hstream : streamOf (lines[i].drop column :: lines.drop (i + 1)) = streamFrom lines i column := by
    unfold streamFrom streamOf
    rw [hdrop, List.flatMap_cons, List.flatMap_cons, List.append_assoc, List.append_assoc, List.map_drop,
      List.drop_append_of_le_length (by rw [List.length_map]; omega)]
  refine ⟨lines[i], lines.drop (i + 1), ?_, hdrop, hstream, ?_⟩
  rotate_left
  rw [← hstream, List.drop_eq_getElem_cons hlength, hbrace]
  rfl

/-- The search goes along the stream from the brace on. -/
theorem closingLine_eq_linesIn {lines : List Text} {i column : Nat} (total : Nat)
    (h : (lines[i]?).bind (·[column]?) = some '\x7b') :
    closingLine lines total i column =
      match Progress.linesIn? ⟨0, .code⟩ (streamFrom lines i column) with
      | some n => i + n + 1
      | none => max total (i + 1) := by
  obtain ⟨line, rest, s, hdrop, hstream, -⟩ := streamFrom_opening h
  unfold closingLine
  rw [hdrop]
  show (match Progress.linesToClosing? ⟨0, .code⟩ (line.drop column :: rest) with
    | some n => i + n + 1 | none => max total (i + 1)) = _
  rw [Progress.linesToClosing_stream, hstream]

/-! ## Replaced characters -/

/-- A letter, a digit or an underscore. -/
def Sign.isLetter : Sign → Bool
  | .char c => Text.isWord c
  | .lineEnd => false

/-- A place has kept its character, or the character was strictly inside a literal or a comment and is replaced by a
letter, a digit or an underscore. -/
def Replaced (p : Sign × Part) (sign : Sign) : Prop :=
  p.1 = sign ∨ p.2 = .inside ∧ p.1 ≠ .lineEnd ∧ sign.isLetter

instance (p : Sign × Part) (sign : Sign) : Decidable (Replaced p sign) := inferInstanceAs (Decidable (_ ∨ _))

theorem Replaced.eq_of_not_inside {sign sign' : Sign} {part : Part} (h : Replaced (sign, part) sign')
    (hpart : part ≠ .inside) : sign' = sign := by
  obtain hsame | ⟨hinside, -⟩ := h
  · exact hsame.symm
  · exact absurd hinside hpart

/-- No mark takes the place of another character. -/
theorem Replaced.eq_char {p : Sign × Part} {c : Char} (h : Replaced p (.char c)) (hc : isWord c = false) :
    p.1 = .char c := by
  obtain hsame | ⟨-, -, hletter⟩ := h
  · exact hsame
  · exact absurd (hc.symm.trans hletter) nofun

theorem Replaced.lineEnd_iff {p : Sign × Part} {sign : Sign} (h : Replaced p sign) :
    p.1 = .lineEnd ↔ sign = .lineEnd := by
  obtain hsame | ⟨-, hchar, hletter⟩ := h
  · rw [hsame]
  · constructor
    · intro hend
      exact absurd hend hchar
    · rintro rfl
      contradiction

theorem replaced_cons {sign : Sign} {part : Part} {s s' : List Sign} {ps : List Part}
    (h : List.Forall₂ Replaced ((sign :: s).zip (part :: ps)) s') :
    ∃ sign' t, s' = sign' :: t ∧ Replaced (sign, part) sign' ∧ List.Forall₂ Replaced (s.zip ps) t := by
  obtain ⟨sign', t, hsign, hrest, rfl⟩ := List.forall₂_cons_left_iff.mp h
  exact ⟨sign', t, rfl, hsign, hrest⟩

/-- A place that is not strictly inside a literal or a comment stays. -/
theorem replaced_cons_same {sign : Sign} {part : Part} {s s' : List Sign} {ps : List Part}
    (h : List.Forall₂ Replaced ((sign :: s).zip (part :: ps)) s') (hpart : part ≠ .inside) :
    ∃ t, s' = sign :: t ∧ List.Forall₂ Replaced (s.zip ps) t := by
  obtain ⟨sign', t, rfl, hsign, hrest⟩ := replaced_cons h
  exact ⟨t, by rw [hsign.eq_of_not_inside hpart], hrest⟩

theorem head_of_replaced {s s' : List Sign} {ps : List Part} (h : List.Forall₂ Replaced (s.zip ps) s') {c : Char}
    (hc : isWord c = false) (hhead : s'.head? = some (.char c)) : s.head? = some (.char c) := by
  cases s with
  | nil =>
    cases h
    contradiction
  | cons sign s =>
    cases ps with
    | nil =>
      cases h
      contradiction
    | cons part ps =>
      obtain ⟨sign', t, rfl, hsign, -⟩ := replaced_cons h
      obtain rfl : sign' = .char c := Option.some.inj hhead
      exact congrArg some (hsign.eq_char hc)

/-- **What is strictly inside literals and comments does not decide what the places of a stream are.** -/
theorem parts_replaced {mode : Mode} (hmode : ∀ q, mode = .quoted q → isWord q = false) {s s' : List Sign}
    (h : List.Forall₂ Replaced (annotated mode s) s') : parts mode s' = parts mode s := by
  unfold annotated at h
  fun_induction parts mode s generalizing s' with
  | case1 =>
    cases h
    rw [parts]
  | case2 rest ih | case3 rest ih =>
    obtain ⟨t, rfl, hs⟩ := replaced_cons_same h nofun
    obtain ⟨t, rfl, ht⟩ := replaced_cons_same hs nofun
    exact congrArg (fun ps => .mark :: .mark :: ps) (ih nofun ht)
  | case4 rest ih | case5 rest ih =>
    obtain ⟨t, rfl, hs⟩ := replaced_cons_same h nofun
    refine congrArg (fun ps => .mark :: ps) (ih ?_ hs)
    rintro q ⟨⟩
    decide
  | case6 rest ih =>
    obtain ⟨t, rfl, hs⟩ := replaced_cons_same h nofun
    exact congrArg (fun ps => .mark :: ps) (ih nofun hs)
  | case7 sign rest hline hblock hstring hrune hraw ih =>
    obtain ⟨t, rfl, hs⟩ := replaced_cons_same h nofun
    rw [parts_code_other ?_ ?_ hstring hrune hraw, ih nofun hs]
    · rintro ⟨hsign, hhead⟩
      obtain ⟨rest', hrest⟩ := List.head?_eq_some_iff.mp (head_of_replaced hs (by decide) hhead)
      exact hline rest' hsign hrest
    · rintro ⟨hsign, hhead⟩
      obtain ⟨rest', hrest⟩ := List.head?_eq_some_iff.mp (head_of_replaced hs (by decide) hhead)
      exact hblock rest' hsign hrest
  | case8 rest ih =>
    obtain ⟨t, rfl, hs⟩ := replaced_cons_same h nofun
    exact congrArg (fun ps => .code :: ps) (ih nofun hs)
  | case9 sign rest hsign ih =>
    obtain ⟨sign', t, rfl, hsign', hs⟩ := replaced_cons h
    rw [parts_lineComment_other (mt hsign'.lineEnd_iff.mpr hsign), ih nofun hs]
  | case10 rest ih =>
    obtain ⟨t, rfl, hs⟩ := replaced_cons_same h nofun
    obtain ⟨t, rfl, ht⟩ := replaced_cons_same hs nofun
    exact congrArg (fun ps => .mark :: .mark :: ps) (ih nofun ht)
  | case11 sign rest hend ih =>
    obtain ⟨sign', t, rfl, hsign, hs⟩ := replaced_cons h
    rw [parts_blockComment_other ?_, ih nofun hs]
    rintro ⟨rfl, hhead⟩
    obtain ⟨rest', hrest⟩ := List.head?_eq_some_iff.mp (head_of_replaced hs (by decide) hhead)
    exact hend rest' (hsign.eq_char (by decide)) hrest
  | case12 rest ih =>
    obtain ⟨t, rfl, hs⟩ := replaced_cons_same h nofun
    exact congrArg (fun ps => .mark :: ps) (ih nofun hs)
  | case13 sign rest hraw ih =>
    obtain ⟨sign', t, rfl, hsign, hs⟩ := replaced_cons h
    rw [parts_raw_other ?_, ih nofun hs]
    rintro rfl
    exact hraw (hsign.eq_char (by decide))
  | case14 q rest ih =>
    obtain ⟨t, rfl, hs⟩ := replaced_cons_same h nofun
    exact congrArg (fun ps => .code :: ps) (ih nofun hs)
  | case15 q c rest ih =>
    obtain ⟨t, rfl, hs⟩ := replaced_cons_same h nofun
    obtain ⟨t, rfl, ht⟩ := replaced_cons_same hs nofun
    exact congrArg (fun ps => .escape :: .escape :: ps) (ih hmode ht)
  | case16 q rest hlast ih =>
    obtain ⟨t, rfl, hs⟩ := replaced_cons_same h nofun
    rw [parts_quoted_lastEscape ?_, ih hmode hs]
    intro c hhead
    match rest with
    | [] =>
      cases hs
      contradiction
    | .lineEnd :: rest =>
      obtain ⟨t, rfl, -⟩ := replaced_cons_same hs nofun
      exact absurd (Option.some.inj hhead) nofun
    | .char c :: rest => exact hlast c rest rfl rfl
  | case17 q rest hlast hescape ih =>
    obtain ⟨t, rfl, hs⟩ := replaced_cons_same h nofun
    rw [parts_quoted_quote hescape, ih nofun hs]
  | case18 q c rest hlast hescape hquote ih =>
    obtain ⟨sign', t, rfl, hsign, hs⟩ := replaced_cons h
    obtain ⟨c', rfl⟩ : ∃ c', sign' = .char c' := by
      cases sign' with
      | char c' => exact ⟨c', rfl⟩
      | lineEnd => exact absurd (hsign.lineEnd_iff.mpr rfl) nofun
    rw [parts_quoted_other ?_ ?_, ih hmode hs]
    · rintro rfl
      exact hescape (Sign.char.inj (hsign.eq_char (by decide)))
    · rintro rfl
      exact hquote (Sign.char.inj (hsign.eq_char (hmode _ rfl)))

/-- Nor does it decide which braces are in code. -/
theorem Replaced.eq_code_iff {p : Sign × Part} {sign : Sign} (h : Replaced p sign) (c : Char) :
    (sign, p.2) = (.char c, .code) ↔ p = (.char c, .code) := by
  obtain ⟨sign', part⟩ := p
  by_cases hpart : part = .inside
  · subst hpart
    simp
  · rw [h.eq_of_not_inside hpart]

theorem linesToBalance_replaced (depth : Nat) {s : List (Sign × Part)} {s' : List Sign}
    (h : List.Forall₂ Replaced s s') : linesToBalance? depth (s'.zip (s.map Prod.snd)) = linesToBalance? depth s := by
  induction h generalizing depth with
  | nil => rfl
  | @cons p sign s s' hp _ ih =>
    have hdepth : bracesAfter depth (sign, p.2) = bracesAfter depth p := by
      unfold bracesAfter
      simp only [hp.eq_code_iff]
    rw [List.map_cons, List.zip_cons_cons, linesToBalance_cons, linesToBalance_cons, ih, hdepth]
    simp only [hp.eq_code_iff, hp.lineEnd_iff]

theorem linesIn_replaced {s s' : List Sign} (h : List.Forall₂ Replaced (annotated .code s) s') :
    Progress.linesIn? ⟨0, .code⟩ s' = Progress.linesIn? ⟨0, .code⟩ s := by
  have hmode : ∀ q, Mode.code = .quoted q → isWord q = false := nofun
  have hparts : parts .code s' = (annotated .code s).map Prod.snd := by
    rw [parts_replaced hmode h]
    exact (List.map_snd_zip (Nat.le_of_eq (length_parts .code s))).symm
  unfold Progress.linesIn?
  show linesToBalance? 0 (s'.zip (parts .code s')) = linesToBalance? 0 (annotated .code s)
  rw [hparts, linesToBalance_replaced 0 h]

/-! ## The reference -/

/-- **The closing line is the line of the first closing brace in code at which the braces balance.** -/
theorem closingLine_stream {lines : List Text} {i column : Nat} (total : Nat)
    (h : (lines[i]?).bind (·[column]?) = some '\x7b') :
    closingLine lines total i column = closingLineIn total i (streamFrom lines i column) ∧
      ∀ lines' : List Text, (lines'[i]?).bind (·[column]?) = some '\x7b' →
        List.Forall₂ Replaced (annotated .code (streamFrom lines i column)) (streamFrom lines' i column) →
        closingLine lines' total i column = closingLine lines total i column := by
  constructor
  · obtain ⟨line, rest, s, -, -, hs⟩ := streamFrom_opening h
    rw [closingLine_eq_linesIn total h, hs, closingLineIn_opening]
  · intro lines' h' hreplaced
    rw [closingLine_eq_linesIn total h, closingLine_eq_linesIn total h', linesIn_replaced hreplaced]

/-- A block with braces in comments, a string, a rune and a raw string over two lines. -/
theorem closingLine_stream_literals :
    let lines := ["func f() \x7b // \x7d", "  s := \"\x7d\\\"\x7d\"; r := '\x7d'", "  t := \x60\x7d",
      "\x7d // \x60; if s \x7b /* \x7d", "*/ \x7d", "\x7d"]
    let lines' := ["func f() \x7b // x", "  s := \"x\\\"x\"; r := 'x'", "  t := \x60x",
      "xxxxx\x60; if s \x7b /*yz", "*/ \x7d", "\x7d"]
    let read := fun lines : List String => lines.map String.toList
    ((read lines)[0]?).bind (·[9]?) = some '\x7b' ∧ ((read lines')[0]?).bind (·[9]?) = some '\x7b' ∧
      List.Forall₂ Replaced (annotated .code (streamFrom (read lines) 0 9)) (streamFrom (read lines') 0 9) ∧
      closingLineIn 8 0 (streamFrom (read lines) 0 9) = 6 ∧ closingLine (read lines) 8 0 9 = 6 ∧
      closingLine (read lines') 8 0 9 = 6 := by
  intro lines lines' read
  -- the characters are put in once, the kernel is slow at taking them out of literals
  have hread : read lines = _ :=
    literals_cons <| literals_cons <| literals_cons <| literals_cons <| literals_cons <| literals_cons rfl
  have hread' : read lines' = _ :=
    literals_cons <| literals_cons <| literals_cons <| literals_cons <| literals_cons <| literals_cons rfl
  obtain ⟨hlines, hlines', hreplaced, hline⟩ : ((read lines)[0]?).bind (·[9]?) = some '\x7b' ∧
      ((read lines')[0]?).bind (·[9]?) = some '\x7b' ∧
      List.Forall₂ Replaced (annotated .code (streamFrom (read lines) 0 9)) (streamFrom (read lines') 0 9) ∧
      closingLineIn 8 0 (streamFrom (read lines) 0 9) = 6 := by
    rw [hread, hread']
    exact ⟨by decide, by decide, by decide, by decide⟩
  obtain ⟨hstream, hsame⟩ := closingLine_stream 8 hlines
  have hclosing : closingLine (read lines) 8 0 9 = 6 := hstream.trans hline
  exact ⟨hlines, hlines', hreplaced, hline, hclosing, (hsame _ hlines' hreplaced).trans hclosing⟩

end SourceDoc.Braced
