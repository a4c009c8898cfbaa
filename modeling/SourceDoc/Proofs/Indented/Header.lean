import SourceDoc.Indented.Block
import SourceDoc.Proofs.Text.Line
import SourceDoc.Proofs.Text.Nesting
import SourceDoc.Proofs.Text.Pattern

/-!
# Headers over several lines

A text that is put together from solid parts with blanks between them is read as a header wherever the blanks break the
line: each break shows as one blank (`reads_assemble`).  Where no part starts as a function or a class does, no line
after the first one is taken for a header of its own (`inner_assemble`).
-/

namespace SourceDoc.Indented

open Text

/-! ## Texts put together from parts -/

/-- The text of some parts, each after the blanks in front of it. -/
def assemble (parts : List (Text × Text)) : Text := parts.flatMap fun (gap, t) => gap ++ t

/-- The part stands after blanks, and is solid. -/
structure IsPart (part : Text × Text) : Prop where
  blank : isBlankText part.1 = true
  solid : IsSolid part.2

/-- The number of line breaks between parts. -/
def breaks (parts : List (Text × Text)) : Nat := (parts.flatMap Prod.fst).count '\n'

/-- What is left of blanks in a header: where they break the line, one blank. -/
def flatGap (gap : Text) : Text := if '\n' ∈ gap then [' '] else gap

/-- The part as it stands in a header. -/
def flatPart (part : Text × Text) : Text × Text := (flatGap part.1, part.2)

theorem isBlankText_flatGap {gap : Text} (h : isBlankText gap = true) : isBlankText (flatGap gap) = true := by
  unfold flatGap
  split
  · decide
  · exact h

theorem newline_not_mem_flatGap (gap : Text) : '\n' ∉ flatGap gap := by
  unfold flatGap
  split
  · decide
  · assumption

theorem assemble_cons (gap t : Text) (parts : List (Text × Text)) :
    assemble ((gap, t) :: parts) = gap ++ t ++ assemble parts := rfl

theorem newline_not_mem {t : Text} (h : IsSolid t) : '\n' ∉ t := fun hmem => h.bare _ hmem (by decide)

theorem not_mark_of_isBlank {c : Char} (hc : isBlank c = true) (hn : c ≠ '\n') : c ∉ marks := by
  intro hmem
  simp only [marks, List.mem_cons, List.not_mem_nil, or_false] at hmem
  rcases hmem with rfl | rfl | rfl | rfl | rfl | rfl
  iterate 5 cases hc
  exact hn rfl

theorem isSolid_append {a gap b : Text} (ha : IsSolid a) (hblank : isBlankText gap = true) (hline : '\n' ∉ gap)
    (hb : IsSolid b) : IsSolid (a ++ gap ++ b) where
  ne_nil := by simp [ha.ne_nil]
  stripped := strip_append_self ha.stripped ha.ne_nil hb.stripped hb.ne_nil gap
  bare := by
    intro c hc
    rcases List.mem_append.mp hc with hc | hc
    · rcases List.mem_append.mp hc with hc | hc
      · exact ha.bare c hc
      · exact not_mark_of_isBlank (List.all_eq_true.mp hblank c hc) fun h => hline (h ▸ hc)
    · exact hb.bare c hc

/-! ## Lines -/

/-- Blanks that break the line end one line, and stand in front of another. -/
theorem lines_break {x gap : Text} (hx : '\n' ∉ x) (hblank : isBlankText gap = true) (hgap : '\n' ∈ gap) :
    ∃ left right, gap = left ++ '\n' :: right ∧ '\n' ∉ left ∧ isBlankText left = true ∧ isBlankText right = true ∧
      ∀ t, lines (x ++ gap ++ t) = (x ++ left) :: lines (right ++ t) := by
  obtain ⟨left, right, rfl, hleft⟩ := List.eq_append_cons_of_mem hgap
  obtain ⟨hblankLeft, hblankRight⟩ := List.forall_mem_append.mp (List.all_eq_true.mp hblank)
  refine ⟨left, right, rfl, hleft, List.all_eq_true.mpr hblankLeft,
    List.all_eq_true.mpr (List.forall_mem_cons.mp hblankRight).2, fun t => ?_⟩
  have hfirst : '\n' ∉ x ++ left := by
    rw [List.mem_append]
    exact not_or.mpr ⟨hx, hleft⟩
  have hcut := splitOn_append '\n' (x ++ left) (right ++ t)
  rw [splitOn_of_not_mem hfirst] at hcut
  simp only [List.append_assoc, List.cons_append] at hcut ⊢
  exact hcut

/-! ## Reading a header -/

/-- Puts a text in front of the text of a line. -/
def HeaderLine.prepend (t : Text) : HeaderLine → HeaderLine
  | closed u => closed (t ++ u)
  | goesOn u depth => goesOn (t ++ u) depth

theorem headerLine_append {separators : List Char} {depth depth' : Nat} {t : Text} (hsep : ':' ∈ separators)
    (ht : ∀ c ∈ t, c ∉ marks) (h : openAfter separators depth t = some depth') (rest : Text) :
    headerLine depth none (t ++ rest) = (headerLine depth' none rest).prepend t := by
  induction t generalizing depth with
  | nil =>
    cases h
    rw [List.nil_append]
    cases headerLine depth' none rest <;> rfl
  | cons c t ih =>
    obtain ⟨hc, ht⟩ := List.forall_mem_cons.mp ht
    have hmore : ∀ {next : Nat}, openAfter separators next t = some depth' →
        (headerLine next none (t ++ rest)).cons c = (headerLine depth' none rest).prepend (c :: t) := by
      intro next hnext
      rw [ih ht hnext]
      cases headerLine depth' none rest <;> rfl
    have hquote : ¬ (c = '"' ∨ c = '\'') := by
      rintro (rfl | rfl) <;> exact hc (by decide)
    have hcomment : c ≠ '#' := by
      rintro rfl
      exact hc (by decide)
    rw [List.cons_append, headerLine]
    simp only [hquote, hcomment, if_false]
    rw [openAfter] at h
    split at h
    · rename_i ho
      rw [if_pos ho]
      exact hmore h
    · rename_i ho
      rw [if_neg ho]
      split at h
      · rename_i hclose
        rw [if_pos hclose]
        split at h
        · cases h
        · rename_i hd
          have hcast : ((depth - 1 : Nat) : Int) = (depth : Int) - 1 := by omega
          have := hmore h
          rwa [hcast] at this
      · rename_i hclose
        rw [if_neg hclose]
        split at h
        · cases h
        · rename_i hcolon
          have hnot : ¬ (c = ':' ∧ (depth : Int) = 0) := by
            rintro ⟨rfl, hd⟩
            exact hcolon ⟨by omega, hsep⟩
          rw [if_neg hnot]
          exact hmore h

/-- The header at the front of some lines has the text, with `depth` brackets open before it. -/
def Reads (bound depth : Nat) (lines : List Text) (t : Text) : Prop :=
  ∃ pieces n, headerPieces? bound depth lines = some (pieces, n) ∧ pieces.filter (· ≠ []) ≠ [] ∧
    joinWith [' '] (pieces.filter (· ≠ [])) = t

section

variable {bound depth : Nat} {more : List Text} {t : Text}

theorem reads_blank_line {line : Text} (hline : isBlankText line = true) (h : Reads bound depth more t) :
    Reads (bound + 1) depth (line :: more) t := by
  obtain ⟨pieces, n, hpieces, hne, hjoin⟩ := h
  refine ⟨[] :: pieces, n + 1, ?_, hne, hjoin⟩
  rw [headerPieces?, (strip_eq_nil_iff line).mpr hline]
  simp only [headerLine, hpieces, Option.map_some]

theorem reads_blank_append {gap : Text} (hgap : isBlankText gap = true) (h : Reads bound depth (lines t) u) :
    Reads (bound + gap.count '\n') depth (lines (gap ++ t)) u := by
  induction gap with
  | nil => exact h
  | cons c gap ih =>
    obtain ⟨hc, hgap⟩ := Bool.and_eq_true_iff.mp hgap
    have hrest := ih hgap
    by_cases hn : c = '\n'
    · rw [hn, List.cons_append, lines_newline, List.count_cons_self]
      exact reads_blank_line rfl hrest
    · obtain ⟨line, more, hlines, hcons⟩ := lines_cons_of_ne hn (gap ++ t)
      obtain ⟨pieces, n, hpieces, hfilter⟩ := hrest
      rw [hlines] at hpieces
      refine ⟨pieces, n, ?_, hfilter⟩
      rw [List.cons_append, hcons, List.count_cons_of_ne hn, ← hpieces]
      have hstrip : strip (c :: line) = strip line := strip_blank_append (s := [c]) line (by simp [isBlankText, hc])
      cases bound + gap.count '\n' with
      | zero => rfl
      | succ bound => rw [headerPieces?, headerPieces?, hstrip]

/-- A header goes on below a line that opens as many brackets as are open there. -/
theorem reads_line {x left : Text} {depth' : Nat} (hx : IsSolid x) (hleft : isBlankText left = true)
    (hopen : openAfter [':'] depth x = some depth') (h : Reads bound depth' more t) :
    Reads (bound + 1) depth ((x ++ left) :: more) (x ++ ' ' :: t) := by
  obtain ⟨pieces, n, hpieces, hne, hjoin⟩ := h
  have hstrip : strip (x ++ left) = x := by rw [strip_append_blank x hleft, hx.stripped]
  have hgoes : headerLine depth none x = .goesOn x depth' := by
    have hall := headerLine_append (by decide) hx.bare hopen []
    rw [List.append_nil] at hall
    rw [hall]
    simp [headerLine, HeaderLine.prepend]
  have hfilter : (x :: pieces).filter (· ≠ []) = x :: pieces.filter (· ≠ []) := by simp [hx.ne_nil]
  refine ⟨x :: pieces, n + 1, ?_, ?_, ?_⟩
  · rw [headerPieces?, hstrip, hgoes]
    simp only [hpieces, Option.map_some]
  · rw [hfilter]
    exact List.cons_ne_nil _ _
  · rw [hfilter, joinWith_cons _ _ _ hne, hjoin, List.append_assoc]
    rfl

/-- The colon behind the last bracket ends a header. -/
theorem reads_last {x : Text} (hx : IsSolid x) (hopen : openAfter [':'] depth x = some 0) (below : Text) :
    Reads (bound + 1) depth (lines (x ++ ':' :: '\n' :: below)) x := by
  have hx' : '\n' ∉ x ++ [':'] := by simpa using newline_not_mem hx
  have hlines : lines (x ++ ':' :: '\n' :: below) = (x ++ [':']) :: lines below := by
    have hcut := splitOn_append '\n' (x ++ [':']) below
    rw [splitOn_of_not_mem hx', List.append_assoc] at hcut
    exact hcut
  have hstrip : strip (x ++ [':']) = x ++ [':'] := by
    have := strip_append_self hx.stripped hx.ne_nil (b := [':']) (by decide) (by decide) []
    rwa [List.append_nil] at this
  refine ⟨[x], 0, ?_, by simp [hx.ne_nil], by simp [hx.ne_nil, joinWith]⟩
  rw [hlines, headerPieces?, hstrip, headerLine_append (by decide) hx.bare hopen]
  simp [headerLine, HeaderLine.prepend, isOpening, isClosing]

end

/-- **A header that is put together from parts is read as one line,** whatever line breaks are between them.  The
induction is on the parts that are left; `x` is what stands on the line so far. -/
theorem reads_assemble (parts : List (Text × Text)) {x : Text} {depth bound : Nat} (hx : IsSolid x)
    (hparts : ∀ part ∈ parts, IsPart part) (hopen : openAfter [':'] depth (x ++ assemble parts) = some 0)
    (hbound : breaks parts < bound) (below : Text) :
    Reads bound depth (lines (x ++ assemble parts ++ ':' :: '\n' :: below)) (x ++ assemble (parts.map flatPart)) := by
  induction parts generalizing x depth bound with
  | nil =>
    obtain ⟨bound, rfl⟩ := Nat.exists_eq_add_of_lt hbound
    simp only [assemble, List.flatMap_nil, List.append_nil, List.map_nil] at hopen ⊢
    exact reads_last hx hopen below
  | cons part parts ih =>
    obtain ⟨gap, t⟩ := part
    obtain ⟨⟨hblank, ht⟩, hmore⟩ := List.forall_mem_cons.mp hparts
    rw [assemble_cons] at hopen ⊢
    rw [List.map_cons, flatPart, assemble_cons, flatGap]
    by_cases hbreak : '\n' ∈ gap
    · rw [if_pos hbreak]
      obtain ⟨left, right, rfl, hleft, hblankLeft, hblankRight, hlines⟩ :=
        lines_break (newline_not_mem hx) hblank hbreak
      have hcount : (left ++ '\n' :: right).count '\n' = right.count '\n' + 1 := by
        rw [List.count_append, List.count_eq_zero.mpr hleft, List.count_cons_self, Nat.zero_add]
      simp only [breaks, List.flatMap_cons, List.count_append, hcount] at hbound
      obtain ⟨bound, rfl, hfewer⟩ : ∃ rest, bound = rest + right.count '\n' + 1 ∧ breaks parts < rest :=
        ⟨bound - right.count '\n' - 1, by omega, by unfold breaks; omega⟩
      -- The brackets that are open at the end of the line are open where the next part starts.
      rw [openAfter_append] at hopen
      obtain ⟨depth', hdepth, hopen⟩ := Option.bind_eq_some_iff.mp hopen
      rw [List.append_assoc, openAfter_append, openAfter_blank (by decide) hblank,
        Option.bind_some] at hopen
      have hbelow := reads_blank_append hblankRight (ih ht hmore hopen hfewer)
      have hall : x ++ (left ++ '\n' :: right ++ t ++ assemble parts) ++ ':' :: '\n' :: below =
          x ++ (left ++ '\n' :: right) ++ (t ++ assemble parts ++ ':' :: '\n' :: below) := by
        simp only [List.append_assoc]
      rw [hall, hlines]
      exact reads_line hx hblankLeft hdepth hbelow
    · rw [if_neg hbreak]
      have hx' := isSolid_append hx hblank hbreak ht
      have hcount : gap.count '\n' = 0 := List.count_eq_zero.mpr hbreak
      simp only [breaks, List.flatMap_cons, List.count_append, hcount, Nat.zero_add] at hbound
      have := ih hx' hmore (by simpa only [List.append_assoc] using hopen) hbound
      simpa only [List.append_assoc] using this

/-! ## Lines inside a header -/

/-- The text is a word, or none, and what follows it after blanks is no word character: so it starts neither a function
nor a class. -/
def IsHarmless (t : Text) : Prop :=
  ∃ word rest, t = word ++ rest ∧ (∀ c ∈ word, isWord c = true) ∧ ∀ c ∈ (stripLeft rest).head?, isWord c = false

theorem IsHarmless.mono {t t' : Text} (h : IsHarmless t) (hp : t' <+: t) : IsHarmless t' := by
  obtain ⟨word, rest, rfl, hword, hrest⟩ := h
  rcases List.prefix_or_prefix_of_prefix hp (List.prefix_append word rest) with hw | ⟨rest', rfl⟩
  · exact ⟨t', [], (List.append_nil t').symm, fun c hc => hword c (hw.subset hc), by simp [stripLeft, dropLeft]⟩
  · refine ⟨word, rest', rfl, hword, fun c hc => ?_⟩
    obtain ⟨after, rfl⟩ := (List.prefix_append_right_inj word).mp hp
    cases hblank : isBlankText rest' with
    | true =>
      have hnil : stripLeft rest' = [] := (dropLeft_eq_nil_iff isBlank rest').mpr hblank
      rw [hnil] at hc
      cases hc
    | false =>
      rw [stripLeft_append after hblank, List.head?_append, hc, Option.some_or] at hrest
      exact hrest c rfl

theorem head_not_isWord {rest : Text} (h : ∀ c ∈ (stripLeft rest).head?, isWord c = false) :
    ∀ c ∈ rest.head?, isWord c = false := by
  intro c hc
  cases rest with
  | nil => cases hc
  | cons d rest =>
    cases hc
    by_cases hd : isBlank c = true
    · exact not_isWord_of_isBlank hd
    · refine h c ?_
      rw [stripLeft, dropLeft, List.dropWhile_cons_of_neg hd]
      rfl

/-- **After a keyword at the front of a harmless text comes no word.** -/
theorem IsHarmless.afterWord {word t rest : Text} (h : IsHarmless t) (hword : word.all isWord = true)
    (hrest : afterWord? word t = some rest) : ∀ c ∈ rest.head?, isWord c = false := by
  obtain ⟨front, after, rfl, hfront, hafter⟩ := h
  obtain ⟨below, hbelow, hblanks⟩ := Option.bind_eq_some_iff.mp hrest
  have hsame := after_append hbelow
  cases below with
  | nil => cases hblanks
  | cons c below =>
    rw [afterBlanks?] at hblanks
    split at hblanks
    · rename_i hc
      cases hblanks
      -- Both words are all the word characters at the front.
      have hstop : ∀ {a b : Text}, (∀ c ∈ a, isWord c = true) → (∀ c ∈ b.head?, isWord c = false) →
          (a ++ b).dropWhile isWord = b := by
        intro a b ha hb
        rw [List.dropWhile_append_of_pos ha]
        exact (dropLeft_eq_self_iff isWord b).mpr hb
      have h₁ := hstop hfront (head_not_isWord hafter)
      have h₂ := hstop (b := c :: below) (List.all_eq_true.mp hword) fun d hd => by
        cases hd
        exact not_isWord_of_isBlank hc
      rw [hsame, h₂] at h₁
      rw [← h₁, stripLeft, dropLeft, List.dropWhile_cons_of_pos hc] at hafter
      exact hafter
    · cases hblanks

theorem identifier_none {t : Text} (h : ∀ c ∈ t.head?, isWord c = false) : identifier? t = none := by
  cases t with
  | nil => rfl
  | cons c t =>
    have hc : isIdentStart c = false := by
      rw [← Bool.not_eq_true]
      intro hstart
      have := h c rfl
      rw [isWord_of_isIdentStart hstart] at this
      cases this
    simp [identifier?, hc]

/-- **A harmless text starts no block.** -/
theorem IsHarmless.startsBlock {t : Text} (h : IsHarmless t) : startsBlock t = false := by
  have hnamed : namedStart? false t = none := by
    unfold namedStart?
    cases hdef : afterWord? "def".toList t with
    | none => rfl
    | some rest =>
      rw [Option.bind_some, identifier_none (h.afterWord (by decide) hdef)]
      rfl
  have hfunction : functionStart? t = none := by
    unfold functionStart?
    cases hasync : afterWord? "async".toList t with
    | none => exact hnamed
    | some rest =>
      have hrest := h.afterWord (by decide) hasync
      have hnone : afterWord? "def".toList rest = none := by
        cases rest with
        | nil => rfl
        | cons c rest =>
          have hc : c ≠ 'd' := by
            rintro rfl
            exact absurd (hrest 'd' rfl) (by decide)
          simp [afterWord?, after?, Ne.symm hc]
      simp only [namedStart?, hnone, Option.bind_none]
  have hclass : classStart? t = none := by
    unfold classStart?
    cases hclass : afterWord? "class".toList t with
    | none => rfl
    | some rest => rw [Option.bind_some, identifier_none (h.afterWord (by decide) hclass)]
  unfold Indented.startsBlock
  rw [hfunction, hclass]
  rfl

/-- The line is blank, or starts no block. -/
def IsInner (line : Text) : Prop := isBlankText line = true ∨ startsBlock (strip line) = false

theorem inner_blank_append {gap : Text} (hgap : isBlankText gap = true) {t : Text} (h : ∀ line ∈ lines t, IsInner line) :
    ∀ line ∈ lines (gap ++ t), IsInner line := by
  induction gap with
  | nil => exact h
  | cons c gap ih =>
    obtain ⟨hc, hgap⟩ := Bool.and_eq_true_iff.mp hgap
    have hrest := ih hgap
    rw [List.cons_append]
    by_cases hn : c = '\n'
    · rw [hn, lines_newline]
      exact List.forall_mem_cons.mpr ⟨.inl rfl, hrest⟩
    · obtain ⟨line, more, hlines, hcons⟩ := lines_cons_of_ne hn (gap ++ t)
      rw [hlines] at hrest
      rw [hcons]
      obtain ⟨hfirst, hmore⟩ := List.forall_mem_cons.mp hrest
      refine List.forall_mem_cons.mpr ⟨?_, hmore⟩
      have hstrip : strip (c :: line) = strip line := strip_blank_append (s := [c]) line (by simp [isBlankText, hc])
      rcases hfirst with hblank | hnone
      · exact .inl (Bool.and_eq_true_iff.mpr ⟨hc, hblank⟩)
      · exact .inr (by rw [hstrip]; exact hnone)

/-- The first line of a harmless text that starts with no blank starts no block. -/
theorem inner_first {t line : Text} {more : List Text} (h : IsHarmless t) (hhead : ∀ c ∈ t.head?, isBlank c = false)
    (hline : lines t = line :: more) : IsInner line := by
  have hp : line <+: t := by
    rw [← joinLines_lines t, hline]
    cases more with
    | nil => exact List.prefix_refl _
    | cons line' more =>
      rw [joinLines, joinWith_cons _ _ _ (List.cons_ne_nil _ _), List.append_assoc]
      exact List.prefix_append _ _
  have hleft : stripLeft line = line := by
    refine (dropLeft_eq_self_iff isBlank line).mpr fun c hc => ?_
    obtain ⟨after, rfl⟩ := hp
    refine hhead c ?_
    rw [List.head?_append, hc]
    rfl
  have hstrip : strip line <+: line := by
    show stripRight (stripLeft line) <+: line
    rw [hleft, ← List.reverse_suffix]
    unfold stripRight dropRight
    rw [List.reverse_reverse]
    exact List.dropWhile_suffix isBlank
  exact .inr (h.mono (hstrip.trans hp)).startsBlock

/-- **No line after the first one starts a block,** where no part does with all that follows it. -/
theorem inner_assemble (parts : List (Text × Text)) {x ending : Text} (hx : '\n' ∉ x) (hending : '\n' ∉ ending)
    (hparts : ∀ part ∈ parts, IsPart part)
    (hharmless : ∀ part rest, part :: rest <:+ parts → IsHarmless (part.2 ++ assemble rest ++ ending)) :
    ∀ line ∈ (lines (x ++ assemble parts ++ ending)).tail, IsInner line := by
  induction parts generalizing x with
  | nil =>
    have hnone : '\n' ∉ x ++ ending := by
      rw [List.mem_append]
      exact not_or.mpr ⟨hx, hending⟩
    simp only [assemble, List.flatMap_nil, List.append_nil]
    unfold lines
    rw [splitOn_of_not_mem hnone]
    simp
  | cons part parts ih =>
    obtain ⟨gap, t⟩ := part
    obtain ⟨⟨hblank, ht⟩, hmore⟩ := List.forall_mem_cons.mp hparts
    have hbelow : ∀ part rest, part :: rest <:+ parts → IsHarmless (part.2 ++ assemble rest ++ ending) :=
      fun part rest hsuffix => hharmless part rest (hsuffix.trans (List.suffix_cons _ _))
    rw [assemble_cons]
    by_cases hbreak : '\n' ∈ gap
    · obtain ⟨left, right, rfl, -, -, hblankRight, hlines⟩ := lines_break hx hblank hbreak
      have hall : x ++ (left ++ '\n' :: right ++ t ++ assemble parts) ++ ending =
          x ++ (left ++ '\n' :: right) ++ (t ++ assemble parts ++ ending) := by
        simp only [List.append_assoc]
      rw [hall, hlines, List.tail_cons]
      refine inner_blank_append hblankRight ?_
      have htail := ih (newline_not_mem ht) hmore hbelow
      cases hfirst : lines (t ++ assemble parts ++ ending) with
      | nil => simp
      | cons line more =>
        rw [hfirst] at htail
        refine List.forall_mem_cons.mpr ⟨?_, htail⟩
        refine inner_first (hharmless (_, t) parts (List.suffix_refl _)) ?_ hfirst
        obtain ⟨c, t', rfl⟩ := List.exists_cons_of_ne_nil ht.ne_nil
        exact ((strip_eq_self_iff _).mp ht.stripped).1
    · have hline : '\n' ∉ x ++ gap ++ t := by
        simp only [List.mem_append, not_or]
        exact ⟨⟨hx, hbreak⟩, newline_not_mem ht⟩
      have := ih hline hmore hbelow
      simpa only [List.append_assoc] using this

end SourceDoc.Indented
