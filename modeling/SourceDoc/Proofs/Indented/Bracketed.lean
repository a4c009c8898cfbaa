import SourceDoc.Indented.Outline
import SourceDoc.Proofs.Indented.Header
import SourceDoc.Proofs.Text.Quote

/-!
# Lists in brackets over several lines

A list in brackets is written with gaps between its items and commas: blanks, line breaks, and comments at the ends of
lines (`ListLayout`).  Its code on one line is the list without line breaks and comments (`joinedCode_list`).  The
bracket that closes the list stands on the last line only (`lines_of_joinedCode`), and between the brackets are its
items (`splitTopLevel_inner`).
-/

namespace SourceDoc.Indented

open Text

/-! ## Gaps -/

/-- The text is blanks and, before a line break, perhaps a comment. -/
inductive IsGap : Text → Prop where
  | blank {t : Text} (h : isBlankText t = true) (hline : '\n' ∉ t) : IsGap t
  | line {t rest : Text} (h : isBlankText (before '#' t) = true) (hline : '\n' ∉ t) (hrest : IsGap rest) :
    IsGap (t ++ '\n' :: rest)

theorem IsGap.cases {gap : Text} (h : IsGap gap) : isBlankText gap = true ∧ '\n' ∉ gap ∨
    ∃ t rest, gap = t ++ '\n' :: rest ∧ isBlankText (before '#' t) = true ∧ '\n' ∉ t ∧ IsGap rest := by
  cases h with
  | blank h hline => exact .inl ⟨h, hline⟩
  | line h hline hrest => exact .inr ⟨_, _, rfl, h, hline, hrest⟩

/-- What is left of a gap where the code of its lines stands on one. -/
def codeGap (gap : Text) : Text := if '\n' ∈ gap then List.replicate (gap.count '\n') ' ' else gap

theorem isBlankText_codeGap {gap : Text} (h : IsGap gap) : isBlankText (codeGap gap) = true := by
  unfold codeGap
  split
  · refine List.all_eq_true.mpr fun c hc => ?_
    rw [List.eq_of_mem_replicate hc]
    decide
  · rename_i hline
    cases h with
    | blank h _ => exact h
    | line => exact absurd (List.mem_append_right _ List.mem_cons_self) hline

/-! ## The code of lines -/

/-- The text is part of a line of code, and has no blanks at its ends. -/
structure IsToken (t : Text) : Prop where
  ne_nil : t ≠ []
  stripped : strip t = t
  line : '\n' ∉ t
  code : '#' ∉ t

/-- The code of some lines, on one line. -/
def joinedCode (lines : List Text) : Text := joinWith [' '] (lines.map uncommented)

section

variable {x y gap rest : Text}

theorem not_comment_of_blank (h : isBlankText x = true) : '#' ∉ x := fun hmem => by
  have := List.all_eq_true.mp h '#' hmem
  cases this

theorem uncommented_append (hx : '#' ∉ x) (y : Text) : uncommented (x ++ y) = strip (x ++ before '#' y) := by
  have hall : ∀ c ∈ x, decide (c ≠ '#') = true := fun c hc => decide_eq_true fun h => hx (h ▸ hc)
  unfold uncommented before
  rw [List.takeWhile_append_of_pos hall]

theorem uncommented_end (hx : '#' ∉ x) (hy : isBlankText (before '#' y) = true) : uncommented (x ++ y) = strip x := by
  rw [uncommented_append hx, strip_append_blank x hy]

theorem uncommented_token (hx : IsToken x) (y : Text) : uncommented (x ++ y) = x ++ stripRight (before '#' y) := by
  rw [uncommented_append hx.code, strip_append_right hx.stripped hx.ne_nil]

theorem uncommented_blank (hx : isBlankText x = true) (y : Text) : uncommented (x ++ y) = uncommented y := by
  rw [uncommented_append (not_comment_of_blank hx), strip_blank_append _ hx]
  rfl

theorem joinedCode_cons (line : Text) {more : List Text} (h : more ≠ []) :
    joinedCode (line :: more) = uncommented line ++ ' ' :: joinedCode more := by
  unfold joinedCode
  rw [List.map_cons, joinWith_cons _ _ _ (by simpa using h), List.append_assoc]
  rfl

/-- A gap gives a blank for each of its line breaks. -/
theorem joinedCode_gap (h : IsGap gap) (rest : Text) :
    joinedCode (lines (gap ++ rest)) = List.replicate (gap.count '\n') ' ' ++ joinedCode (lines rest) := by
  induction h with
  | @blank gap h hline =>
    obtain ⟨line, more, hrest⟩ := List.exists_cons_of_ne_nil (lines_ne_nil rest)
    have hgap : lines (gap ++ rest) = (gap ++ line) :: more := lines_append_of_line hline hrest
    rw [hgap, hrest, List.count_eq_zero.mpr hline]
    unfold joinedCode
    rw [List.map_cons, uncommented_blank h, List.map_cons]
    rfl
  | @line t gap h hline _ ih =>
    have hnone : uncommented t = [] := uncommented_end (x := []) List.not_mem_nil h
    rw [List.append_assoc, List.cons_append, lines_line hline, joinedCode_cons _ (lines_ne_nil _), hnone, ih,
      List.count_append, List.count_eq_zero.mpr hline, List.count_cons_self, Nat.zero_add, List.replicate_succ]
    rfl

theorem isToken_comma : IsToken [','] := ⟨by decide, by decide, by decide, by decide⟩

theorem IsToken.head {c : Char} (h : IsToken (c :: x)) : IsToken [c] where
  ne_nil := List.cons_ne_nil _ _
  stripped := by
    have hc := ((strip_eq_self_iff _).mp h.stripped).1 c rfl
    exact (strip_eq_self_iff _).mpr ⟨fun d hd => by cases hd; exact hc, fun d hd => by cases hd; exact hc⟩
  line := fun hmem => h.line (List.mem_singleton.mp hmem ▸ List.mem_cons_self)
  code := fun hmem => h.code (List.mem_singleton.mp hmem ▸ List.mem_cons_self)

theorem IsToken.uncommented_eq (h : IsToken x) : uncommented x = x := by
  have := uncommented_token h []
  rw [List.append_nil] at this
  exact this.trans (List.append_nil x)

theorem isToken_append {a b : Text} (ha : IsToken a) (hgap : isBlankText gap = true) (hline : '\n' ∉ gap)
    (hb : IsToken b) : IsToken (a ++ gap ++ b) where
  ne_nil := by simp [ha.ne_nil]
  stripped := strip_append_self ha.stripped ha.ne_nil hb.stripped hb.ne_nil gap
  line := by
    rw [List.mem_append, List.mem_append, not_or, not_or]
    exact ⟨⟨ha.line, hline⟩, hb.line⟩
  code := by
    rw [List.mem_append, List.mem_append, not_or, not_or]
    exact ⟨⟨ha.code, not_comment_of_blank hgap⟩, hb.code⟩

end

/-- The part as it stands in the code of its lines. -/
def codePart (part : Text × Text) : Text × Text := (codeGap part.1, part.2)

/-- **A text that is put together from tokens has them all in its code,** with what is left of the gaps between them.
The induction is on the tokens that are left; `x` is what stands on the line so far. -/
theorem joinedCode_assemble (parts : List (Text × Text)) {x ending : Text} (hx : IsToken x)
    (hparts : ∀ part ∈ parts, IsGap part.1 ∧ IsToken part.2) (hline : '\n' ∉ ending)
    (hending : isBlankText (before '#' ending) = true) :
    joinedCode (lines (x ++ assemble parts ++ ending)) =
      x ++ assemble (parts.map codePart) := by
  induction parts generalizing x with
  | nil =>
    have hone : lines (x ++ ending) = [x ++ ending] := by
      refine splitOn_of_not_mem ?_
      rw [List.mem_append]
      exact not_or.mpr ⟨hx.line, hline⟩
    simp only [assemble, List.flatMap_nil, List.append_nil, List.map_nil, hone]
    exact (uncommented_end hx.code hending).trans hx.stripped
  | cons part parts ih =>
    obtain ⟨gap, t⟩ := part
    obtain ⟨⟨hgap, ht⟩, hmore⟩ := List.forall_mem_cons.mp hparts
    rw [assemble_cons, List.map_cons, codePart, assemble_cons]
    rcases hgap.cases with ⟨hblank, hsame⟩ | ⟨front, gap, rfl, hfront, hbreak, hgap⟩
    · have hcode : codeGap gap = gap := if_neg hsame
      have := ih (isToken_append hx hblank hsame ht) hmore
      rw [hcode]
      simpa only [List.append_assoc] using this
    · have hcode : codeGap (front ++ '\n' :: gap) = ' ' :: List.replicate (gap.count '\n') ' ' := by
        unfold codeGap
        rw [if_pos (List.mem_append_right _ List.mem_cons_self), List.count_append, List.count_eq_zero.mpr hbreak,
          List.count_cons_self, Nat.zero_add, List.replicate_succ]
      have hall : x ++ (front ++ '\n' :: gap ++ t ++ assemble parts) ++ ending =
          (x ++ front) ++ '\n' :: (gap ++ (t ++ assemble parts ++ ending)) := by
        simp only [List.append_assoc, List.cons_append]
      have hfirst : '\n' ∉ x ++ front := by
        rw [List.mem_append]
        exact not_or.mpr ⟨hx.line, hbreak⟩
      rw [hall, lines_line hfirst, joinedCode_cons _ (lines_ne_nil _), uncommented_end hx.code hfront, hx.stripped,
        joinedCode_gap hgap, ih ht hmore, hcode]
      simp only [List.append_assoc, List.cons_append]

/-- **Where the joined code ends with its only closing bracket, the bracket stands on the last line,** and on no
other. -/
theorem lines_of_joinedCode {lines : List Text} {t : Text} {c : Char} (hc : c ≠ ' ') (ht : c ∉ t)
    (h : joinedCode lines = t ++ [c]) :
    ∃ front last, lines = front ++ [last] ∧ (∀ line ∈ front, c ∉ uncommented line) ∧ c ∈ uncommented last := by
  induction lines generalizing t with
  | nil => exact absurd h (by simp [joinedCode, joinWith])
  | cons line more ih =>
    by_cases hmore : more = []
    · refine ⟨[], line, by rw [hmore]; rfl, by simp, ?_⟩
      have hline : uncommented line = t ++ [c] := by
        rw [hmore] at h
        exact h
      rw [hline]
      exact List.mem_append_right _ (List.mem_singleton_self c)
    · rw [joinedCode_cons line hmore] at h
      rcases (joinedCode more).eq_nil_or_concat with hnil | ⟨code, d, hcode⟩
      · rw [hnil] at h
        exact absurd (List.singleton_inj.mp (List.append_inj_right' h rfl)).symm hc
      · rw [hcode, List.concat_eq_append, ← List.cons_append, ← List.append_assoc] at h
        obtain ⟨rfl, hd⟩ := List.append_inj' h rfl
        rw [List.singleton_inj.mp hd, List.concat_eq_append] at hcode
        simp only [List.mem_append, List.mem_cons, not_or] at ht
        obtain ⟨front, last, rfl, hfront, hlast⟩ := ih ht.2.2 hcode
        exact ⟨line :: front, last, rfl, List.forall_mem_cons.mpr ⟨ht.1, hfront⟩, hlast⟩

/-- The bracket stands on the first line, or on the last one of those below it. -/
theorem joinedCode_cases {first t : Text} {more : List Text} {c : Char} (hc : c ≠ ' ') (ht : c ∉ t)
    (h : joinedCode (first :: more) = t ++ [c]) :
    (more = [] ∧ uncommented first = t ++ [c]) ∨
      ∃ front last, more = front ++ [last] ∧ c ∉ uncommented first ∧ (∀ line ∈ front, c ∉ uncommented line) ∧
        c ∈ uncommented last ∧ uncommented first ++ ' ' :: joinedCode (front ++ [last]) = t ++ [c] := by
  obtain ⟨front, last, hsplit, hopen, hclose⟩ := lines_of_joinedCode hc ht h
  cases front with
  | nil =>
    cases hsplit
    exact .inl ⟨rfl, h⟩
  | cons line front =>
    rw [List.cons_append] at hsplit
    obtain ⟨rfl, rfl⟩ := List.cons.inj hsplit
    obtain ⟨hline, hopen⟩ := List.forall_mem_cons.mp hopen
    rw [joinedCode_cons _ (List.append_ne_nil_of_right_ne_nil _ (List.cons_ne_nil _ _))] at h
    exact .inr ⟨front, last, rfl, hline, hopen, hclose, h⟩

/-! ## Lists in brackets -/

/-- The brackets of a list. -/
def AreBrackets (opening closing : Char) : Prop := opening = '[' ∧ closing = ']' ∨ opening = '(' ∧ closing = ')'

theorem isToken_bracket {opening closing : Char} (h : AreBrackets opening closing) :
    IsToken [opening] ∧ IsToken [closing] := by
  rcases h with ⟨rfl, rfl⟩ | ⟨rfl, rfl⟩
  · exact ⟨⟨by decide, by decide, by decide, by decide⟩, by decide, by decide, by decide, by decide⟩
  · exact ⟨⟨by decide, by decide, by decide, by decide⟩, by decide, by decide, by decide, by decide⟩

/-- How a list in brackets is written: the items that a comma follows, each between the gap in front of it and the gap
in front of its comma; the last item after its gap, if no comma follows it; the gap in front of the closing bracket, and
what stands behind the bracket on its line. -/
structure ListLayout where
  commaed : List (Text × Text × Text)
  last : Option (Text × Text)
  closing : Text
  ending : Text

/-- The text can be an item of a list: it is a token without commas, and all its quotes and brackets are closed. -/
structure IsListItem (t : Text) : Prop extends IsToken t where
  whole : ',' ∉ t
  closed : t.foldl Nesting.next {} = {}

namespace ListLayout

def items (l : ListLayout) : List Text := l.commaed.map (fun (_, item, _) => item) ++ l.last.toList.map Prod.snd

/-- The items and the commas of the list, each after its gap. -/
def innerParts (l : ListLayout) : List (Text × Text) :=
  l.commaed.flatMap (fun (front, item, back) => [(front, item), (back, [','])]) ++ l.last.toList

/-- The list as it is written, between two brackets. -/
def text (l : ListLayout) (opening closing : Char) : Text :=
  opening :: (assemble (l.innerParts ++ [(l.closing, [closing])]) ++ l.ending)

/-- All gaps are gaps, and behind the closing bracket stands no more than a comment. -/
structure IsWritten (l : ListLayout) : Prop where
  commaed : ∀ piece ∈ l.commaed, IsGap piece.1 ∧ IsGap piece.2.2
  last : ∀ piece ∈ l.last, IsGap piece.1
  closing : IsGap l.closing
  line : '\n' ∉ l.ending
  ending : isBlankText (before '#' l.ending) = true

/-- The code between the brackets, on one line. -/
def inner (l : ListLayout) : Text := assemble (l.innerParts.map codePart) ++ codeGap l.closing

variable {l : ListLayout}

theorem innerParts_cases (hl : l.IsWritten) :
    ∀ part ∈ l.innerParts, IsGap part.1 ∧ (part.2 = [','] ∨ part.2 ∈ l.items) := by
  refine List.forall_mem_append.mpr ⟨fun part hpart => ?_, fun part hpart => ?_⟩
  · obtain ⟨piece, hpiece, hmem⟩ := List.mem_flatMap.mp hpart
    obtain ⟨hfront, hback⟩ := hl.commaed piece hpiece
    rcases List.mem_cons.mp hmem with rfl | hmem
    · exact ⟨hfront, .inr (List.mem_append_left _ (List.mem_map_of_mem hpiece))⟩
    · rw [List.mem_singleton.mp hmem]
      exact ⟨hback, .inl rfl⟩
  · exact ⟨hl.last part (Option.mem_toList.mp hpart), .inr (List.mem_append_right _ (List.mem_map_of_mem hpart))⟩

/-- **The code of a list has the code between its brackets on one line.** -/
theorem joinedCode_list (hl : l.IsWritten) (hitems : ∀ item ∈ l.items, IsToken item) {opening closing : Char}
    (h : AreBrackets opening closing) :
    joinedCode (lines (l.text opening closing)) = opening :: (l.inner ++ [closing]) := by
  obtain ⟨hopening, hclosing⟩ := isToken_bracket h
  have hparts : ∀ part ∈ l.innerParts ++ [(l.closing, [closing])], IsGap part.1 ∧ IsToken part.2 := by
    refine List.forall_mem_append.mpr ⟨fun part hpart => ?_, List.forall_mem_singleton.mpr ⟨hl.closing, hclosing⟩⟩
    obtain ⟨hgap, hcases⟩ := innerParts_cases hl part hpart
    rcases hcases with hsep | hitem
    · exact ⟨hgap, hsep ▸ isToken_comma⟩
    · exact ⟨hgap, hitems _ hitem⟩
  have hcode := joinedCode_assemble _ hopening hparts hl.line hl.ending
  rw [List.append_assoc] at hcode
  refine hcode.trans (congrArg (opening :: ·) ?_)
  unfold inner assemble
  rw [List.map_append, List.flatMap_append]
  simp [codePart]

/-- Between the brackets are only blanks, commas and the items. -/
theorem mem_inner (hl : l.IsWritten) {c : Char} (hc : c ∈ l.inner) :
    isBlank c = true ∨ c = ',' ∨ ∃ item ∈ l.items, c ∈ item := by
  have hgap : ∀ {gap : Text}, IsGap gap → c ∈ codeGap gap → isBlank c = true := fun h hmem =>
    List.all_eq_true.mp (isBlankText_codeGap h) c hmem
  rcases List.mem_append.mp hc with hc | hc
  · obtain ⟨part, hpart, hmem⟩ := List.mem_flatMap.mp hc
    obtain ⟨part, hown, rfl⟩ := List.mem_map.mp hpart
    obtain ⟨hfront, hcases⟩ := innerParts_cases hl part hown
    rcases List.mem_append.mp hmem with hmem | hmem
    · exact .inl (hgap hfront hmem)
    · rcases hcases with hsep | hitem
      · refine .inr (.inl (List.mem_singleton.mp ?_))
        rw [← hsep]
        exact hmem
      · exact .inr (.inr ⟨_, hitem, hmem⟩)
  · exact .inl (hgap hl.closing hc)

end ListLayout

/-! ## Items between commas -/

section

variable {front back item : Text}

theorem comma_not_mem_blank (h : isBlankText front = true) : ',' ∉ front := fun hmem => by
  have := List.all_eq_true.mp h ',' hmem
  cases this

theorem foldl_blank (h : isBlankText front = true) : front.foldl Nesting.next {} = {} :=
  foldl_inert (fun c hc => isInert_of_class (by decide) (List.all_eq_true.mp h c hc)) rfl

/-- A comma behind an item cuts. -/
theorem splitTopLevel_item (hfront : isBlankText front = true) (hback : isBlankText back = true) (h : IsListItem item)
    (rest : Text) :
    splitTopLevel ',' (front ++ item ++ back) = [item] ∧
      splitTopLevel ',' (front ++ item ++ back ++ ',' :: rest) = item :: splitTopLevel ',' rest := by
  have hwhole : ',' ∉ front ++ item ++ back := by
    rw [List.mem_append, List.mem_append, not_or, not_or]
    exact ⟨⟨comma_not_mem_blank hfront, h.whole⟩, comma_not_mem_blank hback⟩
  have hstrip : strip (front ++ item ++ back) = item := by
    rw [strip_append_blank _ hback, strip_blank_append _ hfront, h.stripped]
  have hclosed : (front ++ item ++ back).foldl Nesting.next {} = {} := by
    rw [List.foldl_append, List.foldl_append, foldl_blank hfront, h.closed, foldl_blank hback]
  have hone : splitTopLevel ',' (front ++ item ++ back) = [item] := by
    unfold splitTopLevel
    rw [piecesFrom_of_not_mem hwhole, List.filterMap_cons, stripped_of_strip hstrip h.ne_nil]
    rfl
  refine ⟨hone, ?_⟩
  rw [splitTopLevel_append (by decide) hclosed, hone]
  rfl

/-! ### Items on one line -/

theorem isToken_joined {items : List Text} (hne : items ≠ []) (h : ∀ item ∈ items, IsToken item) :
    IsToken (joinWith ", ".toList items) := by
  induction items with
  | nil => exact absurd rfl hne
  | cons item more ih =>
    obtain ⟨hitem, hmore⟩ := List.forall_mem_cons.mp h
    by_cases hlast : more = []
    · rw [hlast]
      exact hitem
    · have hblank : isBlankText [' '] = true := rfl
      have hall := isToken_append (isToken_append hitem rfl List.not_mem_nil isToken_comma) hblank (by decide)
        (ih hlast hmore)
      rw [joinWith_cons _ _ _ hlast]
      simpa using hall

theorem mem_joined {items : List Text} {c : Char} (hc : c ∈ joinWith ", ".toList items) :
    isBlank c = true ∨ c = ',' ∨ ∃ item ∈ items, c ∈ item := by
  have hsep : ∀ d ∈ ", ".toList, isBlank d = true ∨ d = ',' := by decide
  refine forall_mem_joinWith (p := fun c => isBlank c = true ∨ c = ',' ∨ ∃ item ∈ items, c ∈ item)
    (fun d hd => ?_) (fun item hitem d hd => .inr (.inr ⟨item, hitem, hd⟩)) c hc
  rcases hsep d hd with hblank | hcomma
  · exact .inl hblank
  · exact .inr (.inl hcomma)

theorem splitTopLevel_joined {items : List Text} (hne : items ≠ []) (h : ∀ item ∈ items, IsListItem item)
    (hfront : isBlankText front = true) : splitTopLevel ',' (front ++ joinWith ", ".toList items) = items := by
  induction items generalizing front with
  | nil => exact absurd rfl hne
  | cons item more ih =>
    obtain ⟨hitem, hmore⟩ := List.forall_mem_cons.mp h
    obtain ⟨hone, hcut⟩ := @splitTopLevel_item front [] item hfront rfl hitem (' ' :: joinWith ", ".toList more)
    rw [List.append_nil] at hone hcut
    by_cases hlast : more = []
    · rw [hlast]
      exact hone
    · have hblank : isBlankText [' '] = true := rfl
      have hrest : splitTopLevel ',' (' ' :: joinWith ", ".toList more) = more := ih hlast hmore hblank
      rw [hrest] at hcut
      rw [joinWith_cons _ _ _ hlast]
      simpa using hcut

end

theorem ListLayout.inner_cons (front item back : Text) (l : ListLayout) :
    inner { l with commaed := (front, item, back) :: l.commaed } =
      codeGap front ++ item ++ codeGap back ++ ',' :: l.inner := by
  simp [inner, innerParts, assemble, codePart, List.append_assoc]

/-- **Between the brackets are the items.** -/
theorem ListLayout.splitTopLevel_inner {l : ListLayout} (hl : l.IsWritten)
    (hitems : ∀ item ∈ l.items, IsListItem item) :
    splitTopLevel ',' l.inner = l.items := by
  obtain ⟨commaed, last, closing, ending⟩ := l
  induction commaed with
  | nil =>
    have hgap : isBlankText (codeGap closing) = true := isBlankText_codeGap hl.closing
    cases last with
    | none =>
      show splitTopLevel ',' (codeGap closing) = []
      unfold splitTopLevel
      rw [piecesFrom_of_not_mem (comma_not_mem_blank hgap)]
      simp [stripped?, (strip_eq_nil_iff _).mpr hgap]
    | some piece =>
      have hfront : isBlankText (codeGap piece.1) = true := isBlankText_codeGap (hl.last piece rfl)
      have hone := (splitTopLevel_item hfront hgap (hitems piece.2 List.mem_cons_self) []).1
      simpa [inner, innerParts, items, assemble, codePart] using hone
  | cons piece commaed ih =>
    obtain ⟨front, item, back⟩ := piece
    obtain ⟨⟨hfront, hback⟩, hmore⟩ := List.forall_mem_cons.mp hl.commaed
    obtain ⟨hitem, hrest⟩ := List.forall_mem_cons.mp hitems
    have hcut := (splitTopLevel_item (isBlankText_codeGap hfront) (isBlankText_codeGap hback) hitem
      (inner ⟨commaed, last, closing, ending⟩)).2
    rw [ih ⟨hmore, hl.last, hl.closing, hl.line, hl.ending⟩ hrest] at hcut
    exact (congrArg (splitTopLevel ',') (inner_cons front item back ⟨commaed, last, closing, ending⟩)).trans hcut

end SourceDoc.Indented
