import SourceDoc.Proofs.Indented.Outline
import SourceDoc.Proofs.Indented.Overrun
import SourceDoc.Proofs.Indented.Reading
import SourceDoc.Proofs.Indented.Signature

/-!
# Documentations read back

A documentation is written between long quotes below a header, all its lines with the same blanks in front, and empty
lines perhaps without them (`documentedBody`).  It is read again as it is:

    IsDocumentation t → lines t = first :: rest →
      extract path (joinLines (line :: documentedBody k first below after)) = .ok o ∧
        o.decls = [d] ∧ d.comments = some t                                        (extract_documented)

where `below` is `rest` with the blanks.  They cancel out: the margin that is taken off is the least indentation of the
lines that are not blank (`unindent_indented`).
-/

namespace SourceDoc.Indented

open Text

/-! ## Lines with blanks in front -/

/-- The blanks in front of the lines of a body. -/
def blanks (k : Nat) : Text := List.replicate k ' '

/-- The line stands below with blanks in front, or, if it has nothing but blanks, as an empty line. -/
def IsIndentedLine (k : Nat) (line line' : Text) : Prop :=
  line' = blanks k ++ line ∨ isBlankText line = true ∧ line' = []

section

variable {k : Nat} {line line' : Text} {rest below : List Text}

theorem isBlankText_blanks (k : Nat) : isBlankText (blanks k) = true := by
  refine List.all_eq_true.mpr fun c hc => ?_
  rw [List.eq_of_mem_replicate hc]
  decide

theorem indentation_blanks (k : Nat) (line : Text) : indentation (blanks k ++ line) = k + indentation line := by
  have hall : ∀ c ∈ blanks k, isBlank c = true := List.all_eq_true.mp (isBlankText_blanks k)
  unfold indentation
  rw [List.takeWhile_append_of_pos hall, List.length_append, blanks, List.length_replicate]

theorem isBlankText_indented (h : IsIndentedLine k line line') : isBlankText line' = isBlankText line := by
  rcases h with rfl | ⟨hblank, rfl⟩
  · rw [isBlankText_append, isBlankText_blanks, Bool.true_and]
  · exact hblank.symm

theorem least_add (k : Nat) {ns : List Nat} (h : ns ≠ []) : least (ns.map (k + ·)) = k + least ns := by
  obtain ⟨n, ns, rfl⟩ := List.exists_cons_of_ne_nil h
  show (ns.map (k + ·)).foldl min (k + n) = k + ns.foldl min n
  clear h
  induction ns generalizing n with
  | nil => rfl
  | cons m ns ih =>
    rw [List.map_cons, List.foldl_cons, List.foldl_cons, Nat.add_min_add_left]
    exact ih _

theorem indentations_indented (h : List.Forall₂ (IsIndentedLine k) rest below) :
    (below.filter (!isBlankText ·)).map indentation =
      ((rest.filter (!isBlankText ·)).map indentation).map (k + ·) := by
  induction h with
  | nil => rfl
  | @cons line line' rest below hline _ ih =>
    rw [List.filter_cons, List.filter_cons, isBlankText_indented hline]
    cases hcode : isBlankText line with
    | true => exact ih
    | false =>
      have hindented : line' = blanks k ++ line := hline.resolve_right fun h => by
        rw [hcode] at h
        cases h.1
      simp only [Bool.not_false, if_true, List.map_cons, ih, hindented, indentation_blanks]

end

/-! ## Between long quotes -/

/-- Three double quotes. -/
def longQuote : Text := "\"\"\"".toList

/-- The text can be a documentation as it is: it has no blanks at its ends or at the ends of its lines, no long quote,
and no line boundaries but newlines, and one of its lines below the first is not indented, unless they are all empty. -/
structure IsDocumentation (t : Text) : Prop where
  ne_nil : t ≠ []
  stripped : strip t = t
  boundaries : ∀ c ∈ t, isBoundary c = true → c = '\n'
  unquoted : ∀ line ∈ lines t, contains line longQuote = false
  trimmed : ∀ line ∈ lines t, ∀ c ∈ line.getLast?, isBlank c = false
  margin : least (((lines t).tail.filter (!isBlankText ·)).map indentation) = 0

section

variable {t first : Text} {k : Nat} {rest below after : List Text}

theorem breakOn_blanks (k : Nat) (t : Text) :
    breakOn? longQuote (blanks k ++ t) = (breakOn? longQuote t).map fun (front, rest) => (blanks k ++ front, rest) :=
  breakOn_cons_append (fun h => absurd (List.eq_of_mem_replicate h) (by decide)) _ t

theorem contains_indented {line line' : Text} (h : IsIndentedLine k line line')
    (hline : contains line longQuote = false) : contains line' longQuote = false := by
  rcases h with rfl | ⟨-, rfl⟩
  · rw [contains, breakOn_blanks, Option.isSome_map]
    exact hline
  · rfl

theorem breakOn_none {mark line : Text} (h : contains line mark = false) : breakOn? mark line = none :=
  Option.isNone_iff_eq_none.mp (Option.isSome_eq_false_iff.mp h)

theorem linesUpTo_marked {mark last front more : Text} (hbelow : ∀ line ∈ below, contains line mark = false)
    (hlast : breakOn? mark last = some (front, more)) (after : List Text) :
    linesUpTo mark (below ++ last :: after) = below ++ [front] := by
  induction below with
  | nil =>
    show linesUpTo mark (last :: after) = _
    rw [linesUpTo, hlast]
    rfl
  | cons line below ih =>
    obtain ⟨hline, hbelow⟩ := List.forall_mem_cons.mp hbelow
    rw [List.cons_append, linesUpTo, breakOn_none hline]
    exact congrArg (line :: ·) (ih hbelow)

/-- A line is read again where the blanks in front of it are those of the body. -/
theorem stripRight_drop_indented {line line' : Text} (h : IsIndentedLine k line line')
    (htrimmed : ∀ c ∈ line.getLast?, isBlank c = false) {n : Nat} (hn : isBlankText line = false → n = k) :
    stripRight (line'.drop n) = line := by
  have hline : stripRight line = line := (dropRight_eq_self_iff isBlank line).mpr htrimmed
  cases hblank : isBlankText line with
  | true =>
    have hnil : line = [] := hline.symm.trans ((dropRight_eq_nil_iff isBlank line).mpr hblank)
    have hall : (line'.drop n).all isBlank = true := by
      have hblank' := isBlankText_indented h
      rw [hblank] at hblank'
      exact List.all_eq_true.mpr fun c hc => List.all_eq_true.mp hblank' c (List.mem_of_mem_drop hc)
    rw [hnil]
    exact (dropRight_eq_nil_iff isBlank _).mpr hall
  | false =>
    have hindented : line' = blanks k ++ line := h.resolve_right fun hnot => by
      rw [hblank] at hnot
      cases hnot.1
    have hlength : (blanks k).length = k := List.length_replicate
    rw [hn hblank, hindented, List.drop_append_of_le_length (Nat.le_of_eq hlength.symm),
      List.drop_of_length_le (Nat.le_of_eq hlength), List.nil_append, hline]

/-- The first line is not empty, and has no blanks at its ends. -/
theorem first_stripped (ht : IsDocumentation t) (hlines : lines t = first :: rest) :
    first ≠ [] ∧ strip first = first := by
  have htext : joinLines (first :: rest) = t := by
    rw [← hlines]
    exact joinLines_lines t
  have hhead : ∀ c ∈ t.head?, isBlank c = false := ((strip_eq_self_iff t).mp ht.stripped).1
  have htrimmed : ∀ c ∈ first.getLast?, isBlank c = false := ht.trimmed first (hlines ▸ List.mem_cons_self)
  have hne : first ≠ [] := by
    rintro rfl
    cases rest with
    | nil => exact ht.ne_nil htext.symm
    | cons line rest =>
      rw [← htext] at hhead
      exact absurd (hhead '\n' rfl) (by decide)
  obtain ⟨c, first, rfl⟩ := List.exists_cons_of_ne_nil hne
  refine ⟨hne, (strip_eq_self_iff _).mpr ⟨fun d hd => ?_, htrimmed⟩⟩
  cases hd
  refine hhead c ?_
  rw [← htext]
  cases rest <;> rfl

/-- **The blanks in front of the lines cancel out.** -/
theorem unindent_indented (ht : IsDocumentation t) (hlines : lines t = first :: rest)
    (hbelow : List.Forall₂ (IsIndentedLine k) rest below) : unindent first (below ++ [blanks k]) = t := by
  have hfilter : ((below ++ [blanks k]).filter (!isBlankText ·)).map indentation =
      ((rest.filter (!isBlankText ·)).map indentation).map (k + ·) := by
    rw [List.filter_append, ← indentations_indented hbelow, List.filter_cons, isBlankText_blanks]
    exact congrArg (List.map indentation) (List.append_nil _)
  have hmargin : least (((rest.filter (!isBlankText ·)).map indentation)) = 0 := by
    have := ht.margin
    rwa [hlines] at this
  have hrest : ∀ line ∈ rest, ∀ c ∈ line.getLast?, isBlank c = false := fun line hline =>
    ht.trimmed line (hlines ▸ List.mem_cons_of_mem _ hline)
  unfold unindent
  rw [hfilter]
  generalize hn : least (((rest.filter (!isBlankText ·)).map indentation).map (k + ·)) = n
  -- only lines with more than blanks need the right margin, and where there is one it is that of the body
  have hcode : ∀ line ∈ rest, isBlankText line = false → n = k := by
    intro line hline hblank
    have hne : (rest.filter (!isBlankText ·)).map indentation ≠ [] := by
      refine List.ne_nil_of_mem (List.mem_map_of_mem (List.mem_filter.mpr ⟨hline, ?_⟩))
      rw [hblank]
      rfl
    rw [← hn, least_add k hne, hmargin, Nat.add_zero]
  have hsame : below.map (fun line => stripRight (line.drop n)) = rest := by
    clear hfilter hmargin hlines hn
    induction hbelow with
    | nil => rfl
    | @cons line line' rest below hline _ ih =>
      obtain ⟨htrimmed, hrest⟩ := List.forall_mem_cons.mp hrest
      obtain ⟨hfirst, hcode⟩ := List.forall_mem_cons.mp hcode
      rw [List.map_cons, stripRight_drop_indented hline htrimmed hfirst, ih hrest hcode]
  have hlast : stripRight ((blanks k).drop n) = [] := by
    refine (dropRight_eq_nil_iff isBlank _).mpr (List.all_eq_true.mpr fun c hc => ?_)
    exact List.all_eq_true.mp (isBlankText_blanks k) c (List.mem_of_mem_drop hc)
  have hall : lines (t ++ ['\n']) = first :: (rest ++ [[]]) := by
    have := splitOn_append '\n' t []
    rw [show splitOn '\n' t = first :: rest from hlines] at this
    exact this
  show strip (joinLines (strip first :: (below ++ [blanks k]).map fun line => stripRight (line.drop n))) = t
  rw [List.map_append, hsame, List.map_singleton, hlast, (first_stripped ht hlines).2, ← hall, joinLines_lines,
    strip_append_blank t (by decide), ht.stripped]

/-- **A documentation between long quotes is read as it is.** -/
theorem documentation_read {lines : List Text} {start stop : Nat} (ht : IsDocumentation t)
    (hlines : Text.lines t = first :: rest) (hbelow : List.Forall₂ (IsIndentedLine k) rest below)
    (hbody : lines.drop start = (blanks k ++ longQuote ++ first) :: (below ++ (blanks k ++ longQuote) :: after))
    (hstop : start < stop) : documentation? lines start stop = some t := by
  obtain ⟨hne, hfirst⟩ := first_stripped ht hlines
  have hline : lines[start]? = some (blanks k ++ longQuote ++ first) := by
    have hfirst : (lines.drop start)[0]? = lines[start + 0]? := List.getElem?_drop
    rw [hbody] at hfirst
    exact hfirst.symm
  have hmore : lines.drop (start + 1) = below ++ (blanks k ++ longQuote) :: after := by
    rw [← List.tail_drop, hbody]
    rfl
  have hcode : firstCode? lines start stop = some start := by
    obtain ⟨n, hn⟩ := Nat.exists_eq_add_of_lt hstop
    have hblank : isBlankText (blanks k ++ longQuote ++ first) = false := by
      rw [isBlankText_append, isBlankText_append, show isBlankText longQuote = false by decide, Bool.and_false]
      rfl
    unfold firstCode?
    rw [List.drop_take, hbody, hn, Nat.add_assoc, Nat.add_sub_cancel_left, List.take_succ_cons, List.findIdx?_cons,
      hblank]
    rfl
  have hstrip : strip (blanks k ++ longQuote ++ first) = longQuote ++ first := by
    have := strip_append_self (a := longQuote) (by decide) (by decide) hfirst hne []
    rw [List.append_nil] at this
    rw [List.append_assoc, strip_blank_append _ (isBlankText_blanks k), this]
  have hunquoted : ∀ line ∈ below, contains line longQuote = false := by
    intro line' hline'
    obtain ⟨line, hline, hindented⟩ := exists_mem_of_forall₂ hbelow line' hline'
    exact contains_indented hindented (ht.unquoted line (hlines ▸ List.mem_cons_of_mem _ hline))
  have hopen : breakOn? longQuote first = none :=
    breakOn_none (ht.unquoted first (hlines ▸ List.mem_cons_self))
  have hclose : breakOn? longQuote (blanks k ++ longQuote) = some (blanks k, []) := by
    rw [breakOn_blanks]
    show some (blanks k ++ [], []) = _
    rw [List.append_nil]
  have hmark : longQuote? (dropQuoteLetter (longQuote ++ first)) = some longQuote := rfl
  have hopening : (dropQuoteLetter (longQuote ++ first)).drop longQuote.length = first := rfl
  unfold documentation?
  rw [hcode, Option.bind_some, hline, Option.getD_some, hstrip]
  simp only [hmark, Option.bind_some, hopening]
  rw [hopen, hmore, linesUpTo_marked hunquoted hclose, unindent_indented ht hlines hbelow]
  cases t with
  | nil => exact absurd rfl ht.ne_nil
  | cons c t => rfl

end

/-! ## Below the header of a symbol -/

section

variable {lines lines' : List Text} {total i : Nat} {header : SymbolHeader}

/-- **The header of a symbol is read from its own lines.** -/
theorem symbolHeader_take (h : SymbolHeader.at? lines i = some header)
    (htake : lines'.take (i + header.extraLines + 1) = lines.take (i + header.extraLines + 1)) :
    SymbolHeader.at? lines' i = some header := by
  have hline : lines'[i]? = lines[i]? := getElem_of_take htake (by omega)
  unfold SymbolHeader.at? at h ⊢
  rw [hline]
  simp only at h ⊢
  split at h
  · cases h
  · rename_i hmargin
    rw [if_neg hmargin]
    split at h
    · rename_i hfunction
      obtain ⟨header, hheader, rfl⟩ := Option.map_eq_some_iff.mp h
      rw [if_pos hfunction, functionHeader_take hheader htake]
      rfl
    · rename_i hfunction
      rw [if_neg hfunction]
      split at h
      · rename_i hclass
        obtain ⟨header, hheader, rfl⟩ := Option.map_eq_some_iff.mp h
        rw [if_pos hclass, classHeader_take hheader htake]
        rfl
      · cases h

theorem symbolHeader_lt (h : SymbolHeader.at? lines i = some header) : i + header.extraLines < lines.length := by
  unfold SymbolHeader.at? at h
  simp only at h
  split at h
  · cases h
  · split at h
    · obtain ⟨read, hread, rfl⟩ := Option.map_eq_some_iff.mp h
      exact functionHeader_lt hread
    · split at h
      · obtain ⟨read, hread, rfl⟩ := Option.map_eq_some_iff.mp h
        exact classHeader_lt hread
      · cases h

/-- **The documentation of a symbol is read below its header.** -/
theorem comments_of_symbolAt {d : Decl} (h : symbolAt? lines total i = .ok (some d))
    (hheader : SymbolHeader.at? lines i = some header) :
    d.comments = documentation? lines (i + header.extraLines + 1)
      (blockEnd (indentation ((lines[i]?).getD [])) total (i + header.extraLines + 1) lines) := by
  unfold symbolAt? at h
  unfold SymbolHeader.at? at hheader
  simp only [strip_eq_nil_iff] at h hheader
  split at h
  · cases h
  · rename_i hmargin
    rw [if_neg hmargin] at hheader
    split at h
    · rename_i hfunction
      rw [if_pos hfunction] at hheader
      obtain ⟨read, hread, rfl⟩ := Option.map_eq_some_iff.mp hheader
      unfold functionAt? at h
      rw [hread] at h
      cases h
      rfl
    · rename_i hfunction
      rw [if_neg hfunction] at hheader
      split at h
      · rename_i hclass
        rw [if_pos hclass] at hheader
        obtain ⟨read, hread, rfl⟩ := Option.map_eq_some_iff.mp hheader
        obtain ⟨t?, ht, he⟩ := exists_of_map_ok h
        obtain ⟨t, rfl, rfl⟩ := Option.map_eq_some_iff.mp he
        unfold classAt? at ht
        rw [hread] at ht
        obtain ⟨b, -, he⟩ := exists_of_map_ok ht
        cases he
        rfl
      · cases h

/-- A block goes on over a line that is indented deeper than its header. -/
theorem lt_blockEnd {line : Text} {start depth : Nat} (hline : lines[start]? = some line)
    (hdeep : depth < indentation line) (htotal : start < total) : start < blockEnd depth total start lines := by
  unfold blockEnd
  split
  · rename_i n hn
    obtain ⟨hlt, hat, -⟩ := List.findIdx?_eq_some_iff_getElem.mp hn
    cases n with
    | zero =>
      obtain ⟨_, hget⟩ := List.getElem?_eq_some_iff.mp hline
      simp only [List.getElem_drop, Nat.add_zero, hget, Bool.and_eq_true, decide_eq_true_eq] at hat
      omega
    | succ n => omega
  · omega

end

/-! ## A documented symbol -/

/-- The lines of a body that starts with a documentation. -/
def documentedBody (k : Nat) (first : Text) (below after : List Text) : List Text :=
  (blanks k ++ longQuote ++ first) :: (below ++ (blanks k ++ longQuote) :: after)

section

variable {t first : Text} {k : Nat} {rest below after : List Text}

theorem isBoundary_blanks (k : Nat) : ∀ c ∈ blanks k, isBoundary c = false := by
  intro c hc
  rw [List.eq_of_mem_replicate hc]
  decide

theorem boundaries_documentedBody (ht : IsDocumentation t) (hlines : Text.lines t = first :: rest)
    (hbelow : List.Forall₂ (IsIndentedLine k) rest below)
    (hafter : ∀ line ∈ after, ∀ c ∈ line, isBoundary c = false) :
    ∀ line ∈ documentedBody k first below after, ∀ c ∈ line, isBoundary c = false := by
  have hblanks := isBoundary_blanks k
  have hmark : ∀ c ∈ blanks k ++ longQuote, isBoundary c = false :=
    List.forall_mem_append.mpr ⟨hblanks, by decide⟩
  have hown := boundaries_lines ht.boundaries
  rw [hlines] at hown
  obtain ⟨hfirst, hrest⟩ := List.forall_mem_cons.mp hown
  refine List.forall_mem_cons.mpr ⟨List.forall_mem_append.mpr ⟨hmark, hfirst⟩,
    List.forall_mem_append.mpr ⟨fun line' hline' => ?_, List.forall_mem_cons.mpr ⟨hmark, hafter⟩⟩⟩
  obtain ⟨line, hline, hindented⟩ := exists_mem_of_forall₂ hbelow line' hline'
  rcases hindented with rfl | ⟨-, rfl⟩
  · exact List.forall_mem_append.mpr ⟨hblanks, hrest line hline⟩
  · exact fun c hc => nomatch hc

/-- No line of the body is at the left margin. -/
theorem indented_documentedBody (hk : k ≠ 0) (first : Text) (hbelow : List.Forall₂ (IsIndentedLine k) rest below)
    (hafter : ∀ line ∈ after, isBlankText line = true ∨ indentation line ≠ 0) :
    ∀ line ∈ documentedBody k first below after, isBlankText line = true ∨ indentation line ≠ 0 := by
  have hdeep : ∀ line, indentation (blanks k ++ line) ≠ 0 := fun line => by
    rw [indentation_blanks]
    omega
  refine List.forall_mem_cons.mpr ⟨.inr (by rw [List.append_assoc]; exact hdeep _),
    List.forall_mem_append.mpr ⟨fun line' hline' => ?_, List.forall_mem_cons.mpr ⟨.inr (hdeep _), hafter⟩⟩⟩
  obtain ⟨line, -, hindented⟩ := exists_mem_of_forall₂ hbelow line' hline'
  rcases hindented with rfl | ⟨-, rfl⟩
  · exact .inr (hdeep line)
  · exact .inl rfl

end

/-- **A documentation reads back:** what stands between long quotes below the header of a function or a class, with the
same blanks in front of its lines, is the documentation of the symbol, character for character. -/
theorem extract_documented {line t first : Text} {header : SymbolHeader} {k : Nat} {rest below after : List Text}
    (hheader : SymbolHeader.at? [line] 0 = some header) (hline : ∀ c ∈ line, isBoundary c = false)
    (ht : IsDocumentation t) (hlines : Text.lines t = first :: rest) (hk : k ≠ 0)
    (hbelow : List.Forall₂ (IsIndentedLine k) rest below)
    (hafter : ∀ line ∈ after, (isBlankText line = true ∨ indentation line ≠ 0) ∧ ∀ c ∈ line, isBoundary c = false)
    (path : Text) :
    ∃ o d, (Extractor.builtIn .python).extract path (joinLines (line :: documentedBody k first below after)) = .ok o ∧
      o.decls = [d] ∧ header.Names d ∧ d.comments = some t := by
  have hplain := List.forall_mem_cons.mpr ⟨hline,
    boundaries_documentedBody ht hlines hbelow fun line hmem => (hafter line hmem).2⟩
  have hindented := indented_documentedBody hk first hbelow fun line hmem => (hafter line hmem).1
  have hbody : (documentedBody k first below after)[0]? = some (blanks k ++ longQuote ++ first) := rfl
  generalize hsource : joinLines (line :: documentedBody k first below after) = source
  have hsplit : Text.lines source = line :: documentedBody k first below after := by
    rw [← hsource]
    refine lines_joinLines (List.cons_ne_nil _ _) fun line' hmem hn => ?_
    exact absurd (hplain line' hmem '\n' hn) (by decide)
  have hfew : (boundaryLines source).length ≤ (line :: documentedBody k first below after).length := by
    rw [← hsplit]
    exact length_boundaryLines_le (hsource ▸ boundaries_joinLines hplain)
  -- The first line of the documentation is counted, since it is not empty.
  have hmany : 1 < (boundaryLines source).length := by
    refine Nat.lt_of_not_le fun hle => ?_
    have hmem : blanks k ++ longQuote ++ first ∈ (Text.lines source).drop (boundaryLines source).length := by
      rw [hsplit]
      exact mem_drop_of_le hle List.mem_cons_self
    have := drop_boundaryLines source _ hmem
    simp [longQuote] at this
  have hzero : header.extraLines = 0 := by
    have := symbolHeader_lt hheader
    rw [List.length_singleton] at this
    omega
  have hread : SymbolHeader.at? (line :: documentedBody k first below after) 0 = some header :=
    symbolHeader_take hheader (by rw [hzero]; rfl)
  obtain ⟨d?, hd, -⟩ := symbolAt_within hfew 0
  rcases symbolAt_cases hd with ⟨hnone, -⟩ | ⟨d, rfl, hlies⟩
  · cases hread.symm.trans hnone
  · obtain ⟨header', stop, hread', hnames, -⟩ := hlies.block
    cases hread.symm.trans hread'
    have hsymbols := symbolsOf_first hd fun line hmem => (hindented line hmem).imp_left .inl
    refine ⟨_, d, (extract_eq_ok_iff path source _).mpr ⟨[d], by rw [hsplit]; exact hsymbols, rfl⟩, rfl, hnames, ?_⟩
    obtain ⟨line', hfirst, -, hmargin⟩ := SymbolHeader.closesAt hread 0
    cases hfirst
    have hdeep : indentation line < indentation (blanks k ++ longQuote ++ first) := by
      rw [List.append_assoc, indentation_blanks]
      omega
    rw [comments_of_symbolAt hd hread, hzero]
    exact documentation_read ht hlines hbelow rfl (lt_blockEnd hbody hdeep hmany)

deriving instance DecidableEq for SymbolHeader

/-- A documentation with lines that are empty or indented, and quotes beside its own. -/
def sampleDocumentation : Text := "\"Sum\" of\n\n    x and\n\ny: ''".toList

/-- The lines of the documentation below its first one, with two blanks in front of all but one. -/
def sampleLines : List Text := [[], "      x and".toList, "  ".toList, "  y: ''".toList]

theorem extract_documented_sample :
    (∃ o d, (Extractor.builtIn .python).extract []
        (joinLines ("def f():".toList :: documentedBody 2 "\"Sum\" of".toList sampleLines [])) = .ok o ∧
      o.decls = [d] ∧ d.comments = some sampleDocumentation) ∧
    ∃ o d, (Extractor.builtIn .python).extract []
        (joinLines ("class A:".toList :: documentedBody 2 "\"Sum\" of".toList sampleLines ["  x = 1".toList])) = .ok o ∧
      o.decls = [d] ∧ d.comments = some sampleDocumentation := by
  have ht : IsDocumentation sampleDocumentation := by
    constructor <;> decide
  have hlines : Text.lines sampleDocumentation =
      "\"Sum\" of".toList :: [[], "    x and".toList, [], "y: ''".toList] := by decide
  have hbelow : List.Forall₂ (IsIndentedLine 2) [[], "    x and".toList, [], "y: ''".toList] sampleLines :=
    .cons (.inr ⟨rfl, rfl⟩) (.cons (.inl rfl) (.cons (.inl rfl) (.cons (.inl rfl) .nil)))
  have hfunction : SymbolHeader.at? ["def f():".toList] 0 =
      some (.function ⟨⟨false, "f".toList, [')']⟩, [], none, 0⟩) := by decide
  have hclass : SymbolHeader.at? ["class A:".toList] 0 = some (.type ⟨"A".toList, [], 0⟩) := by decide
  have hafter : ∀ line ∈ ["  x = 1".toList],
      (isBlankText line = true ∨ indentation line ≠ 0) ∧ ∀ c ∈ line, isBoundary c = false := by decide
  obtain ⟨o, d, ho, hd, -, hcomments⟩ :=
    extract_documented hfunction (by decide) ht hlines (by decide) hbelow (List.forall_mem_nil _) []
  obtain ⟨o', d', ho', hd', -, hcomments'⟩ :=
    extract_documented hclass (by decide) ht hlines (by decide) hbelow hafter []
  exact ⟨⟨o, d, ho, hd, hcomments⟩, o', d', ho', hd', hcomments'⟩

end SourceDoc.Indented
