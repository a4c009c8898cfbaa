import SourceDoc.Proofs.Page.Sections

/-!
# The table of contents of a document

The table of contents is read off the headings of a page, put in its place, and laid out with the page.  It is there on
the page that comes out, and lists the sections of the document, one below the other:

    contentsBlock? (documentPage now d) = the lines of the entries of d, if there are any   (contentsBlock_documentPage)
-/

namespace SourceDoc

open Text

namespace Markdown

/-- The table of contents on a page: the lines below its heading and a blank line, up to the next blank line. -/
def contentsBlock? (page : Text) : Option (List Text) :=
  match (lines page).dropWhile (· ≠ "## Table of Contents".toList) with
  | _ :: [] :: rest => some (rest.takeWhile (· ≠ []))
  | _ => none

/-! ## The table of contents in its layout -/

/-- The heading of the table of contents. -/
def contentsTitle : Text := "## Table of Contents".toList

section

variable {out front block back : List Text} {line s : Text}

/-- A line without blanks at its end that is neither blank nor a heading. -/
structure IsItem (line : Text) : Prop where
  tidy : tidyEnd line = line
  ne_nil : line ≠ []
  no_mark : startsWith line ['#'] = false

theorem IsItem.fits (h : IsItem line) (out : List Text) : Fits out line where
  tidy := h.tidy
  blank _ hnil := absurd hnil h.ne_nil
  heading _ hmark := by rw [h.no_mark] at hmark; cases hmark

theorem areFitting_items (h : ∀ line ∈ block, IsItem line) (out : List Text) : AreFitting out block := by
  induction block generalizing out with
  | nil => trivial
  | cons line block ih =>
    obtain ⟨hline, hblock⟩ := List.forall_mem_cons.mp h
    exact ⟨hline.fits out, ih hblock _⟩

theorem isPlain_tidyEnd (h : IsPlain line) : IsPlain (tidyEnd line) := by
  have hstrip : strip (tidyEnd line) = strip line := by
    unfold tidyEnd
    split
    · rfl
    · exact strip_stripRight line
  exact ⟨by rw [hstrip, h.heading], by rw [hstrip, h.fence]⟩

/-- Plain lines that are kept are not the heading of the table of contents. -/
theorem ne_contentsTitle (out : List Text) (h : ∀ line ∈ front, IsPlain line) :
    ∀ line ∈ layoutLines (Layout.of out) front, line ≠ contentsTitle := by
  rintro line hline rfl
  have htitle : heading? (strip contentsTitle) ≠ none := by decide
  rcases mem_layoutLines hline with hnil | ⟨line, hmem, heq⟩
  · cases hnil
  · refine htitle ?_
    rw [heq]
    exact (isPlain_tidyEnd (h line hmem)).heading

/-- Lines that end with a blank one are kept with a blank one at the end. -/
theorem getLast_layoutLines (out front : List Text) :
    (out ++ layoutLines (Layout.of out) (front ++ [[]])).getLast? = some [] := by
  rw [layoutLines_append, ← List.append_assoc]
  generalize out ++ layoutLines (Layout.of out) front = out'
  rw [layoutLines_cons, layoutLines, List.append_nil]
  rcases kept_cases out' [] with ⟨-, heq⟩ | ⟨-, hnot, heq⟩ | ⟨-, -, -, heq⟩
  · rw [heq]
    exact List.getLast?_concat
  · rw [heq, List.append_nil]
    by_contra hlast
    exact hnot ⟨rfl, fun _ _ => hlast, fun _ hmark => by cases hmark⟩
  · rw [heq]
    exact (congrArg List.getLast? (List.append_cons _ _ _)).trans List.getLast?_concat

/-- Below a blank line a table of contents is in place. -/
theorem areFitting_contents (hout : out.getLast? = some []) (hne : block ≠ []) (hblock : ∀ line ∈ block, IsItem line) :
    AreFitting out (contentsTitle :: [] :: (block ++ [[]])) := by
  have htitle : Fits out contentsTitle := ⟨by decide, fun _ hnil => absurd hnil (by decide), fun _ _ above habove => by
    rw [hout] at habove
    exact (Option.some.inj habove).symm⟩
  have hgap : ∀ {out line}, line ≠ [] → Fits (out ++ [line]) [] := fun hline => ⟨rfl, fun _ _ => by
    rw [List.getLast?_concat]
    exact fun h => hline (Option.some.inj h), fun _ hmark => by cases hmark⟩
  refine ⟨htitle, hgap (by decide), areFitting_append.mpr ⟨areFitting_items hblock _, ?_, trivial⟩⟩
  rw [← List.dropLast_concat_getLast hne, ← List.append_assoc]
  exact hgap (hblock _ (List.getLast_mem hne)).ne_nil

/-- What follows a blank line still starts with one, or is nothing. -/
theorem takeWhile_dropEmptyEnd (more : List Text) :
    (dropEmptyEnd ([] :: more) ++ [[]]).takeWhile (· ≠ ([] : Text)) = [] := by
  obtain ⟨gap, -, hgap⟩ := dropEmptyEnd_append ([] :: more)
  cases h : dropEmptyEnd ([] :: more) with
  | nil => rfl
  | cons line rest =>
    rw [h, List.cons_append] at hgap
    rw [(List.cons.inj hgap).1]
    rfl

/-- **The table of contents is read off the page as it was written.** -/
theorem contentsBlock_lint (hs : lines (unifyNewlines s) =
    front ++ [[]] ++ (contentsTitle :: [] :: (block ++ [[]]) ++ back)) (hfront : ∀ line ∈ front, IsPlain line)
    (hne : block ≠ []) (hblock : ∀ line ∈ block, IsItem line) : contentsBlock? (lint s) = some block := by
  have hplain : ∀ line ∈ front ++ [[]], IsPlain line :=
    List.forall_mem_append.mpr ⟨hfront, List.forall_mem_singleton.mpr isPlain_nil⟩
  have habove := ne_contentsTitle [] hplain
  have hlast := getLast_layoutLines [] front
  have hpage : pageLines s = dropEmptyEnd (layoutLines (Layout.of [])
      (front ++ [[]] ++ (contentsTitle :: [] :: (block ++ [[]]) ++ back))) := by rw [pageLines, hs]
  rw [layoutLines_append, List.nil_append] at hpage
  rw [List.nil_append] at hlast
  generalize layoutLines (Layout.of []) (front ++ [[]]) = above at habove hlast hpage
  have hfits := areFitting_contents hlast hne hblock
  have htidy : (contentsTitle :: [] :: (block ++ [[]])).map tidyEnd = contentsTitle :: [] :: (block ++ [[]]) := by
    refine map_eq_self ?_
    simp only [List.forall_mem_cons, List.forall_mem_append]
    exact ⟨by decide, rfl, fun line hline => (hblock line hline).tidy, rfl, List.forall_mem_nil _⟩
  have hkept := layoutLines_of_fitting (htidy.symm ▸ hfits)
  rw [layoutLines_append, hkept, htidy] at hpage
  generalize layoutLines (Layout.of (above ++ (contentsTitle :: [] :: (block ++ [[]])))) back = more at hpage
  have hlines : pageLines s = above ++ contentsTitle :: [] :: (block ++ dropEmptyEnd ([] :: more)) := by
    rw [hpage, ← List.dropLast_concat_getLast hne]
    have := dropEmptyEnd_append_cons (above ++ contentsTitle :: [] :: block.dropLast)
      (hblock _ (List.getLast_mem hne)).ne_nil ([] :: more)
    simpa using this
  have hsome : pageLines s ≠ [] := by rw [hlines]; simp
  have hdrop : (lines (lint s)).dropWhile (· ≠ contentsTitle) =
      contentsTitle :: [] :: (block ++ (dropEmptyEnd ([] :: more) ++ [[]])) := by
    rw [lines_lint hsome, hlines, List.append_assoc,
      List.dropWhile_append_of_pos fun line hline => decide_eq_true (habove line hline), List.cons_append,
      List.dropWhile_cons_of_neg (by simp)]
    simp
  unfold contentsBlock?
  rw [show "## Table of Contents".toList = contentsTitle from rfl, hdrop]
  refine congrArg some ?_
  rw [List.takeWhile_append_of_pos fun line hline => decide_eq_true (hblock line hline).ne_nil, takeWhile_dropEmptyEnd,
    List.append_nil]

/-- A page of plain lines has no table of contents. -/
theorem contentsBlock_lint_none (h : ∀ line ∈ lines (unifyNewlines s), IsPlain line) :
    contentsBlock? (lint s) = none := by
  have hnone : ∀ ls : List Text, (∀ line ∈ ls, line ≠ contentsTitle) → ls.dropWhile (· ≠ contentsTitle) = [] :=
    fun ls hls => List.dropWhile_eq_nil_iff.mpr fun line hline => decide_eq_true (hls line hline)
  have hkept := ne_contentsTitle [] h
  obtain ⟨gap, -, hgap⟩ := dropEmptyEnd_append (layoutLines (Layout.of []) (lines (unifyNewlines s)))
  have hpage : ∀ line ∈ pageLines s, line ≠ contentsTitle := fun line hline =>
    hkept line (hgap ▸ List.mem_append_left gap hline)
  have hdrop : (lines (lint s)).dropWhile (· ≠ contentsTitle) = [] := by
    by_cases hnil : pageLines s = []
    · rw [lint_of_nil hnil]
      exact hnone _ (by decide)
    · rw [lines_lint hnil]
      exact hnone _ (List.forall_mem_append.mpr ⟨hpage, by decide⟩)
  unfold contentsBlock?
  rw [show "## Table of Contents".toList = contentsTitle from rfl, hdrop]

end

/-! ## The page of a document -/

/-- A slug is made of word characters and dashes. -/
theorem mem_slug {title : Text} {c : Char} (h : c ∈ slug title) : isWord c = true ∨ c = '-' := by
  unfold slug at h
  obtain ⟨d, hd, rfl⟩ := List.mem_map.mp h
  have hkept := (List.mem_filter.mp hd).2
  split
  · exact .inr rfl
  · rename_i hblank
    simpa [hblank] using hkept

theorem isBlank_of_isBoundary {c : Char} (h : isBoundary c = true) : isBlank c = true := by
  simp only [isBoundary, isBlank, isSeparator, Bool.or_eq_true, Bool.and_eq_true, decide_eq_true_eq] at h ⊢
  omega

theorem isLine_slug (title : Text) : IsLine (slug title) := by
  intro c hc
  rcases mem_slug hc with hword | rfl
  · rw [← Bool.not_eq_true]
    intro hboundary
    have hblank := not_isBlank_of_isWord hword
    rw [isBlank_of_isBoundary hboundary] at hblank
    cases hblank
  · rfl

theorem isLine_ofNat (k : Nat) : IsLine (ofNat k) := by
  intro c hc
  have hdigit := ofNat_digits k c hc
  unfold IsDigit at hdigit
  simp only [isBoundary, Bool.or_eq_false_iff, Bool.and_eq_false_iff, decide_eq_false_iff_not]
  omega

theorem isLine_numbered {s : Text} (h : IsLine s) (k : Nat) : IsLine (numbered s k) := by
  unfold numbered
  split
  · exact h
  · exact isLine_append.mpr ⟨h, isLine_cons.mpr ⟨rfl, isLine_ofNat k⟩⟩

/-- The lines of the entries of a table of contents. -/
def entryLines (es : List Entry) : List Text :=
  es.mapIdx fun i e => e.line (numbered (slug e.title) (((es.map fun e => slug e.title).take i).count (slug e.title)))

theorem contentsLine_heading {e : Entry} (h : '\x60' ∉ e.name) (anchor : Text) :
    contentsLine e.heading anchor = e.line anchor := by
  obtain ⟨name, isNested⟩ := e
  have hname : name.filter (· ≠ '\x60') = name := List.filter_eq_self.mpr fun c hc => by
    have hne : c ≠ '\x60' := fun heq => h (heq ▸ hc)
    simpa using hne
  cases isNested with
  | true =>
    have hcode : (code name).filter (· ≠ '\x60') = name := by
      rw [code, List.filter_cons_of_neg (by decide), List.filter_append, hname]
      exact List.append_nil name
    simp only [contentsLine, Entry.heading, Entry.title, Entry.line, if_true, hcode]
    rfl
  | false =>
    simp only [contentsLine, Entry.heading, Entry.title, Entry.line, Bool.false_eq_true, if_false, hname]
    rfl

theorem zipWith_contentsLine {es : List Entry} (h : ∀ e ∈ es, '\x60' ∉ e.name) :
    List.zipWith contentsLine (es.map Entry.heading) (anchors (es.map Entry.heading)) = entryLines es := by
  have hslugs : slugs (es.map Entry.heading) = es.map fun e => slug e.title := List.map_map
  refine List.ext_getElem (by simp [anchors_eq, hslugs, entryLines]) fun i hi hi' => ?_
  have hlength : i < es.length := by simpa [entryLines] using hi'
  simp only [entryLines, List.getElem_zipWith, anchors_eq, hslugs, List.getElem_map, List.getElem_mapIdx]
  exact contentsLine_heading (h _ (List.getElem_mem hlength)) _

theorem Entry.isItem_line (e : Entry) (anchor : Text) : IsItem (e.line anchor) := by
  have hlast : (e.line anchor).getLast? = some ')' := List.getLast?_concat
  have hright : stripRight (e.line anchor) = e.line anchor := (dropRight_eq_self_iff isBlank _).mpr fun c hc => by
    rw [hlast] at hc
    cases hc
    rfl
  refine ⟨?_, fun hnil => ?_, ?_⟩
  · unfold tidyEnd
    split
    · rfl
    · exact hright
  · rw [hnil] at hlast
    cases hlast
  · obtain ⟨name, isNested⟩ := e
    cases isNested <;> rfl

theorem Entry.isLine_line {e : Entry} (h : IsLine e.name) {anchor : Text} (hanchor : IsLine anchor) :
    IsLine (e.line anchor) := by
  unfold Entry.line
  simp only [isLine_append]
  refine ⟨⟨⟨⟨⟨?_, by decide⟩, h⟩, by decide⟩, hanchor⟩, by decide⟩
  split <;> decide

theorem frontLines_concat (d : Document) : ∃ front, frontLines d = front ++ [[]] := by
  unfold frontLines
  cases present? d.proseError with
  | none => exact ⟨[_, _, _, _, _, _], rfl⟩
  | some reason => exact ⟨[_, _, _, _, _, _, _, _], rfl⟩

theorem sectionLines_of_no_entries {d : Document} (h : entries d = []) : sectionLines d = [] := by
  have hflat : ∀ {title present}, flatEntry title present = [] → present = false := fun {title present} hnil => by
    cases present
    · rfl
    · cases hnil
  have hnested : ∀ {title names}, nestedEntries title names = [] → names = [] := fun {title names} hnil => by
    by_contra hne
    rw [nestedEntries, if_neg hne] at hnil
    cases hnil
  simp only [entries, List.append_eq_nil_iff] at h
  obtain ⟨⟨⟨⟨hfunctions, htypes⟩, hexports⟩, husage⟩, hnotes⟩ := h
  have hfunctions' : d.functions = [] := List.map_eq_nil_iff.mp (hnested hfunctions)
  have htypes' : d.types = [] := List.map_eq_nil_iff.mp (hnested htypes)
  have hexports' : d.exports = [] := by simpa using hflat hexports
  have husage' : present? d.usage = none := by simpa using hflat husage
  have hnotes' : present? d.notes = none := by simpa using hflat hnotes
  rw [sectionLines, hfunctions', htypes', hexports', proseSection, husage', proseSection, hnotes']
  rfl

theorem entryLines_isItem {es : List Entry} (h : ∀ e ∈ es, IsLine e.name) :
    ∀ line ∈ entryLines es, IsItem line ∧ IsLine line := by
  intro line hline
  obtain ⟨i, hi, rfl⟩ := List.mem_mapIdx.mp hline
  exact ⟨es[i].isItem_line _, Entry.isLine_line (h _ (List.getElem_mem hi)) (isLine_numbered (isLine_slug _) _)⟩

/-- What holds of the names of functions and types and of all titles holds of the names of entries. -/
theorem forall_mem_entries {p : Text → Prop} {d : Document} (hfunctions : ∀ f ∈ d.functions, p f.decl.name)
    (htypes : ∀ t ∈ d.types, p t.decl.name)
    (htitles : ∀ title ∈ ["Functions", "Classes", "Exports", "Usage", "Notes"], p (String.toList title)) :
    ∀ e ∈ entries d, p e.name := by
  have hflat : ∀ title present, p (String.toList title) → ∀ e ∈ flatEntry title present, p e.name := by
    intro title present htitle e he
    cases present
    · cases he
    · rwa [List.mem_singleton.mp he]
  have hnested : ∀ title names, p (String.toList title) → (∀ name ∈ names, p name) →
      ∀ e ∈ nestedEntries title names, p e.name := by
    intro title names htitle hnames e he
    unfold nestedEntries at he
    split at he
    · cases he
    · rcases List.mem_cons.mp he with rfl | he
      · exact htitle
      · obtain ⟨name, hname, rfl⟩ := List.mem_map.mp he
        exact hnames name hname
  simp only [List.forall_mem_cons] at htitles
  obtain ⟨hone, htwo, hthree, hfour, hfive, -⟩ := htitles
  simp only [entries, List.forall_mem_append]
  exact ⟨⟨⟨⟨hnested _ _ hone (List.forall_mem_map.mpr hfunctions), hnested _ _ htwo (List.forall_mem_map.mpr htypes)⟩,
    hflat _ _ hthree⟩, hflat _ _ hfour⟩, hflat _ _ hfive⟩

theorem lines_joinLines_isLine {ls : List Text} (hne : ls ≠ []) (h : ∀ line ∈ ls, IsLine line) :
    lines (unifyNewlines (joinLines ls)) = ls := by
  have hnot : ∀ {c : Char}, isBoundary c = true → ∀ line ∈ ls, c ∉ line := fun hc line hline hmem => by
    rw [h line hline _ hmem] at hc
    cases hc
  have hreturn : '\r' ∉ joinLines ls := fun hmem => by
    obtain ⟨line, hline, hc⟩ := (mem_joinLines_iff (by decide)).mp hmem
    exact hnot (by decide) line hline hc
  rw [unifyNewlines_of_not_mem hreturn]
  exact lines_joinLines hne (hnot (by decide))

/-- What the page shows of a document in its entries. -/
theorem entries_showable {d : Document} (htexts : ∀ t ∈ d.texts, IsShowable t) :
    ∀ e ∈ entries d, IsLine e.name ∧ '\x60' ∉ e.name := by
  simp only [Document.texts, List.forall_mem_cons, List.forall_mem_append, List.forall_mem_flatMap] at htexts
  obtain ⟨-, -, -, ⟨⟨⟨⟨-, hfunctions⟩, htypes⟩, -⟩, -⟩, -⟩ := htexts
  refine forall_mem_entries (p := fun name => IsLine name ∧ '\x60' ∉ name) (fun f hf => ?_) (fun t ht => ?_) (by decide)
  · have := hfunctions f hf f.decl.name (by simp [DocumentedFunction.texts, FunctionDecl.texts])
    exact ⟨this.isLine, this.unquoted⟩
  · have := htypes t ht t.decl.name List.mem_cons_self
    exact ⟨this.isLine, this.unquoted⟩

theorem plain_rule : IsLine "---".toList ∧ IsPlain "---".toList := ⟨by decide, by decide, by decide⟩

theorem plain_lastLine {now : Text} (h : IsLine now) : IsLine (lastLine now) ∧ IsPlain (lastLine now) := by
  unfold lastLine
  refine ⟨isLine_append.mpr ⟨isLine_append.mpr ⟨by decide, h⟩, by decide⟩, ?_⟩
  rw [List.append_assoc]
  exact isPlain_front (by decide) _

section

variable {now : Text} {d : Document} (hnow : IsLine now) (htexts : ∀ t ∈ d.texts, IsShowable t)
  (hparagraphs : ∀ t ∈ d.paragraphs, IsParagraph t)

include hnow htexts hparagraphs

theorem lists_backLines : Lists (backLines now d) ((entries d).map Entry.heading) :=
  (lists_sectionLines htexts hparagraphs).then (.cons plain_rule.1 plain_rule.2 (.cons isLine_nil isPlain_nil
    (.singleton (plain_lastLine hnow).1 (plain_lastLine hnow).2)))

/-- **The headings of a page are those of the sections of the document.** -/
theorem headings_documentLines :
    headings (joinLines (documentLines now d)) = (entries d).map Entry.heading := by
  have hall : Lists (documentLines now d) ((entries d).map Entry.heading) := by
    rw [documentLines_eq]
    exact (Lists.of_plain (plain_frontLines htexts hparagraphs)).append (.cons (by decide) ⟨by decide, by decide⟩
      (.cons isLine_nil isPlain_nil (lists_backLines hnow htexts hparagraphs)))
  have hlist := hall.headings []
  rw [List.append_nil, headingsFrom, List.append_nil] at hlist
  obtain ⟨front, hconcat⟩ : ∃ front, documentLines now d = front ++ [lastLine now] :=
    ⟨frontLines d ++ contentsMark :: [] :: (sectionLines d ++ ["---".toList, []]), by
      rw [documentLines_eq, backLines]
      simp only [List.append_assoc, List.cons_append, List.nil_append]⟩
  have hlines := hall.isLine
  rw [hconcat, List.forall_mem_append] at hlines
  have hlast : lastLine now ≠ [] := List.append_ne_nil_of_right_ne_nil _ (List.cons_ne_nil _ _)
  rw [headings, ← hlist, hconcat, boundaryLines_joinLines hlines.1 (plain_lastLine hnow).1 hlast]

/-- The table of contents is a line, or some lines, in the place of its mark. -/
theorem addContents_documentLines : addContents (joinLines (documentLines now d)) = joinLines (frontLines d ++
    ((if entries d = [] then [[]] else contentsTitle :: [] :: entryLines (entries d)) ++ [] :: backLines now d)) := by
  have hreplaced : addContents (joinLines (documentLines now d)) =
      joinLines (frontLines d ++ contents ((entries d).map Entry.heading) :: [] :: backLines now d) := by
    rw [addContents, headings_documentLines hnow htexts hparagraphs, documentLines_eq]
    exact replaceFirst_joinLines (by decide) (by decide) _ (unmarked_frontLines htexts) _
  rw [hreplaced]
  split
  · rename_i hnone
    rw [hnone]
    rfl
  · rename_i hsome
    have hne : (entries d).map Entry.heading ≠ [] := by simpa using hsome
    rw [contents, if_neg hne, zipWith_contentsLine fun e he => (entries_showable htexts e he).2]
    exact joinLines_joinLines _ (List.cons_ne_nil _ _) _

/-- **The table of contents of a page lists the sections of the document.**  It is there if the document has any; each
entry links to the slug of its heading, with the number of the headings above that have the same. -/
theorem contentsBlock_documentPage : contentsBlock? (documentPage now d) = if entries d = [] then none else
    some ((entries d).mapIdx fun i e =>
      e.line (numbered (slug e.title) ((((entries d).map fun e => slug e.title).take i).count (slug e.title)))) := by
  have hfront := plain_frontLines htexts hparagraphs
  have hback := lists_backLines hnow htexts hparagraphs
  rw [documentPage, addContents_documentLines hnow htexts hparagraphs]
  by_cases hnone : entries d = []
  · rw [if_pos hnone, if_pos hnone, backLines, sectionLines_of_no_entries hnone]
    have hplain : ∀ line ∈ frontLines d ++ ([[]] ++ [] :: ([] ++ ["---".toList, [], lastLine now])),
        IsLine line ∧ IsPlain line := by
      have hempty : IsLine [] ∧ IsPlain [] := ⟨isLine_nil, isPlain_nil⟩
      refine List.forall_mem_append.mpr ⟨hfront, ?_⟩
      simp only [List.nil_append, List.cons_append, List.forall_mem_cons]
      exact ⟨hempty, hempty, plain_rule, hempty, plain_lastLine hnow, List.forall_mem_nil _⟩
    refine contentsBlock_lint_none fun line hline => ?_
    rw [lines_joinLines_isLine (by simp) fun line hline => (hplain line hline).1] at hline
    exact (hplain line hline).2
  · rw [if_neg hnone, if_neg hnone]
    have hentries := entryLines_isItem fun e he => (entries_showable htexts e he).1
    have hlines : ∀ line ∈ frontLines d ++ (contentsTitle :: [] :: entryLines (entries d) ++ [] :: backLines now d),
        IsLine line := by
      simp only [List.forall_mem_append, List.forall_mem_cons]
      exact ⟨fun line hline => (hfront line hline).1,
        ⟨by decide, isLine_nil, fun line hline => (hentries line hline).2⟩, isLine_nil, hback.isLine⟩
    obtain ⟨front, hconcat⟩ := frontLines_concat d
    have hpage := lines_joinLines_isLine (by simp) hlines
    have hshape : contentsTitle :: [] :: entryLines (entries d) ++ [] :: backLines now d =
        contentsTitle :: [] :: (entryLines (entries d) ++ [[]]) ++ backLines now d := by
      simp only [List.append_assoc, List.cons_append, List.nil_append]
    rw [hshape, hconcat] at hpage
    rw [hshape, hconcat]
    rw [hconcat] at hfront
    exact contentsBlock_lint hpage (fun line hline => (hfront line (List.mem_append_left _ hline)).2)
      (by simpa using hnone) fun line hline => (hentries line hline).1

end

/-- A document with two functions of one name, a class with a method, an export and notes on its use. -/
def fewSections : Document where
  outline := { path := "job.py".toList, language := "python".toList, source := [] }
  title := "Jobs".toList
  functions := [{ decl := { name := "run".toList } },
    { decl := { name := "run".toList, parameters := [{ name := "job".toList }] }
      description := some "Runs it.".toList }]
  types := [{ decl := { name := "Job".toList }, methods := [{ decl := { name := "start".toList } }] }]
  exports := [{ decl := { name := "run".toList, kind := "function".toList } }]
  usage := some "import job".toList

theorem contentsBlock_fewSections : IsLine "2024-01-02T03:04:05+00:00".toList ∧
    (∀ t ∈ fewSections.texts, IsShowable t) ∧ (∀ t ∈ fewSections.paragraphs, IsParagraph t) ∧
    contentsBlock? (documentPage "2024-01-02T03:04:05+00:00".toList fewSections) = some (["- [Functions](#functions)",
      "  - [run](#run)", "  - [run](#run-1)", "- [Classes](#classes)", "  - [Job](#job)", "- [Exports](#exports)",
      "- [Usage](#usage)"].map String.toList) := by
  have hnow : IsLine "2024-01-02T03:04:05+00:00".toList := by decide
  have htexts : ∀ t ∈ fewSections.texts, IsShowable t := by decide
  have hparagraphs : ∀ t ∈ fewSections.paragraphs, IsParagraph t := by
    unfold IsParagraph
    decide
  refine ⟨hnow, htexts, hparagraphs, (contentsBlock_documentPage hnow htexts hparagraphs).trans ?_⟩
  decide +kernel

end Markdown

end SourceDoc
