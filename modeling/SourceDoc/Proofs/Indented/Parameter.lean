import SourceDoc.Indented.Symbol
import SourceDoc.Page.Basic
import SourceDoc.Proofs.Indented.Header

/-!
# Parameters read back

The list of parameters in a signature is split at its commas into the parameters (`splitTopLevel_listed`), and each is
read again with its name, its type and its initial value (`parameterOf_parameterText`).  All scanners find the same
places in it: its texts are plain, so brackets are closed where they are open, and no separator stands outside them.

With line breaks in it, the list is the parts of a header (`listParts`), none of which starts a block
(`harmless_listParts`).
-/

namespace SourceDoc.Indented

open Text

/-- The parameter has an identifier for its name, perhaps after one star or two, and plain texts for its type and its
initial value. -/
structure IsPlainParameter (p : Parameter) : Prop where
  named : ∃ stars name, p.name = stars ++ name ∧ (stars = [] ∨ stars = ['*'] ∨ stars = ['*', '*']) ∧
    isIdentifier name = true
  type : ∀ t ∈ p.type, IsPlain t
  initial : ∀ t ∈ p.initial, IsPlain t
  isOptional : p.isOptional = p.initial.isSome

/-! ## Lists of plain pieces -/

/-- The text can stand in a list: it is solid, its brackets are balanced, no comma stands outside them, and it starts
no block, whatever follows it that is no word. -/
structure IsItem (t : Text) : Prop where
  solid : IsSolid t
  balanced : openAfter [','] 0 t = some 0
  harmless : ∀ rest, (∀ c ∈ (stripLeft rest).head?, isWord c = false) → IsHarmless (t ++ rest)

/-- A list of items, each after its blanks. -/
def IsItems (pieces : List (Text × Text)) : Prop := ∀ piece ∈ pieces, isBlankText piece.1 = true ∧ IsItem piece.2

/-- The list of the pieces, each after its blanks. -/
def listed (pieces : List (Text × Text)) : Text := joinWith [','] (pieces.map fun (gap, t) => gap ++ t)

theorem listed_cons (piece : Text × Text) {pieces : List (Text × Text)} (h : pieces ≠ []) :
    listed (piece :: pieces) = piece.1 ++ piece.2 ++ ',' :: listed pieces := by
  unfold listed
  rw [List.map_cons, joinWith_cons _ _ _ (by simpa using h)]
  simp only [List.append_assoc, List.cons_append, List.nil_append]

section

variable {pieces : List (Text × Text)}

theorem openAfter_item {gap t : Text} (hgap : isBlankText gap = true) (ht : IsItem t) :
    openAfter [] 0 (gap ++ t) = some 0 ∧ openAfter [','] 0 (gap ++ t) = some 0 := by
  rw [openAfter_append, openAfter_append, openAfter_blank rfl hgap, openAfter_blank (by decide) hgap]
  exact ⟨openAfter_mono (by simp) ht.balanced, ht.balanced⟩

theorem openAfter_listed (h : IsItems pieces) : openAfter [] 0 (listed pieces) = some 0 := by
  induction pieces with
  | nil => rfl
  | cons piece pieces ih =>
    obtain ⟨⟨hgap, ht⟩, hrest⟩ := List.forall_mem_cons.mp h
    cases pieces with
    | nil => exact (openAfter_item hgap ht).1
    | cons piece' pieces =>
      rw [listed_cons _ (List.cons_ne_nil _ _), openAfter_append, (openAfter_item hgap ht).1]
      exact ih hrest

theorem not_mark_blank {gap : Text} (hgap : isBlankText gap = true) (hline : '\n' ∉ gap) : ∀ c ∈ gap, c ∉ marks :=
  fun c hc => not_mark_of_isBlank (List.all_eq_true.mp hgap c hc) fun h => hline (h ▸ hc)

theorem not_quote_listed (h : IsItems pieces) (hlines : ∀ piece ∈ pieces, '\n' ∉ piece.1) {closing : Text}
    (hclosing : isBlankText closing = true) (hline : '\n' ∉ closing) :
    ∀ c ∈ listed pieces ++ closing, isTextQuote c = false := by
  have hquote : ∀ {c : Char}, c ∉ marks → isTextQuote c = false := by
    intro c hc
    rw [← Bool.not_eq_true]
    intro hq
    simp only [isTextQuote, Bool.or_eq_true, decide_eq_true_eq] at hq
    rcases hq with rfl | rfl <;> exact hc (by decide)
  refine List.forall_mem_append.mpr ⟨?_, fun c hc => hquote (not_mark_blank hclosing hline c hc)⟩
  induction pieces with
  | nil => simp [listed, joinWith]
  | cons piece pieces ih =>
    obtain ⟨⟨hgap, ht⟩, hrest⟩ := List.forall_mem_cons.mp h
    obtain ⟨hgapLine, hlines⟩ := List.forall_mem_cons.mp hlines
    have hfirst : ∀ c ∈ piece.1 ++ piece.2, isTextQuote c = false := fun c hc =>
      hquote (List.forall_mem_append.mpr ⟨not_mark_blank hgap hgapLine, ht.solid.bare⟩ c hc)
    cases pieces with
    | nil => exact hfirst
    | cons piece' pieces =>
      rw [listed_cons _ (List.cons_ne_nil _ _)]
      exact List.forall_mem_append.mpr ⟨hfirst, List.forall_mem_cons.mpr ⟨rfl, ih hrest hlines⟩⟩

/-- **A list is split into its items.** -/
theorem splitTopLevel_listed (h : IsItems pieces) {closing : Text} (hclosing : isBlankText closing = true) :
    splitTopLevel ',' (listed pieces ++ closing) = pieces.map Prod.snd := by
  have hcomma : ',' ∈ [','] := List.mem_singleton_self ','
  unfold splitTopLevel
  induction pieces with
  | nil =>
    have hbalanced : openAfter [','] 0 closing = some 0 := openAfter_blank (by decide) hclosing
    have hpieces := piecesFrom_end hcomma (unquoted_of_blank hclosing) hbalanced
    show (piecesFrom ',' {} closing).filterMap stripped? = []
    rw [hpieces]
    simp [stripped?, (strip_eq_nil_iff closing).mpr hclosing]
  | cons piece pieces ih =>
    obtain ⟨gap, t⟩ := piece
    obtain ⟨⟨hgap, ht⟩, hrest⟩ := List.forall_mem_cons.mp h
    have hunquoted : ∀ c ∈ gap ++ t, isQuote c = false :=
      List.forall_mem_append.mpr ⟨unquoted_of_blank hgap, unquoted_of_bare ht.solid.bare⟩
    have hstrip : strip (gap ++ t) = t := by rw [strip_blank_append t hgap, ht.solid.stripped]
    cases pieces with
    | nil =>
      have hall : ∀ c ∈ gap ++ t ++ closing, isQuote c = false :=
        List.forall_mem_append.mpr ⟨hunquoted, unquoted_of_blank hclosing⟩
      have hbalanced : openAfter [','] 0 (gap ++ t ++ closing) = some 0 := by
        rw [openAfter_append, (openAfter_item hgap ht).2]
        exact openAfter_blank (by decide) hclosing
      have hlast : stripped? (gap ++ t ++ closing) = some t :=
        stripped_of_strip (by rw [strip_append_blank _ hclosing, hstrip]) ht.solid.ne_nil
      show (piecesFrom ',' {} (gap ++ t ++ closing)).filterMap stripped? = [t]
      rw [piecesFrom_end hcomma hall hbalanced, List.filterMap_cons, hlast]
      rfl
    | cons piece' pieces =>
      have hcut := piecesFrom_separator hcomma rfl hunquoted (openAfter_item hgap ht).2
        (listed (piece' :: pieces) ++ closing)
      rw [listed_cons _ (List.cons_ne_nil _ _), List.append_assoc, List.cons_append]
      show (piecesFrom ',' {} (gap ++ t ++ _)).filterMap stripped? = _
      rw [hcut, List.filterMap_cons, stripped_of_strip hstrip ht.solid.ne_nil, ih hrest]
      rfl

end

/-! ## The header of a function as parts -/

/-- The parts of a list, with its commas, and the part that closes it. -/
def listParts (closing last : Text) : List (Text × Text) → List (Text × Text)
  | [] => [(closing, last)]
  | [piece] => [piece, (closing, last)]
  | piece :: pieces => (piece.1, piece.2 ++ [',']) :: listParts closing last pieces

section

variable {pieces : List (Text × Text)} {closing last : Text}

@[simp] theorem listParts_nil (closing last : Text) : listParts closing last [] = [(closing, last)] := rfl

@[simp] theorem listParts_singleton (closing last : Text) (piece : Text × Text) :
    listParts closing last [piece] = [piece, (closing, last)] := rfl

theorem listParts_cons (closing last : Text) (piece : Text × Text) (h : pieces ≠ []) :
    listParts closing last (piece :: pieces) = (piece.1, piece.2 ++ [',']) :: listParts closing last pieces := by
  obtain ⟨piece', pieces, rfl⟩ := List.exists_cons_of_ne_nil h
  rfl

theorem assemble_listParts (closing last : Text) (pieces : List (Text × Text)) :
    assemble (listParts closing last pieces) = listed pieces ++ closing ++ last := by
  induction pieces using listParts.induct with
  | case1 => simp [assemble, listed, joinWith]
  | case2 piece => simp [assemble, listed, joinWith]
  | case3 piece pieces hne ih =>
    rw [listParts_cons closing last piece hne, assemble_cons, ih, listed_cons _ hne]
    simp only [List.append_assoc, List.cons_append, List.nil_append]

theorem map_flatPart_listParts (closing last : Text) (pieces : List (Text × Text)) :
    (listParts closing last pieces).map flatPart = listParts (flatGap closing) last (pieces.map flatPart) := by
  induction pieces using listParts.induct with
  | case1 => rfl
  | case2 piece => rfl
  | case3 piece pieces hne ih =>
    have hmore : pieces.map flatPart ≠ [] := by simpa using hne
    rw [listParts_cons closing last piece hne, List.map_cons, ih, List.map_cons, listParts_cons _ _ _ hmore]
    rfl

theorem breaks_listParts (closing last : Text) (pieces : List (Text × Text)) :
    breaks (listParts closing last pieces) = breaks pieces + closing.count '\n' := by
  unfold breaks
  induction pieces using listParts.induct with
  | case1 => simp
  | case2 piece => simp
  | case3 piece pieces hne ih =>
    rw [listParts_cons closing last piece hne, List.flatMap_cons, List.count_append, ih, List.flatMap_cons,
      List.count_append, Nat.add_assoc]

theorem isPart_listParts (h : IsItems pieces) (hclosing : isBlankText closing = true) (hlast : IsSolid last) :
    ∀ part ∈ listParts closing last pieces, IsPart part := by
  have hcomma : IsSolid [','] := by decide
  induction pieces using listParts.induct with
  | case1 => exact List.forall_mem_singleton.mpr ⟨hclosing, hlast⟩
  | case2 piece =>
    obtain ⟨⟨hgap, ht⟩, -⟩ := List.forall_mem_cons.mp h
    exact List.forall_mem_cons.mpr ⟨⟨hgap, ht.solid⟩, List.forall_mem_singleton.mpr ⟨hclosing, hlast⟩⟩
  | case3 piece pieces hne ih =>
    obtain ⟨⟨hgap, ht⟩, hrest⟩ := List.forall_mem_cons.mp h
    have hsolid := isSolid_append ht.solid (show isBlankText [] = true from rfl) List.not_mem_nil hcomma
    rw [List.append_nil] at hsolid
    rw [listParts_cons closing last piece hne]
    exact List.forall_mem_cons.mpr ⟨⟨hgap, hsolid⟩, ih hrest⟩

/-- No part of a list starts a block, with what follows it. -/
theorem harmless_listParts (h : IsItems pieces) (hclosing : isBlankText closing = true) (result ending : Text) :
    ∀ part rest, part :: rest <:+ listParts closing (')' :: result) pieces →
      IsHarmless (part.2 ++ assemble rest ++ ending) := by
  have hclose : ∀ part rest, part :: rest <:+ [(closing, ')' :: result)] →
      IsHarmless (part.2 ++ assemble rest ++ ending) := by
    intro part rest hsuffix
    rcases List.suffix_cons_iff.mp hsuffix with he | he
    · cases he
      exact ⟨[], _, rfl, by simp, fun c hc => by cases hc; rfl⟩
    · exact absurd (List.suffix_nil.mp he) (List.cons_ne_nil _ _)
  induction pieces using listParts.induct with
  | case1 => exact hclose
  | case2 piece =>
    obtain ⟨⟨-, ht⟩, -⟩ := List.forall_mem_cons.mp h
    intro part rest hsuffix
    rcases List.suffix_cons_iff.mp hsuffix with he | he
    · cases he
      rw [List.append_assoc]
      refine ht.harmless _ fun c hc => ?_
      rw [assemble_cons, List.append_assoc, List.append_assoc, stripLeft_blank_append _ hclosing] at hc
      cases hc
      rfl
    · exact hclose part rest he
  | case3 piece pieces hne ih =>
    obtain ⟨⟨-, ht⟩, hrest⟩ := List.forall_mem_cons.mp h
    intro part rest hsuffix
    rw [listParts_cons _ _ piece hne] at hsuffix
    rcases List.suffix_cons_iff.mp hsuffix with he | he
    · cases he
      rw [List.append_assoc, List.append_assoc]
      exact ht.harmless _ fun c hc => by cases hc; rfl
    · exact ih hrest part rest he

end

/-! ## Words and brackets -/

/-- A word character is no bracket, no separator and no mark. -/
theorem plain_of_isWord {c : Char} (h : isWord c = true) :
    isOpening c = false ∧ isClosing c = false ∧ c ∉ [',', ':', '='] ∧ c ∉ marks := by
  have hnot : ∀ {chars : List Char}, chars.all (!isWord ·) = true → c ∉ chars := by
    intro chars hchars hmem
    have := List.all_eq_true.mp hchars c hmem
    rw [h] at this
    cases this
  refine ⟨?_, ?_, hnot (by decide), hnot (by decide)⟩
  · have : c ∉ ['(', '[', '\x7b'] := hnot (by decide)
    simpa [isOpening, and_assoc] using this
  · have : c ∉ [')', ']', '\x7d'] := hnot (by decide)
    simpa [isClosing, and_assoc] using this

/-- The name of a parameter is solid and has neither brackets nor separators. -/
structure IsName (t : Text) : Prop where
  solid : IsSolid t
  flat : ∀ c ∈ t, isOpening c = false ∧ isClosing c = false ∧ c ∉ [',', ':', '=']
  word : ∃ c ∈ t, isWord c = true
  harmless : ∀ rest, (∀ c ∈ (stripLeft rest).head?, isWord c = false) → IsHarmless (t ++ rest)

theorem isName_identifier {name : Text} (h : isIdentifier name = true) : IsName name := by
  have hword := isWord_of_isIdentifier h
  obtain ⟨c, word, rfl, -, -⟩ := identifier_cases h
  have hblank : ∀ d ∈ c :: word, isBlank d = false := by
    intro d hd
    rw [← Bool.not_eq_true]
    intro hb
    have := hword d hd
    rw [not_isWord_of_isBlank hb] at this
    cases this
  refine ⟨⟨List.cons_ne_nil _ _, ?_, fun d hd => (plain_of_isWord (hword d hd)).2.2.2⟩, ?_,
    ⟨c, List.mem_cons_self, hword c List.mem_cons_self⟩, fun rest hrest => ⟨_, rest, rfl, hword, hrest⟩⟩
  · rw [strip_eq_self_iff]
    exact ⟨fun d hd => hblank d (List.mem_of_head? hd), fun d hd => hblank d (List.mem_of_getLast? hd)⟩
  · intro d hd
    obtain ⟨ho, hc, hs, -⟩ := plain_of_isWord (hword d hd)
    exact ⟨ho, hc, hs⟩

theorem isName_star {name : Text} (h : IsName name) : IsName ('*' :: name) := by
  obtain ⟨c, hc, hword⟩ := h.word
  have hstar : IsSolid ['*'] := by decide
  refine ⟨?_, List.forall_mem_cons.mpr ⟨by decide, h.flat⟩, ⟨c, List.mem_cons_of_mem _ hc, hword⟩, fun rest _ =>
    ⟨[], _, rfl, by simp, fun c hc => by cases hc; rfl⟩⟩
  exact isSolid_append hstar (show isBlankText [] = true from rfl) List.not_mem_nil h.solid

theorem IsPlainParameter.isName {p : Parameter} (h : IsPlainParameter p) : IsName p.name := by
  obtain ⟨stars, name, hname, hstars, hid⟩ := h.named
  rw [hname]
  rcases hstars with rfl | rfl | rfl
  · exact isName_identifier hid
  · exact isName_star (isName_identifier hid)
  · exact isName_star (isName_star (isName_identifier hid))

theorem IsName.openAfter {t : Text} (h : IsName t) (separators : List Char)
    (hs : ∀ c ∈ separators, c ∈ [',', ':', '=']) (depth : Nat) : openAfter separators depth t = some depth :=
  openAfter_of_flat fun c hc => ⟨(h.flat c hc).1, (h.flat c hc).2.1, fun hmem => (h.flat c hc).2.2 (hs c hmem)⟩

/-! ## Parameters -/

/-- The type of a parameter as it is written. -/
def typeText (unknown : Text) (p : Parameter) : Text := ((telling? unknown p.type).map (":".toList ++ ' ' :: ·)).getD []

/-- The initial value of a parameter as it is written. -/
def initialText (p : Parameter) : Text := (p.initial.map (" = ".toList ++ ·)).getD []

theorem telling_eq_some {unknown : Text} {type : Option Text} {t : Text} (h : telling? unknown type = some t) :
    type = some t := by
  unfold telling? present? at h
  obtain ⟨h, -⟩ := Option.filter_eq_some_iff.mp h
  exact (Option.filter_eq_some_iff.mp h).1

section

variable {unknown : Text} {p : Parameter}

/-- With its type, a parameter is solid, and balanced for the separators that do not set off its type. -/
theorem typed_cases (h : IsPlainParameter p) (unknown : Text) :
    IsSolid (p.name ++ typeText unknown p) ∧ openAfter [',', '='] 0 (p.name ++ typeText unknown p) = some 0 := by
  have hname := h.isName.openAfter [',', '='] (by simp) 0
  unfold typeText
  cases ht : telling? unknown p.type with
  | none =>
    simp only [Option.map_none, Option.getD_none, List.append_nil]
    exact ⟨h.isName.solid, hname⟩
  | some t =>
    have hplain := h.type t (telling_eq_some ht)
    have hcolon : IsSolid [':'] := by decide
    have hfirst := isSolid_append h.isName.solid (show isBlankText [] = true from rfl) List.not_mem_nil hcolon
    have hall := isSolid_append hfirst (show isBlankText [' '] = true by decide) (by decide) hplain.toIsSolid
    simp only [Option.map_some, Option.getD_some]
    refine ⟨by simpa using hall, ?_⟩
    have htype : openAfter [',', '='] 0 t = some 0 := openAfter_mono (by simp) hplain.balanced
    rw [openAfter_append, hname]
    exact htype

/-- **A parameter is an item of a list.** -/
theorem isItem_parameterText (h : IsPlainParameter p) (unknown : Text) : IsItem (parameterText unknown p) := by
  obtain ⟨hsolid, hbalanced⟩ := typed_cases h unknown
  have htext : parameterText unknown p = p.name ++ typeText unknown p ++ initialText p := rfl
  have hcomma : openAfter [','] 0 (p.name ++ typeText unknown p) = some 0 := openAfter_mono (by simp) hbalanced
  constructor
  case solid =>
    rw [htext]
    unfold initialText
    cases hv : p.initial with
    | none => simpa using hsolid
    | some v =>
      have hequals : IsSolid ['='] := by decide
      have hblank : isBlankText [' '] = true := by decide
      have hall := isSolid_append (isSolid_append hsolid hblank (by decide) hequals) hblank (by decide)
        (h.initial v hv).toIsSolid
      simpa using hall
  case balanced =>
    rw [htext, openAfter_append, hcomma]
    unfold initialText
    cases hv : p.initial with
    | none => rfl
    | some v =>
      have hvalue : openAfter [','] 0 v = some 0 := openAfter_mono (by simp) (h.initial v hv).balanced
      exact hvalue
  case harmless =>
    intro rest hrest
    rw [htext, List.append_assoc, List.append_assoc]
    refine h.isName.harmless _ ?_
    unfold typeText initialText
    cases telling? unknown p.type with
    | none =>
      cases p.initial with
      | none => exact hrest
      | some v => exact fun c hc => by cases hc; rfl
    | some t => exact fun c hc => by cases hc; rfl

theorem splitOnce_typed (h : IsPlainParameter p) (unknown : Text) {blank : Text} (hblank : isBlankText blank = true)
    (hline : '\n' ∉ blank) :
    ∃ name type, splitOnceTopLevel ':' (p.name ++ typeText unknown p ++ blank) = (name, type) ∧ strip name = p.name ∧
      type.bind stripped? = telling? unknown p.type := by
  have hcolon : ':' ∈ [':'] := List.mem_singleton_self ':'
  have hname := h.isName.openAfter [':'] (by simp) 0
  unfold typeText
  cases ht : telling? unknown p.type with
  | none =>
    have hbare : ∀ c ∈ p.name ++ blank, c ∉ marks :=
      List.forall_mem_append.mpr ⟨h.isName.solid.bare, not_mark_blank hblank hline⟩
    have hbalanced : openAfter [':'] 0 (p.name ++ blank) = some 0 := by
      rw [openAfter_append, hname]
      exact openAfter_blank (by decide) hblank
    refine ⟨p.name ++ blank, none, ?_, ?_, rfl⟩
    · simp only [Option.map_none, Option.getD_none, List.append_nil]
      exact splitOnce_none hcolon (unquoted_of_bare hbare) hbalanced
    · rw [strip_append_blank _ hblank, h.isName.solid.stripped]
  | some t =>
    have hplain := h.type t (telling_eq_some ht)
    have hstrip : strip (' ' :: t ++ blank) = t := by
      rw [strip_append_blank _ hblank]
      exact (strip_blank_append (s := [' ']) t (by decide)).trans hplain.stripped
    refine ⟨p.name, some (' ' :: t ++ blank), ?_, h.isName.solid.stripped, stripped_of_strip hstrip hplain.ne_nil⟩
    have := splitOnce_separator hcolon rfl (unquoted_of_bare h.isName.solid.bare) hname (' ' :: t ++ blank)
    simpa using this

/-- **A parameter reads back,** but for a type that says nothing. -/
theorem parameterOf_parameterText (h : IsPlainParameter p) (unknown : Text) :
    parameterOf (parameterText unknown p) = { p with type := telling? unknown p.type } := by
  obtain ⟨hsolid, hbalanced⟩ := typed_cases h unknown
  have hequals : '=' ∈ [',', '='] := by decide
  have htext : parameterText unknown p = p.name ++ typeText unknown p ++ initialText p := rfl
  have hoptional := h.isOptional
  unfold parameterOf
  rw [htext]
  unfold initialText
  cases hv : p.initial with
  | none =>
    rw [hv] at hoptional
    obtain ⟨name, type, hsplit, hname, htype⟩ :=
      splitOnce_typed h unknown (show isBlankText [] = true from rfl) List.not_mem_nil
    rw [List.append_nil] at hsplit
    simp only [Option.map_none, Option.getD_none, List.append_nil, splitOnce_none hequals (unquoted_of_bare hsolid.bare) hbalanced,
      hsplit, hname, htype]
    rw [← hoptional]
    rfl
  | some v =>
    rw [hv] at hoptional
    have hplain := h.initial v hv
    have hblank : isBlankText [' '] = true := by decide
    obtain ⟨name, type, hsplit, hname, htype⟩ := splitOnce_typed h unknown hblank (by decide)
    have hbare : ∀ c ∈ p.name ++ typeText unknown p ++ [' '], c ∉ marks :=
      List.forall_mem_append.mpr ⟨hsolid.bare, not_mark_blank hblank (by decide)⟩
    have hspace : openAfter [',', '='] 0 (p.name ++ typeText unknown p ++ [' ']) = some 0 := by
      rw [openAfter_append, hbalanced]
      rfl
    have hcut := splitOnce_separator hequals rfl (unquoted_of_bare hbare) hspace (' ' :: v)
    have hwhole : p.name ++ typeText unknown p ++ (" = ".toList ++ v) =
        p.name ++ typeText unknown p ++ [' '] ++ '=' :: (' ' :: v) := by
      rw [List.append_assoc (p.name ++ typeText unknown p)]
      rfl
    have hvalue : stripped? (' ' :: v) = some v :=
      stripped_of_strip ((strip_blank_append (s := [' ']) v hblank).trans hplain.stripped) hplain.ne_nil
    simp only [Option.map_some, Option.getD_some, hwhole, hcut, hsplit, hname, htype, Option.bind_some, hvalue]
    rw [hoptional]
    rfl

end

end SourceDoc.Indented
