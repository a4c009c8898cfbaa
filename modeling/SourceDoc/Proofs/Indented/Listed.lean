import Mathlib.Data.List.Basic
import SourceDoc.Proofs.Indented.Bracketed
import SourceDoc.Proofs.Indented.Edge

/-!
# Imports and exports in any layout

The names of an import and the exported names are listed in brackets, in any layout: over several lines, with comments,
with or without a comma behind the last item.  The layout does not matter (`edges_of_form`):

    importsOf (above ++ form ++ below) = importsOf above ++ importOf source items (above.length + 1) ::
      (importsOf below).map (Import.shift (above.length + form.length))

where `form` is any of the ways to write the import of the items (`IsImportOf`), the one without brackets among them;
and so for the exports (`IsExportOf`).  Brackets in comments are not looked at, so what is read ahead ends on the line
with the closing bracket, and the lines below are read as they are.
-/

namespace SourceDoc.Indented

open Text

/-! ## Names -/

/-- The characters that have a meaning in a list or around it. -/
def listMarks : List Char := ['*', '#', ',', '\\', '"', '\'', '\x60', '(', '[', '\x7b', ')', ']', '\x7d']

def isNameChar (c : Char) : Bool := !isBlank c && decide (c ∉ listMarks)

/-- The text can be a name in a list, as any identifier can. -/
structure IsListName (name : Text) : Prop where
  ne_nil : name ≠ []
  plain : ∀ c ∈ name, isNameChar c = true

section

variable {name : Text}

theorem isListName_identifier (h : isIdentifier name = true) : IsListName name where
  ne_nil := by
    rintro rfl
    cases h
  plain := by
    intro c hc
    have hword := isWord_of_isIdentifier h c hc
    have hmarks : c ∉ listMarks := fun hmem => by
      have hnone : ∀ d ∈ listMarks, isWord d = false := by decide
      rw [hnone c hmem] at hword
      cases hword
    unfold isNameChar
    rw [not_isBlank_of_isWord hword, decide_eq_true hmarks]
    rfl

theorem IsListName.not_mem (h : IsListName name) {c : Char} (hc : isNameChar c = false) : c ∉ name := fun hmem => by
  rw [h.plain c hmem] at hc
  cases hc

theorem IsListName.ne_of_mem (h : IsListName name) {c d : Char} (hc : c ∈ name) (hd : isNameChar d = false) : c ≠ d :=
  fun he => h.not_mem hd (he ▸ hc)

theorem isBlank_nameChar {c : Char} (hc : isNameChar c = true) : isBlank c = false := by
  unfold isNameChar at hc
  cases h : isBlank c with
  | false => rfl
  | true =>
    rw [h] at hc
    cases hc

theorem IsListName.isToken (h : IsListName name) : IsToken name where
  ne_nil := h.ne_nil
  stripped := (strip_eq_self_iff name).mpr ⟨fun c hc => isBlank_nameChar (h.plain c (List.mem_of_head? hc)),
    fun c hc => isBlank_nameChar (h.plain c (List.mem_of_getLast? hc))⟩
  line := h.not_mem (by decide)
  code := h.not_mem (by decide)

end

/-! ## Items -/

/-- An item of an import: a name, and the name that it has here if this is another. -/
structure ImportItem where
  name : Text
  alias? : Option Text
  deriving DecidableEq, Repr

namespace ImportItem

/-- The item as it is written. -/
def text : ImportItem → Text
  | ⟨name, none⟩ => name
  | ⟨name, some other⟩ => name ++ (" as ".toList ++ other)

/-- The name that the item introduces. -/
def binding : ImportItem → Binding
  | ⟨name, none⟩ => { name := name }
  | ⟨name, some other⟩ => { name := other, imported := some name }

/-- Both names can stand in a list. -/
structure IsNamed (i : ImportItem) : Prop where
  name : IsListName i.name
  other : ∀ t ∈ i.alias?, IsListName t

variable {i : ImportItem}

theorem mem_text (h : i.IsNamed) {c : Char} (hc : c ∈ i.text) : isNameChar c = true ∨ c = ' ' := by
  have hname := h.name.plain
  obtain ⟨name, _ | other⟩ := i
  · exact .inl (hname c hc)
  · have has : ∀ d ∈ " as ".toList, isNameChar d = true ∨ d = ' ' := by decide
    rcases List.mem_append.mp hc with hc | hc
    · exact .inl (hname c hc)
    · exact (List.mem_append.mp hc).elim (has c) fun hc => .inl ((h.other other rfl).plain c hc)

theorem not_mem_text (h : i.IsNamed) {c : Char} (hmark : isNameChar c = false) (hspace : c ≠ ' ') : c ∉ i.text := by
  intro hmem
  rcases mem_text h hmem with hc | he
  · rw [hc] at hmark
    cases hmark
  · exact hspace he

theorem isToken_text (h : i.IsNamed) : IsToken i.text := by
  have hname := h.name.isToken
  obtain ⟨name, _ | other⟩ := i
  · exact hname
  · have has : IsToken ['a', 's'] := ⟨by decide, by decide, by decide, by decide⟩
    have hblank : isBlankText [' '] = true := rfl
    have hall := isToken_append (isToken_append hname hblank (by decide) has) hblank (by decide)
      (h.other other rfl).isToken
    rw [List.append_assoc, List.append_assoc, List.append_assoc] at hall
    exact hall

theorem isListItem_text (h : i.IsNamed) : IsListItem i.text where
  toIsToken := isToken_text h
  whole := not_mem_text h (by decide) (by decide)
  closed := by
    refine foldl_inert (fun c hc => ?_) rfl
    rcases mem_text h hc with hword | rfl
    · exact isInert_of_class (by decide) hword
    · decide

/-- **An item is read again.** -/
theorem bindingOf_text (h : i.IsNamed) : bindingOf "named".toList i.text = i.binding := by
  have hstar : i.text ≠ ['*'] := fun he => by
    have : '*' ∉ i.text := not_mem_text h (by decide) (by decide)
    rw [he] at this
    exact this List.mem_cons_self
  have hbreak := breakOn_cons_append (h.name.not_mem (c := ' ') (by decide)) "as ".toList
  have hname := h.name.isToken.stripped
  -- The name has no blanks, so the first ` as ` is the one between the names.
  unfold bindingOf
  rw [if_neg hstar]
  obtain ⟨name, _ | other⟩ := i
  · have hnone : breakOn? " as ".toList name = none := by
      have := hbreak []
      rwa [List.append_nil] at this
    simp only [text, hnone]
    rfl
  · have hsome : breakOn? " as ".toList (name ++ (" as ".toList ++ other)) = some (name ++ [], other) :=
      hbreak (" as ".toList ++ other)
    rw [List.append_nil] at hsome
    have hother := (h.other other rfl).isToken.stripped
    simp only [text, hsome, hname, hother]
    rfl

end ImportItem

/-- An item of a list of exports: a name in quotes. -/
structure ExportItem where
  name : Text
  quote : Char
  deriving DecidableEq, Repr

namespace ExportItem

/-- The item as it is written. -/
def text (i : ExportItem) : Text := i.quote :: (i.name ++ [i.quote])

/-- The name can stand in a list, and the quote is a single or a double one. -/
structure IsNamed (i : ExportItem) : Prop where
  name : IsListName i.name
  quote : i.quote = '\'' ∨ i.quote = '"'

variable {i : ExportItem}

theorem isQuote_quote (h : i.IsNamed) : isQuote i.quote = true := by
  rcases h.quote with hq | hq <;> rw [hq] <;> rfl

theorem not_mem_text (h : i.IsNamed) {c : Char} (hword : isNameChar c = false) (hquote : isQuote c = false) :
    c ∉ i.text := by
  have hc : c ≠ i.quote := by
    rintro rfl
    rw [isQuote_quote h] at hquote
    cases hquote
  simp [text, hc, h.name.not_mem hword]

theorem isListItem_text (h : i.IsNamed) : IsListItem i.text where
  ne_nil := List.cons_ne_nil _ _
  stripped := by
    have hquote : IsToken [i.quote] := by
      rcases h.quote with hq | hq <;> rw [hq] <;> constructor <;> decide
    exact strip_append_self hquote.stripped hquote.ne_nil hquote.stripped hquote.ne_nil i.name
  line := not_mem_text h (by decide) (by decide)
  code := not_mem_text h (by decide) (by decide)
  whole := not_mem_text h (by decide) (by decide)
  closed := by
    have hword : isNameChar i.quote = false := by
      rcases h.quote with hq | hq <;> rw [hq] <;> rfl
    exact foldl_quoted (isQuote_quote h) fun c hc => ⟨h.name.ne_of_mem hc (by decide), h.name.ne_of_mem hc hword⟩

/-- The quotes are taken off. -/
theorem trim_text (h : i.IsNamed) : trim (fun c => c = '\'' || c = '"') i.text = i.name := by
  have hquote : (decide (i.quote = '\'') || decide (i.quote = '"')) = true := by
    rcases h.quote with hq | hq <;> rw [hq] <;> rfl
  refine trim_enclosed hquote hquote fun c hc => ?_
  rw [decide_eq_false (h.name.ne_of_mem hc (by decide)), decide_eq_false (h.name.ne_of_mem hc (by decide))]
  rfl

end ExportItem

/-! ## Imports -/

/-- What stands in front of the names of an import. -/
def fromText (source : Text) : Text := "from ".toList ++ source ++ " import ".toList

/-- The text can be the name of a module: it has neither blanks nor the sign of a comment. -/
structure IsModuleName (source : Text) : Prop where
  ne_nil : source ≠ []
  unbroken : ∀ c ∈ source, isBlank c = false
  code : '#' ∉ source

/-- The import of the items. -/
def importOf (source : Text) (items : List ImportItem) (line : Int) : Import :=
  { source := source, bindings := items.map ImportItem.binding, startLine := line }

/-- The lines are an import of the items: without brackets on one line, or as a list in brackets. -/
inductive IsImportOf (source : Text) (items : List ImportItem) : List Text → Prop where
  | oneLine (hne : items ≠ []) :
    IsImportOf source items [fromText source ++ joinWith ", ".toList (items.map ImportItem.text)]
  | listed {l : ListLayout} (hl : l.IsWritten) (hitems : l.items = items.map ImportItem.text) :
    IsImportOf source items (lines (fromText source ++ l.text '(' ')'))

section

variable {source names : Text} {items : List ImportItem}

theorem isToken_module (h : IsModuleName source) : IsToken source where
  ne_nil := h.ne_nil
  stripped := (strip_eq_self_iff source).mpr
    ⟨fun c hc => h.unbroken c (List.mem_of_head? hc), fun c hc => h.unbroken c (List.mem_of_getLast? hc)⟩
  line := fun hmem => absurd (h.unbroken _ hmem) (by decide)
  code := h.code

theorem isToken_fromText (h : IsModuleName source) {c : Char} (hc : IsToken [c]) :
    IsToken (fromText source ++ [c]) := by
  have hblank : isBlankText [' '] = true := rfl
  have hfrom : IsToken "from".toList := ⟨by decide, by decide, by decide, by decide⟩
  have himport : IsToken "import".toList := ⟨by decide, by decide, by decide, by decide⟩
  have hall := isToken_append (isToken_append (isToken_append hfrom hblank (by decide) (isToken_module h)) hblank
    (by decide) himport) hblank (by decide) hc
  simpa [fromText] using hall

/-- The front of an import is read as a part of the code on its line. -/
theorem uncommented_fromText (h : IsModuleName source) {c : Char} (hc : IsToken [c]) (t : Text) :
    uncommented (fromText source ++ c :: t) = fromText source ++ uncommented (c :: t) := by
  have hall := uncommented_token (isToken_fromText h hc) t
  have hone := uncommented_token hc t
  rw [List.append_assoc, List.append_assoc] at hall
  exact hall.trans (congrArg (fromText source ++ ·) hone.symm)

/-- The names of an import are read behind its front. -/
theorem importOfNames_fromText (h : IsModuleName source) (hnames : stripLeft names = names) (n : Int) :
    importOfNames? n (fromText source ++ names) = some ⟨source, names, n⟩ := by
  have hfrom : afterWord? "from".toList (fromText source ++ names) = some (source ++ (" import ".toList ++ names)) := by
    have hmodule := isToken_module h
    have hstrip : stripLeft (source ++ (" import ".toList ++ names)) = source ++ (" import ".toList ++ names) := by
      rw [stripLeft_append _ (not_blank_of_strip hmodule.stripped hmodule.ne_nil), stripLeft_of_strip hmodule.stripped]
    rw [← hstrip]
    exact congrArg (fun t => some (stripLeft t)) (List.append_assoc source _ _)
  have hword := (takeWhile_word h.unbroken (" import ".toList ++ names) fun c hc => by cases hc; rfl).1
  have himport : afterWord? "import".toList ("import ".toList ++ names) = some names := congrArg some hnames
  unfold importOfNames?
  have hblank : afterBlanks? (" import ".toList ++ names) = some ("import ".toList ++ names) := by rfl
  simp only [hfrom, Option.bind_some, hword, List.drop_left, hblank, himport]
  rfl

theorem importStep_fromText (h : IsModuleName source) {c : Char} (hc : IsToken [c]) (t : Text) (n : Nat) :
    importStep none n (fromText source ++ c :: t) =
      if OpenImport.isOpen ⟨source, uncommented (c :: t), n⟩ then ([], some ⟨source, uncommented (c :: t), n⟩)
      else ([OpenImport.close ⟨source, uncommented (c :: t), n⟩], none) := by
  have hnames : stripLeft (uncommented (c :: t)) = uncommented (c :: t) := stripLeft_of_strip (strip_strip _)
  unfold importStep
  rw [uncommented_fromText h hc]
  simp only [importOfNames_fromText h hnames]

theorem isOpen_bracket (source t : Text) (n : Int) :
    OpenImport.isOpen ⟨source, uncommented ('(' :: t), n⟩ = !contains (uncommented ('(' :: t)) [')'] := by
  have hbracket : IsToken ['('] := (isToken_bracket (.inr ⟨rfl, rfl⟩)).1
  have hstarts : startsWith (uncommented ('(' :: t)) ['('] = true := by
    rw [← List.singleton_append, uncommented_token hbracket]
    rfl
  unfold OpenImport.isOpen
  rw [hstarts, Bool.true_and]

/-- An import whose list is open goes on up to the first line with a closing bracket. -/
theorem importsFrom_open {i : OpenImport} {front : List Text} {last : Text}
    (hfront : ∀ line ∈ front, ')' ∉ uncommented line) (hlast : ')' ∈ uncommented last) (n : Nat) :
    importsFrom (some i) n (front ++ [last]) =
        [OpenImport.close { i with names := i.names ++ ' ' :: joinedCode (front ++ [last]) }] ∧
      importLeft (some i) n (front ++ [last]) = none := by
  -- The induction is on the lines in front of the last one; each adds its code to the names.
  induction front generalizing i n with
  | nil =>
    have hstep : importStep (some i) n last =
        ([OpenImport.close { i with names := i.names ++ ' ' :: uncommented last }], none) :=
      if_pos (contains_char_iff.mpr hlast)
    exact ⟨by rw [List.nil_append, importsFrom_cons, hstep]; rfl, by rw [List.nil_append, importLeft, hstep]; rfl⟩
  | cons line front ih =>
    obtain ⟨hline, hfront⟩ := List.forall_mem_cons.mp hfront
    have hstep : importStep (some i) n line =
        ([], some { i with names := i.names ++ ' ' :: uncommented line }) :=
      if_neg fun h => hline (contains_char_iff.mp h)
    obtain ⟨hfrom, hleft⟩ := @ih { i with names := i.names ++ ' ' :: uncommented line } hfront (n + 1)
    rw [List.append_assoc, List.cons_append, ← joinedCode_cons line (by simp)] at hfrom
    exact ⟨by rw [List.cons_append, importsFrom_cons, hstep]; exact hfrom,
      by rw [List.cons_append, importLeft, hstep]; exact hleft⟩

/-- **An import is read from its list in brackets,** on one line or on several. -/
theorem importsFrom_listed (h : IsModuleName source) {t inner : Text} (hinner : ')' ∉ inner)
    (hcode : joinedCode (lines ('(' :: t)) = '(' :: (inner ++ [')'])) (n : Nat) :
    importsFrom none n (lines (fromText source ++ '(' :: t)) =
        [OpenImport.close ⟨source, '(' :: (inner ++ [')']), n⟩] ∧
      importLeft none n (lines (fromText source ++ '(' :: t)) = none := by
  have hbracket : IsToken ['('] := (isToken_bracket (.inr ⟨rfl, rfl⟩)).1
  have hfront : '\n' ∉ fromText source := fun hmem =>
    (isToken_fromText h hbracket).line (List.mem_append_left _ hmem)
  obtain ⟨first, more, -, hlines⟩ := lines_cons_of_ne (c := '(') (by decide) t
  rw [hlines] at hcode
  have hwhole : ')' ∉ '(' :: inner := by
    rw [List.mem_cons, not_or]
    exact ⟨by decide, hinner⟩
  rw [lines_append_of_line hfront hlines, importsFrom_cons, importLeft, importStep_fromText h hbracket, isOpen_bracket]
  obtain ⟨rfl, hone⟩ | ⟨front, last, rfl, hline, hopen, hclose, hall⟩ := joinedCode_cases (by decide) hwhole hcode
  · rw [hone, contains_char_iff.mpr (List.mem_append_right _ List.mem_cons_self)]
    exact ⟨rfl, rfl⟩
  · obtain ⟨hfrom, hleft⟩ := importsFrom_open (i := ⟨source, uncommented ('(' :: first), n⟩) hopen hclose (n + 1)
    rw [hall] at hfrom
    rw [Bool.eq_false_iff.mpr fun hmem => hline (contains_char_iff.mp hmem)]
    exact ⟨hfrom, hleft⟩

/-! ### The names between the brackets -/

/-- A character between the brackets of a list of names. -/
def isListing (c : Char) : Bool := isBlank c || c = ',' || isNameChar c

theorem isListItem_texts (hnamed : ∀ i ∈ items, i.IsNamed) : ∀ item ∈ items.map ImportItem.text, IsListItem item :=
  List.forall_mem_map.mpr fun i hi => ImportItem.isListItem_text (hnamed i hi)

theorem isListing_of_item (hnamed : ∀ i ∈ items, i.IsNamed) {c : Char}
    (hc : isBlank c = true ∨ c = ',' ∨ ∃ item ∈ items.map ImportItem.text, c ∈ item) : isListing c = true := by
  unfold isListing
  rcases hc with hblank | rfl | ⟨item, hitem, hmem⟩
  · rw [hblank]
    rfl
  · rfl
  · obtain ⟨i, hi, rfl⟩ := List.mem_map.mp hitem
    rcases ImportItem.mem_text (hnamed i hi) hmem with hword | rfl
    · rw [hword, Bool.or_true]
    · rfl

theorem not_listing {c d : Char} (hc : isListing c = true) (hd : isListing d = false) : c ≠ d := by
  rintro rfl
  rw [hc] at hd
  cases hd

/-- **The import is that of the items,** where they stand in its names with nothing around them but brackets. -/
theorem close_listing {bare : Text} (hnames : strip names = names)
    (htrim : trim (fun c => c = '(' || c = ')') names = bare) (hlisting : ∀ c ∈ bare, isListing c = true)
    (hsplit : splitTopLevel ',' bare = items.map ImportItem.text) (hnamed : ∀ i ∈ items, i.IsNamed) (n : Int) :
    OpenImport.close ⟨source, names, n⟩ = importOf source items n := by
  have hslash : dropRight (· = '\\') bare = bare :=
    (dropRight_eq_self_iff _ bare).mpr fun c hc =>
      decide_eq_false (not_listing (hlisting c (List.mem_of_getLast? hc)) (by decide))
  have hbindings : (items.map ImportItem.text).map (bindingOf "named".toList) = items.map ImportItem.binding := by
    rw [List.map_map]
    exact List.map_congr_left fun i hi => ImportItem.bindingOf_text (hnamed i hi)
  unfold OpenImport.close importOf
  simp only [hnames, htrim, hslash, hsplit, hbindings]

theorem not_bracket_of_listing {c : Char} (hc : isListing c = true) :
    (decide (c = '(') || decide (c = ')')) = false := by
  rw [decide_eq_false (not_listing hc (by decide)), decide_eq_false (not_listing hc (by decide))]
  rfl

/-- An import without brackets is read on its line. -/
theorem importsFrom_oneLine (h : IsModuleName source) (hnamed : ∀ i ∈ items, i.IsNamed) (hne : items ≠ []) (n : Nat) :
    importsFrom none n [fromText source ++ joinWith ", ".toList (items.map ImportItem.text)] =
        [importOf source items n] ∧
      importLeft none n [fromText source ++ joinWith ", ".toList (items.map ImportItem.text)] = none := by
  have hlistItem := isListItem_texts hnamed
  have hne : items.map ImportItem.text ≠ [] := fun h => hne (List.map_eq_nil_iff.mp h)
  have htoken := isToken_joined hne fun item hitem => (hlistItem item hitem).toIsToken
  have hsplit := splitTopLevel_joined hne hlistItem (show isBlankText [] = true from rfl)
  have hlisting : ∀ c ∈ joinWith ", ".toList (items.map ImportItem.text), isListing c = true :=
    fun c hc => isListing_of_item hnamed (mem_joined hc)
  revert htoken hsplit hlisting
  generalize joinWith ", ".toList (items.map ImportItem.text) = joined
  intro htoken hsplit hlisting
  obtain ⟨c, t, rfl⟩ := List.exists_cons_of_ne_nil htoken.ne_nil
  have hclose : OpenImport.close ⟨source, c :: t, n⟩ = importOf source items n :=
    close_listing htoken.stripped (trim_of_not fun d hd => not_bracket_of_listing (hlisting d hd)) hlisting hsplit
      hnamed n
  have hopen : OpenImport.isOpen ⟨source, c :: t, n⟩ = false := by
    have hc : ('(' == c) = false :=
      beq_eq_false_iff_ne.mpr (not_listing (hlisting c List.mem_cons_self) (by decide)).symm
    simp [OpenImport.isOpen, startsWith, List.isPrefixOf, hc]
  rw [importsFrom_cons, importLeft, importStep_fromText h htoken.head, htoken.uncommented_eq, hopen,
    if_neg Bool.false_ne_true, hclose]
  exact ⟨rfl, rfl⟩

/-- **Every way to write an import gives the same import.** -/
theorem importsFrom_form {form : List Text} (h : IsModuleName source) (hnamed : ∀ i ∈ items, i.IsNamed)
    (hform : IsImportOf source items form) (n : Nat) :
    importsFrom none n form = [importOf source items n] ∧ importLeft none n form = none := by
  cases hform with
  | oneLine hne => exact importsFrom_oneLine h hnamed hne n
  | @listed l hl hitems =>
    have hlistItem : ∀ item ∈ l.items, IsListItem item := hitems ▸ isListItem_texts hnamed
    have hlisting : ∀ c ∈ l.inner, isListing c = true := fun c hc =>
      isListing_of_item hnamed (hitems ▸ ListLayout.mem_inner hl hc)
    have hbrackets : AreBrackets '(' ')' := .inr ⟨rfl, rfl⟩
    obtain ⟨hopening, hclosing⟩ := isToken_bracket hbrackets
    have hcode := ListLayout.joinedCode_list hl (fun item hitem => (hlistItem item hitem).toIsToken) hbrackets
    have hinner : ')' ∉ l.inner := fun hmem => not_listing (hlisting _ hmem) (by decide) rfl
    have hclose : OpenImport.close ⟨source, '(' :: (l.inner ++ [')']), n⟩ = importOf source items n := by
      refine close_listing ?_ (trim_enclosed rfl rfl fun c hc => not_bracket_of_listing (hlisting c hc)) hlisting ?_
        hnamed n
      · exact strip_append_self hopening.stripped hopening.ne_nil hclosing.stripped hclosing.ne_nil l.inner
      · exact (ListLayout.splitTopLevel_inner hl hlistItem).trans hitems
    have hread := importsFrom_listed h hinner hcode n
    rw [hclose] at hread
    exact hread

end

/-! ## Exports -/

/-- What stands in front of the list that is assigned to the exported names, or added to them. -/
structure ExportFront where
  left : Text
  adds : Bool
  right : Text

namespace ExportFront

/-- The front as it is written. -/
def text (f : ExportFront) : Text :=
  "__all__".toList ++ (f.left ++ ((if f.adds then ['+', '='] else ['=']) ++ f.right))

/-- Around the sign stand no more than blanks. -/
structure IsWritten (f : ExportFront) : Prop where
  left : isBlankText f.left = true ∧ '\n' ∉ f.left
  right : isBlankText f.right = true ∧ '\n' ∉ f.right

theorem IsWritten.line {f : ExportFront} (h : f.IsWritten) : '\n' ∉ f.text := by
  have hword : '\n' ∉ "__all__".toList := by decide
  have hsign : '\n' ∉ (if f.adds then ['+', '='] else ['=']) := by
    cases f.adds <;> decide
  unfold text
  rw [List.mem_append, List.mem_append, List.mem_append, not_or, not_or, not_or]
  exact ⟨hword, h.left.2, hsign, h.right.2⟩

end ExportFront

/-- The lines assign a list of the items to the exported names, or add it to them. -/
inductive IsExportOf (items : List ExportItem) : List Text → Prop where
  | listed {f : ExportFront} {l : ListLayout} {opening closing : Char} (hf : f.IsWritten) (hl : l.IsWritten)
    (hitems : l.items = items.map ExportItem.text) (hbrackets : AreBrackets opening closing) :
    IsExportOf items (lines (f.text ++ l.text opening closing))

/-- The exports of the items. -/
def exportsOfItems (items : List ExportItem) (line : Int) : List Export :=
  items.map fun i => { name := i.name, kind := "named".toList, startLine := line }

section

variable {items : List ExportItem} {opening closing : Char}

theorem exportLiteral_front {f : ExportFront} (hf : f.IsWritten) (h : AreBrackets opening closing)
    (t : Text) (n : Int) :
    exportLiteral? n (f.text ++ opening :: t) = some ⟨uncommented (opening :: t), closing, n⟩ := by
  have hsign : after? ['='] (dropHead ['+'] (stripLeft (f.left ++
      ((if f.adds then ['+', '='] else ['=']) ++ (f.right ++ opening :: t))))) = some (f.right ++ opening :: t) := by
    rw [stripLeft_blank_append _ hf.left.1]
    cases f.adds <;> rfl
  have hcode : uncommented (f.right ++ opening :: t) = opening :: stripRight (before '#' t) := by
    rw [uncommented_blank hf.right.1]
    exact uncommented_token (isToken_bracket h).1 t
  have hline : uncommented (opening :: t) = opening :: stripRight (before '#' t) :=
    uncommented_token (isToken_bracket h).1 t
  unfold exportLiteral? ExportFront.text
  simp only [List.append_assoc, after_head, Option.bind_some, hsign, hcode, hline]
  rcases h with ⟨rfl, rfl⟩ | ⟨rfl, rfl⟩ <;> rfl

/-- A literal that is open goes on up to the first line with its closing bracket. -/
theorem exportsFrom_open {e : OpenExport} {front : List Text} {last : Text} (hspace : e.closing ≠ ' ')
    (hopen : e.closing ∉ e.literal) (hfront : ∀ line ∈ front, e.closing ∉ uncommented line)
    (hlast : e.closing ∈ uncommented last) (n : Nat) :
    exportsFrom (some e) n (front ++ [last]) =
        OpenExport.close { e with literal := e.literal ++ ' ' :: joinedCode (front ++ [last]) } ∧
      exportLeft (some e) n (front ++ [last]) = none := by
  induction front generalizing e n with
  | nil =>
    have hclosed : contains (e.literal ++ ' ' :: uncommented last) [e.closing] = true :=
      contains_char_iff.mpr (List.mem_append_right _ (List.mem_cons_of_mem _ hlast))
    have hstep : exportStep (some e) n last =
        (OpenExport.close { e with literal := e.literal ++ ' ' :: uncommented last }, none) := if_pos hclosed
    exact ⟨by rw [List.nil_append, exportsFrom_cons, hstep]; exact List.append_nil _,
      by rw [List.nil_append, exportLeft, hstep]; rfl⟩
  | cons line front ih =>
    obtain ⟨hline, hfront⟩ := List.forall_mem_cons.mp hfront
    have hgoes : e.closing ∉ e.literal ++ ' ' :: uncommented line := by
      rw [List.mem_append, List.mem_cons, not_or, not_or]
      exact ⟨hopen, hspace, hline⟩
    have hstep : exportStep (some e) n line =
        ([], some { e with literal := e.literal ++ ' ' :: uncommented line }) :=
      if_neg fun h => hgoes (contains_char_iff.mp h)
    obtain ⟨hfrom, hleft⟩ := @ih { e with literal := e.literal ++ ' ' :: uncommented line } hspace hgoes hfront hlast
      (n + 1)
    rw [List.append_assoc, List.cons_append, ← joinedCode_cons line (by simp)] at hfrom
    exact ⟨by rw [List.cons_append, exportsFrom_cons, hstep]; exact hfrom,
      by rw [List.cons_append, exportLeft, hstep]; exact hleft⟩

/-- **A literal is read from its list,** on one line or on several. -/
theorem exportsFrom_listed {f : ExportFront} (hf : f.IsWritten) (h : AreBrackets opening closing)
    {t inner : Text} (hinner : closing ∉ inner)
    (hcode : joinedCode (lines (opening :: t)) = opening :: (inner ++ [closing])) (n : Nat) :
    exportsFrom none n (lines (f.text ++ opening :: t)) =
        OpenExport.close ⟨opening :: (inner ++ [closing]), closing, n⟩ ∧
      exportLeft none n (lines (f.text ++ opening :: t)) = none := by
  have hopening := (isToken_bracket h).1
  have hspace : closing ≠ ' ' := by
    rcases h with ⟨rfl, rfl⟩ | ⟨rfl, rfl⟩ <;> decide
  have hne : closing ≠ opening := by
    rcases h with ⟨rfl, rfl⟩ | ⟨rfl, rfl⟩ <;> decide
  have hwhole : closing ∉ opening :: inner := by
    rw [List.mem_cons, not_or]
    exact ⟨hne, hinner⟩
  obtain ⟨first, more, -, hlines⟩ := lines_cons_of_ne
    (fun hn => hopening.line (List.mem_singleton.mpr hn.symm)) t
  rw [hlines] at hcode
  have hstep : exportStep none n (f.text ++ opening :: first) =
      OpenExport.settle ⟨uncommented (opening :: first), closing, n⟩ := by
    unfold exportStep
    rw [exportLiteral_front hf h]
  rw [lines_append_of_line hf.line hlines, exportsFrom_cons, exportLeft, hstep, OpenExport.settle]
  obtain ⟨rfl, hone⟩ | ⟨front, last, rfl, hline, hopen, hclose, hall⟩ := joinedCode_cases hspace hwhole hcode
  · rw [hone, contains_char_iff.mpr (List.mem_append_right _ List.mem_cons_self)]
    exact ⟨List.append_nil _, rfl⟩
  · obtain ⟨hfrom, hleft⟩ := exportsFrom_open (e := ⟨uncommented (opening :: first), closing, n⟩) hspace hline hopen
      hclose (n + 1)
    rw [hall] at hfrom
    rw [if_neg fun hmem => hline (contains_char_iff.mp hmem)]
    exact ⟨hfrom, hleft⟩

/-- **Every way to write a list of exports gives the same exports.** -/
theorem exportsFrom_form {form : List Text} (hnamed : ∀ i ∈ items, i.IsNamed) (hform : IsExportOf items form)
    (n : Nat) : exportsFrom none n form = exportsOfItems items n ∧ exportLeft none n form = none := by
  obtain @⟨f, l, opening, closing, hf, hl, hitems, hbrackets⟩ := hform
  have hlistItem : ∀ item ∈ l.items, IsListItem item := by
    rw [hitems]
    exact List.forall_mem_map.mpr fun i hi => ExportItem.isListItem_text (hnamed i hi)
  have hcode := ListLayout.joinedCode_list hl (fun item hitem => (hlistItem item hitem).toIsToken) hbrackets
  have hinner : closing ∉ l.inner := fun hmem => by
    have hplain : isBlank closing = false ∧ closing ≠ ',' ∧ isNameChar closing = false ∧ isQuote closing = false := by
      rcases hbrackets with ⟨rfl, rfl⟩ | ⟨rfl, rfl⟩ <;> decide
    obtain hblank | he | ⟨item, hitem, hmem⟩ := ListLayout.mem_inner hl hmem
    · rw [hplain.1] at hblank
      cases hblank
    · exact hplain.2.1 he
    · rw [hitems] at hitem
      obtain ⟨i, hi, rfl⟩ := List.mem_map.mp hitem
      exact ExportItem.not_mem_text (hnamed i hi) hplain.2.2.1 hplain.2.2.2 hmem
  have hclose : OpenExport.close ⟨opening :: (l.inner ++ [closing]), closing, n⟩ = exportsOfItems items n := by
    have hbreak : breakLast? closing (opening :: (l.inner ++ [closing])) = some (opening :: l.inner, []) :=
      breakLast_end (opening :: l.inner) closing
    have hsplit : splitTopLevel ',' l.inner = items.map ExportItem.text :=
      (ListLayout.splitTopLevel_inner hl hlistItem).trans hitems
    have htrim : (items.map ExportItem.text).map (trim fun c => c = '\'' || c = '"') = items.map ExportItem.name := by
      rw [List.map_map]
      exact List.map_congr_left fun i hi => ExportItem.trim_text (hnamed i hi)
    unfold OpenExport.close exportsOfItems
    simp only [hbreak, List.drop_one, List.tail_cons, hsplit, htrim]
    rw [List.filterMap_map, ← List.filterMap_eq_map]
    exact List.filterMap_congr fun i hi => if_neg (hnamed i hi).name.ne_nil
  have hread := exportsFrom_listed hf hbrackets hinner hcode n
  rw [hclose] at hread
  exact hread

end

/-! ## Between other lines -/

theorem shift_importOf (source : Text) (items : List ImportItem) (n : Nat) :
    (importOf source items 1).shift n = importOf source items (n + 1) := by
  unfold importOf Import.shift
  rw [Int.add_comm]

theorem shift_exportsOfItems (items : List ExportItem) (n : Nat) :
    (exportsOfItems items 1).map (Export.shift n) = exportsOfItems items (n + 1) := by
  unfold exportsOfItems
  rw [List.map_map, Int.add_comm]
  rfl

/-- **How imports and exports are written does not matter.**  Every way to write an import gives the one import, on its
first line, and every way to write a list of exports gives its items, on its first line.  What stands above and below is
read as if nothing stood between, so many lines further down. -/
theorem edges_of_form {above form : List Text} (below : List Text) :
    (∀ source items, IsModuleName source → (∀ i ∈ items, i.IsNamed) → IsImportOf source items form →
      importLeft none 1 above = none →
      importsOf (above ++ form ++ below) = importsOf above ++ importOf source items (above.length + 1) ::
        (importsOf below).map (Import.shift (above.length + form.length))) ∧
    ∀ items, (∀ i ∈ items, i.IsNamed) → IsExportOf items form → exportLeft none 1 above = none →
      exportsOf (above ++ form ++ below) = exportsOf above ++ exportsOfItems items (above.length + 1) ++
        (exportsOf below).map (Export.shift (above.length + form.length)) := by
  constructor
  · intro source items hsource hnamed hform habove
    obtain ⟨hread, hleft⟩ := importsFrom_form hsource hnamed hform 1
    have hone : importsOf form = [importOf source items 1] := hread
    rw [List.append_assoc, importsOf_append habove, importsOf_append hleft, hone, List.map_append, List.map_singleton,
      List.map_map, Import.shift_shift, shift_importOf]
    rfl
  · intro items hnamed hform habove
    obtain ⟨hread, hleft⟩ := exportsFrom_form hnamed hform 1
    have hone : exportsOf form = exportsOfItems items 1 := hread
    rw [List.append_assoc, exportsOf_append habove, exportsOf_append hleft, hone, List.map_append, List.map_map,
      Export.shift_shift, shift_exportsOfItems, List.append_assoc]

def sampleItems : List ImportItem := [⟨"a".toList, none⟩, ⟨"b".toList, some "c".toList⟩]

/-- A list with comments that hold its brackets, an empty line, and a comma behind its last item. -/
def sampleImport : ListLayout where
  commaed := [("  # ( a )".toList ++ '\n' :: "    ".toList, "a".toList, []),
    ([] ++ '\n' :: ("  # )".toList ++ '\n' :: ([] ++ '\n' :: "    ".toList)), "b as c".toList, [])]
  last := none
  closing := [] ++ '\n' :: []
  ending := "  # )".toList

/-- A list that closes on the line of its last item. -/
def sampleExport : ListLayout where
  commaed := [([], "'f'".toList, []), ("  # ]".toList ++ '\n' :: "  ".toList, "\"g\"".toList, " ".toList)]
  last := some (" ".toList, "'h'".toList)
  closing := []
  ending := []

theorem edges_of_form_sample :
    (∀ form ∈ [[fromText "m".toList ++ "a, b as c".toList],
        lines (fromText "m".toList ++ sampleImport.text '(' ')')],
      importsOf (["import os".toList] ++ form ++ ["import re".toList]) =
        importsOf ["import os".toList] ++ importOf "m".toList sampleItems 2 ::
          (importsOf ["import re".toList]).map (Import.shift (1 + form.length))) ∧
    exportsOf ([] ++ lines ("__all__ += ".toList ++ sampleExport.text '[' ']') ++ ["__all__ = ('k',)".toList]) =
      [⟨"f".toList, "named".toList, none, 1⟩, ⟨"g".toList, "named".toList, none, 1⟩,
        ⟨"h".toList, "named".toList, none, 1⟩, ⟨"k".toList, "named".toList, none, 3⟩] := by
  have hmodule : IsModuleName "m".toList := ⟨by decide, by decide, by decide⟩
  have hnames : ∀ name ∈ ["a".toList, "b".toList, "c".toList, "f".toList, "g".toList, "h".toList], IsListName name := by
    have hidentifiers : ∀ name ∈ ["a".toList, "b".toList, "c".toList, "f".toList, "g".toList, "h".toList],
        isIdentifier name = true := by decide
    exact fun name hname => isListName_identifier (hidentifiers name hname)
  have hitems : ∀ i ∈ sampleItems, i.IsNamed :=
    List.forall_mem_cons.mpr ⟨⟨hnames _ (by decide), nofun⟩, List.forall_mem_singleton.mpr
      ⟨hnames _ (by decide), by rintro _ ⟨⟩; exact hnames _ (by decide)⟩⟩
  have himport : sampleImport.IsWritten := by
    refine ⟨List.forall_mem_cons.mpr ⟨⟨?_, ?_⟩, List.forall_mem_singleton.mpr ⟨?_, ?_⟩⟩, by simp [sampleImport], ?_,
      by decide, by decide⟩
    · exact .line (by decide) (by decide) (.blank (by decide) (by decide))
    · exact .blank (by decide) (by decide)
    · exact .line (by decide) (by decide)
        (.line (by decide) (by decide) (.line (by decide) (by decide) (.blank (by decide) (by decide))))
    · exact .blank (by decide) (by decide)
    · exact .line (by decide) (by decide) (.blank (by decide) (by decide))
  have hexport : sampleExport.IsWritten := by
    refine ⟨List.forall_mem_cons.mpr ⟨⟨?_, ?_⟩, List.forall_mem_singleton.mpr ⟨?_, ?_⟩⟩, ?_, ?_, by decide, by decide⟩
    · exact .blank (by decide) (by decide)
    · exact .blank (by decide) (by decide)
    · exact .line (by decide) (by decide) (.blank (by decide) (by decide))
    · exact .blank (by decide) (by decide)
    · rintro _ ⟨⟩
      exact .blank (by decide) (by decide)
    · exact .blank (by decide) (by decide)
  have hexports : ∀ i ∈ [⟨"f".toList, '\''⟩, ⟨"g".toList, '"'⟩, ⟨"h".toList, '\''⟩], ExportItem.IsNamed i :=
    List.forall_mem_cons.mpr ⟨⟨hnames _ (by decide), by decide⟩, List.forall_mem_cons.mpr
      ⟨⟨hnames _ (by decide), by decide⟩, List.forall_mem_singleton.mpr ⟨hnames _ (by decide), by decide⟩⟩⟩
  have hfront : ExportFront.IsWritten ⟨" ".toList, true, " ".toList⟩ := ⟨by decide, by decide⟩
  refine ⟨List.forall_mem_cons.mpr ⟨?_, List.forall_mem_singleton.mpr ?_⟩, ?_⟩
  · exact (edges_of_form _).1 _ _ hmodule hitems (.oneLine (by decide)) (by decide)
  · exact (edges_of_form _).1 _ _ hmodule hitems (.listed himport (by decide)) (by decide)
  · exact ((edges_of_form _).2 _ hexports (.listed hfront hexport (by decide) (.inl ⟨rfl, rfl⟩)) rfl).trans
      (by decide)

end SourceDoc.Indented
