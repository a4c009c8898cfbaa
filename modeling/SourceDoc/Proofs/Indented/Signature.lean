import SourceDoc.Extractor.Basic
import SourceDoc.Outline.Normal
import SourceDoc.Proofs.Indented.Parameter
import SourceDoc.Proofs.List

/-!
# Signatures read back

The signature of a function, as it is written on a page, is a header from which the function is read again, with its
name, its parameters and its result; and so it is with line breaks between the brackets (`Layout`), as long as the
header has no more lines than are looked at (`signature_readsBack`).
-/

namespace SourceDoc.Indented

open Text

/-! ## What is written -/

/-- The blanks in a signature: those in front of each parameter, and those in front of the closing bracket. -/
structure Layout where
  before : List Text
  closing : Text

/-- What follows the parameters of a function. -/
def resultText (unknown : Text) (f : FunctionDecl) : Text :=
  ((telling? unknown f.returnType).map (" -> ".toList ++ ·)).getD []

namespace Layout

/-- The layout of a signature on one line. -/
def oneLine (f : FunctionDecl) : Layout where
  before := match f.parameters with
    | [] => []
    | _ :: rest => [] :: rest.map fun _ => [' ']
  closing := []

/-- The number of line breaks. -/
def breaks (l : Layout) : Nat := l.before.flatten.count '\n' + l.closing.count '\n'

/-- There are blanks for each parameter. -/
structure Fits (l : Layout) (f : FunctionDecl) : Prop where
  length : l.before.length = f.parameters.length
  before : ∀ gap ∈ l.before, isBlankText gap = true
  closing : isBlankText l.closing = true

/-- The parameters as they are written, each with the blanks in front of it. -/
def pieces (l : Layout) (unknown : Text) (f : FunctionDecl) : List (Text × Text) :=
  l.before.zip (f.parameters.map (parameterText unknown))

/-- The signature of a function with these blanks. -/
def signature (l : Layout) (unknown : Text) (f : FunctionDecl) : Text :=
  f.name ++ '(' :: (joinWith [','] ((l.pieces unknown f).map fun (gap, t) => gap ++ t) ++ l.closing ++
    ')' :: resultText unknown f)

end Layout

/-- A function with a signature, and with nothing to do; `indent` stands in front of its body and `ending` after it. -/
def declaration (isAsync : Bool) (signature indent ending : Text) : Text :=
  (if isAsync then "async ".toList else []) ++ "def ".toList ++ signature ++
    ':' :: '\n' :: (indent ++ "pass".toList ++ ending)

/-- The function is as a normal outline has it; its name is an identifier, and all that its signature says is plain. -/
structure IsPlainFunction (unknown : Text) (f : FunctionDecl) : Prop where
  normal : f.normalize unknown = f
  named : isIdentifier f.name = true
  parameters : ∀ p ∈ f.parameters, IsPlainParameter p
  returnType : ∀ t ∈ f.returnType, IsPlain t

/-- A declaration with the signature is read as a file with the function as its only symbol. -/
def ReadsBack (f : FunctionDecl) (signature : Text) : Prop :=
  ∀ path indent ending, isBlankText indent = true → indent ≠ [] → '\n' ∉ indent → (ending = [] ∨ ending = ['\n']) →
    ∃ o g, (Extractor.builtIn .python).extract path (declaration f.isAsync signature indent ending) = .ok o ∧
      o.normalize.decls = [.function g] ∧ g.name = f.name ∧ g.isAsync = f.isAsync ∧ g.parameters = f.parameters ∧
      g.returnType = f.returnType


/-! ## Signatures as headers -/

/-- A function up to its opening bracket. -/
def opening (f : FunctionDecl) : Text :=
  (if f.isAsync then "async ".toList else []) ++ "def ".toList ++ f.name ++ ['(']

theorem declaration_eq (l : Layout) (unknown : Text) (f : FunctionDecl) (indent ending : Text) :
    declaration f.isAsync (l.signature unknown f) indent ending =
      opening f ++ assemble (listParts l.closing (')' :: resultText unknown f) (l.pieces unknown f)) ++
        ':' :: '\n' :: (indent ++ "pass".toList ++ ending) := by
  rw [assemble_listParts]
  unfold declaration Layout.signature opening listed
  simp only [List.append_assoc, List.cons_append, List.nil_append]

section

variable {unknown : Text} {f : FunctionDecl}

theorem not_mark_opening (h : isIdentifier f.name = true) : ∀ c ∈ opening f, c ∉ marks := by
  have hname : ∀ c ∈ f.name, c ∉ marks := fun c hc => (plain_of_isWord (isWord_of_isIdentifier h c hc)).2.2.2
  unfold opening
  refine List.forall_mem_append.mpr ⟨List.forall_mem_append.mpr ⟨List.forall_mem_append.mpr
    ⟨?_, all_bare_iff.mp (by decide)⟩, hname⟩, all_bare_iff.mp (by decide)⟩
  split <;> exact all_bare_iff.mp (by decide)

theorem isSolid_opening (h : isIdentifier f.name = true) : IsSolid (opening f) := by
  have hbracket : IsSolid ['('] := by decide
  have hends : strip (opening f) = opening f := by
    rw [strip_eq_self_iff]
    unfold opening
    constructor
    · cases f.isAsync <;> exact fun c hc => by cases hc; rfl
    · rw [List.getLast?_concat]
      exact fun c hc => by cases hc; rfl
  exact ⟨by simp [opening], hends, not_mark_opening h⟩

theorem openAfter_opening (h : isIdentifier f.name = true) : openAfter [':'] 0 (opening f) = some 1 := by
  have hname : openAfter [':'] 0 f.name = some 0 := (isName_identifier h).openAfter [':'] (by simp) 0
  have hfront : openAfter [':'] 0 ((if f.isAsync then "async ".toList else []) ++ "def ".toList) = some 0 := by
    cases f.isAsync <;> decide
  unfold opening
  rw [openAfter_append, openAfter_append, hfront, Option.bind_some, hname]
  rfl

theorem functionStart_opening (h : isIdentifier f.name = true) (rest : Text) :
    functionStart? (opening f ++ rest) = some ⟨f.isAsync, f.name, rest⟩ := by
  have hnamed : ∀ isAsync, namedStart? isAsync ("def ".toList ++ f.name ++ '(' :: rest) = some ⟨isAsync, f.name, rest⟩ := by
    intro isAsync
    have hblank : stripLeft (f.name ++ '(' :: rest) = f.name ++ '(' :: rest := by
      have hsolid := (isName_identifier h).solid
      rw [stripLeft_append _ (not_blank_of_strip hsolid.stripped hsolid.ne_nil), stripLeft_of_strip hsolid.stripped]
    have hword : afterWord? "def".toList ("def ".toList ++ f.name ++ '(' :: rest) = some (f.name ++ '(' :: rest) := by
      show some (stripLeft (f.name ++ '(' :: rest)) = _
      rw [hblank]
    have hread : identifier? (f.name ++ '(' :: rest) = some (f.name, '(' :: rest) :=
      identifier_read h fun c hc => by cases hc; rfl
    unfold namedStart?
    rw [hword, Option.bind_some, hread]
    rfl
  have hall : opening f ++ rest =
      (if f.isAsync then "async ".toList else []) ++ ("def ".toList ++ f.name ++ '(' :: rest) := by
    simp only [opening, List.append_assoc, List.cons_append, List.nil_append]
  rw [hall]
  cases f.isAsync with
  | false => exact hnamed false
  | true => exact hnamed true

theorem resultText_cases (h : ∀ t ∈ f.returnType, IsPlain t) (unknown : Text) :
    IsSolid (')' :: resultText unknown f) ∧ openAfter [':'] 0 (resultText unknown f) = some 0 ∧
      returnType? (resultText unknown f) = some (telling? unknown f.returnType) := by
  have hbracket : IsSolid [')'] := by decide
  unfold resultText
  cases ht : telling? unknown f.returnType with
  | none => exact ⟨hbracket, rfl, rfl⟩
  | some t =>
    have hplain := h t (telling_eq_some ht)
    have hblank : isBlankText [' '] = true := by decide
    have harrow : IsSolid ['-', '>'] := by decide
    have htype := isSolid_append harrow hblank (by decide) hplain.toIsSolid
    have hbalanced : openAfter [':'] 0 t = some 0 := openAfter_mono (by simp) hplain.balanced
    have hall := isSolid_append hbracket hblank (by decide) htype
    refine ⟨by simpa using hall, hbalanced, ?_⟩
    have hstrip : strip (" -> ".toList ++ t) = '-' :: '>' :: ' ' :: t :=
      (strip_blank_append (s := [' ']) ('-' :: '>' :: ' ' :: t) hblank).trans htype.stripped
    have hinner : stripped? (' ' :: t) = some t :=
      stripped_of_strip ((strip_blank_append (s := [' ']) t hblank).trans hplain.stripped) hplain.ne_nil
    unfold returnType?
    simp only [Option.map_some, Option.getD_some, hstrip, hinner]

theorem isItems_pieces (h : IsPlainFunction unknown f) {l : Layout} (hl : l.Fits f) : IsItems (l.pieces unknown f) := by
  intro piece hpiece
  obtain ⟨hgap, htext⟩ := List.of_mem_zip hpiece
  obtain ⟨p, hp, he⟩ := List.mem_map.mp htext
  exact ⟨hl.before _ hgap, he ▸ isItem_parameterText (h.parameters p hp) unknown⟩

theorem isItems_flat {pieces : List (Text × Text)} (h : IsItems pieces) :
    IsItems (pieces.map flatPart) ∧ ∀ piece ∈ pieces.map flatPart, '\n' ∉ piece.1 := by
  constructor
  · intro piece hpiece
    obtain ⟨piece', hmem, rfl⟩ := List.mem_map.mp hpiece
    obtain ⟨hgap, ht⟩ := h piece' hmem
    exact ⟨isBlankText_flatGap hgap, ht⟩
  · intro piece hpiece
    obtain ⟨piece', -, rfl⟩ := List.mem_map.mp hpiece
    exact newline_not_mem_flatGap piece'.1

theorem map_snd_pieces {l : Layout} (hl : l.Fits f) :
    (l.pieces unknown f).map Prod.snd = f.parameters.map (parameterText unknown) := by
  refine List.map_snd_zip (Nat.le_of_eq ?_)
  rw [List.length_map, hl.length]

theorem breaks_pieces {l : Layout} (hl : l.Fits f) :
    breaks (l.pieces unknown f) = l.before.flatten.count '\n' := by
  have hfirst : (l.pieces unknown f).map Prod.fst = l.before := by
    refine List.map_fst_zip (Nat.le_of_eq ?_)
    rw [List.length_map, hl.length]
  rw [breaks, List.flatMap_def, hfirst]

/-- **The header of a function is read from its signature,** whatever line breaks are in it. -/
theorem read_signature (h : IsPlainFunction unknown f) {l : Layout} (hl : l.Fits f)
    (hbreaks : l.breaks < maxHeaderLines) (indent ending : Text) :
    ∃ header, FunctionHeader.read? (Text.lines (declaration f.isAsync (l.signature unknown f) indent ending)) =
      some header ∧ header.first.name = f.name ∧ header.first.isAsync = f.isAsync ∧
        header.returnType = telling? unknown f.returnType ∧
        splitTopLevel ',' header.parameters = f.parameters.map (parameterText unknown) := by
  obtain ⟨hlast, hresult, hreturn⟩ := resultText_cases h.returnType unknown
  have hitems := isItems_pieces h hl
  obtain ⟨hflat, hflatLines⟩ := isItems_flat hitems
  have hopening := isSolid_opening h.named
  generalize hpieces : l.pieces unknown f = pieces at hitems hflat hflatLines
  have hclosing := isBlankText_flatGap hl.closing
  -- The whole header, with and without its line breaks, is balanced up to its colon.
  have hlist : ∀ {pieces : List (Text × Text)} {closing : Text}, IsItems pieces → isBlankText closing = true →
      openAfter [] 0 (listed pieces ++ closing) = some 0 := by
    intro pieces closing hpieces hclosing
    rw [openAfter_append, openAfter_listed hpieces]
    exact openAfter_blank rfl hclosing
  have hopen : openAfter [':'] 0 (opening f ++ assemble (listParts l.closing (')' :: resultText unknown f) pieces)) =
      some 0 := by
    rw [assemble_listParts, openAfter_append, openAfter_opening h.named, Option.bind_some, openAfter_append,
      openAfter_inside [':'] (hlist hitems hl.closing)]
    exact hresult
  have hfew : breaks (listParts l.closing (')' :: resultText unknown f) pieces) < maxHeaderLines := by
    rw [breaks_listParts, ← hpieces, breaks_pieces hl]
    exact hbreaks
  obtain ⟨read, n, hread, -, hjoin⟩ := reads_assemble _ hopening (isPart_listParts hitems hl.closing hlast) hopen hfew
    (indent ++ "pass".toList ++ ending)
  change headerPieces? maxHeaderLines 0 _ = _ at hread
  rw [map_flatPart_listParts, assemble_listParts] at hjoin
  generalize hinner : listed (pieces.map flatPart) ++ flatGap l.closing = inner at hjoin
  have hbalanced : openAfter [] 0 inner = some 0 := by
    rw [← hinner]
    exact hlist hflat hclosing
  have hquotes : ∀ c ∈ inner, isTextQuote c = false := by
    rw [← hinner]
    exact not_quote_listed hflat hflatLines hclosing (newline_not_mem_flatGap l.closing)
  have hheader : Header.read? (Text.lines (declaration f.isAsync (l.signature unknown f) indent ending)) =
      some ⟨opening f ++ (inner ++ ')' :: resultText unknown f), n⟩ := by
    have hstrip := strip_append_self hopening.stripped hopening.ne_nil hlast.stripped hlast.ne_nil inner
    rw [declaration_eq, hpieces]
    unfold Header.read?
    simp only [hread, Option.map_some, hjoin]
    rw [← List.append_assoc, hstrip]
  refine ⟨⟨⟨f.isAsync, f.name, inner ++ ')' :: resultText unknown f⟩, inner, telling? unknown f.returnType, n⟩, ?_, rfl,
    rfl, rfl, ?_⟩
  · have hclose : breakClosing? isTextQuote 1 none (inner ++ ')' :: resultText unknown f) =
        some (inner, resultText unknown f) := breakClosing_closing hquotes hbalanced rfl rfl rfl _
    unfold FunctionHeader.read?
    rw [hheader, Option.bind_some]
    simp only [functionStart_opening h.named, Option.bind_some, hclose, hreturn, Option.map_some]
  · rw [← hinner, splitTopLevel_listed hflat hclosing, List.map_map]
    show pieces.map Prod.snd = _
    rw [← hpieces, map_snd_pieces hl]

end

/-! ## The only symbol of a file -/

section

variable {lines : List Text} {total : Nat}

theorem symbolAt_none {i : Nat} {line : Text} (hline : lines[i]? = some line)
    (h : IsInner line ∨ indentation line ≠ 0) : symbolAt? lines total i = .ok none := by
  unfold symbolAt?
  rw [hline]
  simp only [Option.getD_some, strip_eq_nil_iff]
  rcases h with (hblank | hnone) | hindented
  · rw [if_pos (.inl hblank)]
  · obtain ⟨hfunction, hclass⟩ := Bool.or_eq_false_iff.mp hnone
    simp only [hfunction, hclass, Bool.false_eq_true, if_false]
    split <;> rfl
  · rw [if_pos (.inr hindented)]

/-- On a line that starts a function there is a symbol if the header of the function is read. -/
theorem symbolAt_opening {f : FunctionDecl} (h : isIdentifier f.name = true) (first : Text) (more : List Text)
    (total : Nat) :
    symbolAt? ((opening f ++ first) :: more) total 0 =
      .ok ((functionAt? ((opening f ++ first) :: more) total false 0).map .function) := by
  have hopening := isSolid_opening h
  have hstrip := strip_append_right hopening.stripped hopening.ne_nil first
  have hstart : (functionStart? (strip (opening f ++ first))).isSome = true := by
    rw [hstrip, functionStart_opening h]
    rfl
  have hmargin : indentation (opening f ++ first) = 0 := by
    rw [indentation_append first (not_blank_of_strip hopening.stripped hopening.ne_nil)]
    unfold opening
    cases f.isAsync <;> rfl
  unfold symbolAt?
  simp only [List.getElem?_cons_zero, Option.getD_some, hstart, hmargin, if_true]
  rw [if_neg]
  rintro (hnil | hnot)
  · rw [hstrip] at hnil
    exact hopening.ne_nil (List.append_eq_nil_iff.mp hnil).1
  · exact hnot rfl

theorem symbolsOf_first {first : Text} {more : List Text} {d? : Option Decl}
    (hfirst : symbolAt? (first :: more) total 0 = .ok d?)
    (hmore : ∀ line ∈ more, IsInner line ∨ indentation line ≠ 0) : symbolsOf (first :: more) total = .ok d?.toList := by
  have hrest : ((List.range more.length).map Nat.succ).mapM (symbolAt? (first :: more) total) =
      .ok ((List.range more.length).map fun _ => none) := by
    rw [List.mapM_map, mapM_congr_of_mem (g := fun _ => .ok none)]
    · exact mapM_ok_const _ _
    · intro i hi
      have hlt := List.mem_range.mp hi
      have hline : (first :: more)[i + 1]? = some more[i] := by
        rw [List.getElem?_cons_succ, List.getElem?_eq_getElem hlt]
      exact symbolAt_none hline (hmore _ (List.getElem_mem hlt))
  unfold symbolsOf
  rw [List.length_cons, List.range_succ_eq_map, List.mapM_cons, hfirst, hrest]
  show Except.ok (List.filterMap id (d? :: _)) = _
  rw [List.filterMap_cons, List.filterMap_map]
  cases d? <;> simp

end

/-- The lines of a declaration: one that starts the function, and others that start nothing. -/
theorem lines_declaration {unknown : Text} {f : FunctionDecl} (h : IsPlainFunction unknown f) {l : Layout}
    (hl : l.Fits f) {indent ending : Text} (hindent : isBlankText indent = true) (hne : indent ≠ [])
    (hline : '\n' ∉ indent) (hending : ending = [] ∨ ending = ['\n']) :
    ∃ first more, Text.lines (declaration f.isAsync (l.signature unknown f) indent ending) = (opening f ++ first) :: more ∧
      ∀ line ∈ more, IsInner line ∨ indentation line ≠ 0 := by
  have hitems := isItems_pieces h hl
  have hopening := isSolid_opening h.named
  obtain ⟨hlast, -, -⟩ := resultText_cases h.returnType unknown
  have hcut := splitOn_append '\n'
    (opening f ++ assemble (listParts l.closing (')' :: resultText unknown f) (l.pieces unknown f)) ++ [':'])
    (indent ++ "pass".toList ++ ending)
  have hinner := inner_assemble _ (newline_not_mem hopening) (show '\n' ∉ [':'] by decide)
    (isPart_listParts hitems hl.closing hlast) (harmless_listParts hitems hl.closing (resultText unknown f) [':'])
  obtain ⟨first, more, hfirst⟩ := lines_append_line (newline_not_mem hopening)
    (assemble (listParts l.closing (')' :: resultText unknown f) (l.pieces unknown f)) ++ [':'])
  rw [← List.append_assoc] at hfirst
  rw [hfirst] at hinner
  have hpass : '\n' ∉ indent ++ "pass".toList := by
    rw [List.mem_append]
    exact not_or.mpr ⟨hline, by decide⟩
  have hindented : indentation (indent ++ "pass".toList) ≠ 0 := by
    obtain ⟨c, indent, rfl⟩ := List.exists_cons_of_ne_nil hne
    have hc : isBlank c = true := (Bool.and_eq_true_iff.mp hindent).1
    unfold indentation
    rw [List.cons_append, List.takeWhile_cons_of_pos hc]
    exact Nat.succ_ne_zero _
  have hbelow : ∀ line ∈ Text.lines (indent ++ "pass".toList ++ ending), IsInner line ∨ indentation line ≠ 0 := by
    have hone : Text.lines (indent ++ "pass".toList) = [indent ++ "pass".toList] := splitOn_of_not_mem hpass
    rcases hending with rfl | rfl
    · rw [List.append_nil, hone]
      exact List.forall_mem_singleton.mpr (.inr hindented)
    · have htwo : Text.lines (indent ++ "pass".toList ++ ['\n']) = [indent ++ "pass".toList, []] := by
        have := splitOn_append '\n' (indent ++ "pass".toList) []
        rw [splitOn_of_not_mem hpass] at this
        exact this
      rw [htwo]
      exact List.forall_mem_cons.mpr ⟨.inr hindented, List.forall_mem_singleton.mpr (.inl (.inl rfl))⟩
  refine ⟨first, more ++ Text.lines (indent ++ "pass".toList ++ ending), ?_, ?_⟩
  · rw [declaration_eq]
    rw [List.append_assoc _ [':'], List.singleton_append] at hcut
    exact hcut.trans (congrArg (· ++ _) hfirst)
  · exact List.forall_mem_append.mpr ⟨fun line hmem => .inl (hinner line hmem), hbelow⟩

/-! ## Reading back -/

section

variable {unknown : Text}

/-- A type that says nothing is left out, and is the word for "unknown" again. -/
theorem tidyOr_telling {type : Option Text} (hnormal : tidyOr unknown type = type) (hplain : ∀ t ∈ type, IsPlain t) :
    tidyOr unknown (telling? unknown type) = type := by
  cases type with
  | none => cases hnormal
  | some t =>
    have hne := (hplain t rfl).ne_nil
    by_cases ht : t = unknown
    · have hnone : telling? unknown (some t) = none := by simp [telling?, present?, ht]
      rw [hnone, ht]
      rfl
    · have htold : telling? unknown (some t) = some t := by simp [telling?, present?, hne, ht]
      rw [htold, hnormal]

/-- **The parameters in a signature read back.** -/
theorem parametersOf_signature {f : FunctionDecl} (h : IsPlainFunction unknown f) {t : Text}
    (ht : splitTopLevel ',' t = f.parameters.map (parameterText unknown)) :
    (parametersOf t).map (Parameter.normalize unknown) = f.parameters := by
  have hnormal : f.parameters.map (Parameter.normalize unknown) = f.parameters.map id := by
    rw [List.map_id]
    exact congrArg FunctionDecl.parameters h.normal
  have hkept : (f.parameters.map (parameterText unknown)).filter (fun piece => piece ≠ ['*'] ∧ piece ≠ ['/']) =
      f.parameters.map (parameterText unknown) := by
    refine List.filter_eq_self.mpr fun piece hpiece => ?_
    obtain ⟨p, hp, rfl⟩ := List.mem_map.mp hpiece
    obtain ⟨c, hc, hword⟩ := (h.parameters p hp).isName.word
    have hmem : c ∈ parameterText unknown p := List.mem_append_left _ (List.mem_append_left _ hc)
    refine decide_eq_true ⟨fun he => ?_, fun he => ?_⟩
    all_goals
      rw [he, List.mem_singleton] at hmem
      rw [hmem] at hword
      cases hword
  unfold parametersOf
  rw [ht, hkept, List.map_map, List.map_map]
  refine Eq.trans (List.map_congr_left fun p hp => ?_) (List.map_id _)
  have hp' := h.parameters p hp
  have hsame : p.normalize unknown = p := List.map_inj_left.mp hnormal p hp
  show (parameterOf (parameterText unknown p)).normalize unknown = p
  rw [parameterOf_parameterText hp' unknown]
  unfold Parameter.normalize at hsame ⊢
  have htype : tidyOr unknown p.type = p.type := congrArg Parameter.type hsame
  simp only [tidyOr_telling htype hp'.type]
  rw [htype] at hsame
  exact hsame

end

/-- **A signature reads back in any layout** that has no more lines than are looked at. -/
theorem layout_readsBack {f : FunctionDecl} (h : IsPlainFunction "Any".toList f) {l : Layout} (hl : l.Fits f)
    (hbreaks : l.breaks < maxHeaderLines) : ReadsBack f (l.signature "Any".toList f) := by
  intro path indent ending hindent hne hline hending
  obtain ⟨header, hheader, hname, hasync, hreturn, hparameters⟩ := read_signature h hl hbreaks indent ending
  obtain ⟨first, more, hlines, hmore⟩ := lines_declaration h hl hindent hne hline hending
  generalize hsource : declaration f.isAsync (l.signature "Any".toList f) indent ending = source at hheader hlines ⊢
  rw [hlines] at hheader
  generalize htotal : (boundaryLines source).length = total
  -- The first line is that of the function.
  obtain ⟨g, hg, hgname, hgasync, hgparameters, hgreturn⟩ : ∃ g,
      functionAt? ((opening f ++ first) :: more) total false 0 = some g ∧ g.name = f.name ∧ g.isAsync = f.isAsync ∧
        g.parameters = parametersOf header.parameters ∧ g.returnType = telling? "Any".toList f.returnType := by
    unfold functionAt?
    rw [List.drop_zero, hheader]
    exact ⟨_, rfl, hname, hasync, rfl, hreturn⟩
  have hsymbol : symbolAt? ((opening f ++ first) :: more) total 0 = .ok (some (.function g)) := by
    rw [symbolAt_opening h.named, hg]
    rfl
  have hsymbols := symbolsOf_first hsymbol hmore
  have houtline : (Extractor.builtIn .python).extract path source = .ok
      { path := path, language := Language.python.name, source := source, decls := [.function g]
        imports := importsOf ((opening f ++ first) :: more), exports := exportsOf ((opening f ++ first) :: more) } := by
    simp only [Extractor.extract, Extractor.builtIn, outlineOf, hlines, htotal, hsymbols, Except.map, Except.mapError,
      Option.toList_some]
  refine ⟨_, g.normalize "Any".toList, houtline, rfl, ?_, hgasync, ?_, ?_⟩
  · show strip g.name = f.name
    rw [hgname]
    exact (isName_identifier h.named).solid.stripped
  · show g.parameters.map (Parameter.normalize "Any".toList) = f.parameters
    rw [hgparameters]
    exact parametersOf_signature h hparameters
  · show tidyOr "Any".toList g.returnType = f.returnType
    rw [hgreturn]
    exact tidyOr_telling (congrArg FunctionDecl.returnType h.normal) h.returnType

/-! ## Signatures on one line -/

theorem signature_oneLine (unknown : Text) (f : FunctionDecl) :
    (Layout.oneLine f).signature unknown f = signature unknown f := by
  have hlist : joinWith [','] (((Layout.oneLine f).pieces unknown f).map fun (gap, t) => gap ++ t) =
      joinWith [',', ' '] (f.parameters.map (parameterText unknown)) := by
    unfold Layout.pieces Layout.oneLine
    cases f.parameters with
    | nil => rfl
    | cons p more =>
      simp only [List.map_cons, List.zip_cons_cons, List.zip_map', List.map_map, List.nil_append]
      rw [← joinWith_comma, List.map_map]
      rfl
  unfold Layout.signature signature
  rw [hlist]
  simp only [Layout.oneLine, List.append_nil, List.append_assoc, List.cons_append, List.nil_append]
  rfl

theorem fits_oneLine (f : FunctionDecl) : (Layout.oneLine f).Fits f := by
  unfold Layout.oneLine
  constructor
  case length => cases f.parameters <;> simp
  case before =>
    cases f.parameters with
    | nil => simp
    | cons p more =>
      refine List.forall_mem_cons.mpr ⟨rfl, fun gap hgap => ?_⟩
      obtain ⟨-, -, rfl⟩ := List.mem_map.mp hgap
      rfl
  case closing => rfl

theorem breaks_oneLine (f : FunctionDecl) : (Layout.oneLine f).breaks = 0 := by
  unfold Layout.breaks Layout.oneLine
  cases f.parameters with
  | nil => rfl
  | cons p more => simp [List.count_replicate]

/-- **The signature of a plain function reads back,** and so it does in any other layout that has no more lines than are
looked at. -/
theorem signature_readsBack (f : FunctionDecl) (h : IsPlainFunction "Any".toList f) :
    ReadsBack f (signature "Any".toList f) ∧
      ∀ l : Layout, l.Fits f → l.breaks < maxHeaderLines → ReadsBack f (l.signature "Any".toList f) := by
  refine ⟨?_, fun l hl hbreaks => layout_readsBack h hl hbreaks⟩
  rw [← signature_oneLine]
  exact layout_readsBack h (fits_oneLine f) (by rw [breaks_oneLine]; decide)

/-- A function with parameters of all kinds. -/
def sampleFunction : FunctionDecl where
  name := "fetch".toList
  parameters :=
    [{ name := "url".toList, type := some "str".toList },
      { name := "*parts".toList, type := some "Any".toList },
      { name := "limits".toList, type := some "dict[str, int]".toList, initial := some "f(a=1, b=[2])".toList
        isOptional := true }]
  returnType := some "list[bytes]".toList
  isAsync := true
  visibility := some "public".toList

/-- A layout with each parameter on a line of its own, and a blank line. -/
def sampleLayout : Layout where
  before := ["\n    ".toList, "\n\n    ".toList, "\n".toList]
  closing := "\n".toList

theorem signature_readsBack_sample :
    ReadsBack sampleFunction (signature "Any".toList sampleFunction) ∧
      ReadsBack sampleFunction (sampleLayout.signature "Any".toList sampleFunction) := by
  have h : IsPlainFunction "Any".toList sampleFunction := by
    refine ⟨by decide, by decide, ?_, fun t ht => by cases ht; decide⟩
    refine List.forall_mem_cons.mpr ⟨?_, List.forall_mem_cons.mpr ⟨?_, List.forall_mem_singleton.mpr ?_⟩⟩
    · exact ⟨⟨[], _, rfl, .inl rfl, by decide⟩, fun t ht => by cases ht; decide, by simp, rfl⟩
    · exact ⟨⟨['*'], "parts".toList, rfl, .inr (.inl rfl), by decide⟩, fun t ht => by cases ht; decide, by simp,
        rfl⟩
    · exact ⟨⟨[], _, rfl, .inl rfl, by decide⟩, fun t ht => by cases ht; decide,
        fun t ht => by cases ht; decide, rfl⟩
  obtain ⟨hone, hmany⟩ := signature_readsBack sampleFunction h
  exact ⟨hone, hmany sampleLayout ⟨rfl, by decide, by decide⟩ (by decide)⟩

end SourceDoc.Indented
