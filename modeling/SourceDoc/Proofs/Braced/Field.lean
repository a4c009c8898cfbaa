import SourceDoc.Braced.TypeDecl
import SourceDoc.Proofs.Braced.Body
import SourceDoc.Proofs.Braced.Grouping
import SourceDoc.Proofs.Braced.Remark

/-!
# Fields of structures

A field stands on one line: its names, its type, and perhaps a tag and a comment.  Whatever the tag and the comment
hold, the line is code that closes its own braces (`WrittenField.isCode_line`), and it is read as one property for each
name (`WrittenField.addField_line`).
-/

namespace SourceDoc.Braced

open Text

/-- A field as it is written.  A tag is a raw text behind blanks. -/
structure WrittenField where
  indent : Text
  names : List Text
  gap : Text
  type : Text
  tag : Option (Text × Text)
  remark : Option Remark

/-- A raw text behind blanks. -/
def tagText : Option (Text × Text) → Text
  | none => []
  | some (gap, t) => gap ++ ('\x60' :: t ++ ['\x60'])

namespace WrittenField

/-- The names as they are written. -/
def list (f : WrittenField) : Text := joinWith [',', ' '] f.names

/-- The names and the type. -/
def core (f : WrittenField) : Text := f.list ++ f.gap ++ f.type

/-- The line without its comment. -/
def code (f : WrittenField) : Text := f.indent ++ f.core ++ tagText f.tag

def line (f : WrittenField) : Text := f.code ++ remarkText f.remark

/-- The type has no quotes, no braces and no comments. -/
structure IsWritten (f : WrittenField) : Prop where
  indent : isBlankText f.indent = true
  names_ne : f.names ≠ []
  named : ∀ name ∈ f.names, isIdentifier name = true
  gap_ne : f.gap ≠ []
  gap : isBlankText f.gap = true
  type_ne : f.type ≠ []
  stripped : strip f.type = f.type
  unquoted : ∀ c ∈ f.type, isQuote c = false
  braceless : ∀ c ∈ f.type, c ≠ '\x7b' ∧ c ≠ '\x7d'
  bare : ¬ ['/', '/'] <:+: f.type ++ ['/']
  starless : ¬ ['/', '*'] <:+: f.type
  no_comma : ∀ c ∈ f.type.head?, c ≠ ','
  tag : ∀ t ∈ f.tag, isBlankText t.1 = true ∧ '\x60' ∉ t.2
  remark : ∀ r ∈ f.remark, isBlankText r.gap = true

/-- What can be checked of a field in order to know that it is written so. -/
theorem isWritten_of_check {f : WrittenField} (h : (isBlankText f.indent = true ∧ f.names ≠ [] ∧
    (∀ name ∈ f.names, isIdentifier name = true) ∧ f.gap ≠ [] ∧ isBlankText f.gap = true) ∧
    (f.type ≠ [] ∧ strip f.type = f.type ∧ (∀ c ∈ f.type, isQuote c = false) ∧
      (∀ c ∈ f.type, c ≠ '\x7b' ∧ c ≠ '\x7d') ∧ contains (f.type ++ ['/']) ['/', '/'] = false ∧
      contains f.type ['/', '*'] = false ∧ ∀ c ∈ f.type.head?, c ≠ ',') ∧
    (∀ t ∈ f.tag, isBlankText t.1 = true ∧ '\x60' ∉ t.2) ∧ ∀ r ∈ f.remark, isBlankText r.gap = true) :
    f.IsWritten := by
  obtain ⟨⟨hindent, hne, hnamed, hgapNe, hgap⟩, htype, htag, hremark⟩ := h
  obtain ⟨htypeNe, hstrip, hquote, hbrace, hbare, hstar, hcomma⟩ := htype
  exact ⟨hindent, hne, hnamed, hgapNe, hgap, htypeNe, hstrip, hquote, hbrace, not_infix_of_contains hbare,
    not_infix_of_contains hstar, hcomma, htag, hremark⟩

/-- The text of the comment, if there is any. -/
def note (f : WrittenField) : Option Text := f.remark.bind fun r => stripped? r.text

/-- One property for each name. -/
def properties (f : WrittenField) : List Property :=
  f.names.map fun name =>
    { name := name, type := some f.type, visibility := some (visibilityOf name), comments := f.note }

/-! ## Lists of names -/

/-- A list of names starts with the first of them, and perhaps with a comma behind it. -/
theorem joinWith_names {names : List Text} (hnamed : ∀ name ∈ names, isIdentifier name = true) (hne : names ≠ []) :
    ∃ name rest, isIdentifier name = true ∧ joinWith [',', ' '] names = name ++ rest ∧ ∀ c ∈ rest.head?, c = ',' := by
  obtain ⟨name, more, rfl⟩ := List.exists_cons_of_ne_nil hne
  have hname := hnamed name List.mem_cons_self
  cases more with
  | nil => exact ⟨name, [], hname, (List.append_nil name).symm, by simp⟩
  | cons name' more =>
    refine ⟨name, [',', ' '] ++ joinWith [',', ' '] (name' :: more), hname, ?_, by rintro c ⟨⟩; rfl⟩
    rw [joinWith_cons _ _ _ (List.cons_ne_nil _ _), List.append_assoc]

theorem head_joinWith_names {names : List Text} (hnamed : ∀ name ∈ names, isIdentifier name = true) (hne : names ≠ [])
    (rest : Text) : ∀ c ∈ (joinWith [',', ' '] names ++ rest).head?, isBlank c = false := by
  obtain ⟨name, more, hname, hnames, -⟩ := joinWith_names hnamed hne
  obtain ⟨c, word, rfl, hc, -⟩ := identifier_cases hname
  rw [hnames]
  rintro d ⟨⟩
  exact not_isBlank_of_isWord (isWord_of_isIdentStart hc)

theorem length_le_joinWith {names : List Text} (hnamed : ∀ name ∈ names, isIdentifier name = true) :
    names.length ≤ (joinWith [',', ' '] names).length := by
  induction names with
  | nil => exact Nat.le_refl 0
  | cons name more ih =>
    obtain ⟨hname, hmore⟩ := List.forall_mem_cons.mp hnamed
    have hpos := List.length_pos_of_ne_nil (strip_identifier hname).2
    by_cases hlast : more = []
    · rw [hlast]
      exact hpos
    · rw [joinWith_cons _ _ _ hlast]
      have := ih hmore
      simp only [List.length_cons, List.length_append, List.length_nil]
      omega

/-! ## The code of the line -/

section

variable {f : WrittenField} (h : f.IsWritten)

/-- A character of a list of names. -/
def isListed (c : Char) : Bool := isWord c || c = ',' || c = ' '

include h

theorem isListed_list : ∀ c ∈ f.list, isListed c = true :=
  forall_mem_joinWith (by decide) fun name hname c hc => by
    unfold isListed
    rw [isWord_of_isIdentifier (h.named name hname) c hc]
    rfl

theorem not_mem_list {c : Char} (hc : isListed c = false) : c ∉ f.list := fun hmem => by
  rw [isListed_list h c hmem] at hc
  cases hc

theorem isPassed_code : IsPassed f.code := by
  have hlist : IsPassed f.list :=
    isPassed_plain (fun c hc => (isInert_of_class (by decide) (isListed_list h c hc)).1) (not_mem_list h (by decide))
  have htype : IsPassed f.type := isPassed_unquoted h.unquoted h.bare
  have htag : IsPassed (tagText f.tag) := by
    cases ht : f.tag with
    | none => exact fun rest => rfl
    | some t => exact (isPassed_blank (h.tag t ht).1).append (isPassed_raw (h.tag t ht).2)
  exact ((isPassed_blank h.indent).append ((hlist.append (isPassed_blank h.gap)).append htype)).append htag

/-- Without its comment the line ends with blanks. -/
theorem uncommented_line : ∃ gap, isBlankText gap = true ∧ uncommented f.line = f.code ++ gap := by
  refine ⟨(f.remark.map Remark.gap).getD [], ?_, uncommented_remark (isPassed_code h) h.remark⟩
  cases hr : f.remark with
  | none => rfl
  | some r => exact h.remark r hr

/-- **The line closes its own braces.** -/
theorem isCode_line {rest : Text} (hline : '\n' ∉ f.line) (hrest : IsCode 0 rest) :
    IsCode 0 (f.line ++ '\n' :: rest) := by
  have hremark : IsCode 0 (remarkText f.remark ++ '\n' :: rest) := by
    cases hr : f.remark with
    | none => exact .plain _ _ (by decide) hrest
    | some r =>
      have htext : '\n' ∉ r.text := fun hmem => hline (by
        rw [line, hr]
        simp [remarkText, hmem])
      have hcomment := IsCode.lineComment r.text rest htext hrest
      rw [remarkText, List.append_assoc]
      exact .bare (not_codeMark_of_blank (h.remark r hr)) hcomment
  have htag : IsCode 0 (tagText f.tag ++ (remarkText f.remark ++ '\n' :: rest)) := by
    cases ht : f.tag with
    | none => exact hremark
    | some t =>
      have hraw := IsCode.raw t.2 _ (h.tag t ht).2 hremark
      have htext : tagText (some t) ++ (remarkText f.remark ++ '\n' :: rest) =
          t.1 ++ ('\x60' :: t.2 ++ '\x60' :: (remarkText f.remark ++ '\n' :: rest)) := by simp [tagText]
      rw [htext]
      exact .bare (not_codeMark_of_blank (h.tag t ht).1) hraw
  have hlist : ∀ c ∈ f.list, c ∉ codeMarks := fun c hc hmem => by
    have hmarks : ∀ d ∈ codeMarks, isListed d = false := by decide
    exact not_mem_list h (hmarks c hmem) hc
  simp only [line, code, core, List.append_assoc]
  refine .bare (not_codeMark_of_blank h.indent) (.bare hlist (.bare (not_codeMark_of_blank h.gap) ?_))
  exact .text h.unquoted h.braceless h.bare h.starless htag

/-! ## The member -/

theorem list_cons : ∃ name rest, isIdentifier name = true ∧ f.list = name ++ rest ∧ ∀ c ∈ rest.head?, c = ',' :=
  joinWith_names h.named h.names_ne

theorem strip_core : strip f.core = f.core ∧ f.core ≠ [] := by
  obtain ⟨name, rest, hname, hlist, -⟩ := list_cons h
  obtain ⟨hstrip, hne⟩ := strip_identifier hname
  have hcore : f.core = name ++ (rest ++ f.gap) ++ f.type := by simp [core, hlist]
  rw [hcore]
  exact ⟨strip_append_self hstrip hne h.stripped h.type_ne _, by simp [h.type_ne]⟩

theorem strip_code {gap : Text} (hgap : isBlankText gap = true) : strip (f.code ++ gap) = f.core ++ tagText f.tag := by
  obtain ⟨hcore, hne⟩ := strip_core h
  rw [strip_append_blank _ hgap, code, List.append_assoc, strip_blank_append _ h.indent]
  cases f.tag with
  | none => rw [tagText, List.append_nil, hcore]
  | some t =>
    have htag : f.core ++ tagText (some t) = f.core ++ (t.1 ++ ('\x60' :: t.2)) ++ ['\x60'] := by simp [tagText]
    rw [htag]
    exact strip_append_self hcore hne (by decide) (by decide) _

/-- What is left of the line without the tag. -/
theorem dropTag_code {gap : Text} (hgap : isBlankText gap = true) : dropTag (f.code ++ gap) = f.core := by
  obtain ⟨hcore, -⟩ := strip_core h
  unfold dropTag
  rw [strip_code h hgap]
  cases ht : f.tag with
  | none =>
    have hraw : '\x60' ∉ f.core := by
      have hblank : '\x60' ∉ f.gap := fun hmem => absurd (List.all_eq_true.mp h.gap _ hmem) (by decide)
      have htype : '\x60' ∉ f.type := fun hmem => absurd (h.unquoted _ hmem) (by decide)
      simp only [core, List.mem_append, not_or]
      exact ⟨⟨not_mem_list h (by decide), hblank⟩, htype⟩
    simp only [tagText, List.append_nil, breakLast_none hraw]
  | some t =>
    have htag : f.core ++ tagText (some t) = f.core ++ t.1 ++ '\x60' :: t.2 ++ ['\x60'] := by simp [tagText]
    rw [htag]
    simp only [breakLast_end]
    rw [breakLast_append (h.tag t ht).2]
    simp only [strip_append_blank _ (h.tag t ht).1, hcore]

theorem splitMember_line : splitMember f.line = (f.core, f.note) := by
  have huncommented := uncommented_remark (isPassed_code h) h.remark
  have hmember : ∀ {gap rest : Text}, f.line = f.code ++ gap ++ rest → uncommented f.line = f.code ++ gap →
      isBlankText gap = true → splitMember f.line =
        (f.core, if startsWith (strip rest) ['/', '/'] then stripped? ((strip rest).drop 2) else none) := by
    intro gap rest hline hcode hgap
    unfold splitMember
    rw [hcode]
    dsimp only
    rw [dropTag_code h hgap, hline, List.drop_left]
  cases hr : f.remark with
  | none =>
    rw [hr] at huncommented
    have hnote : f.note = none := by rw [note, hr]; rfl
    have hline : f.line = f.code ++ [] ++ [] := by simp [line, hr, remarkText]
    rw [hmember hline (by rw [line, hr]; exact huncommented) rfl, hnote]
    rfl
  | some r =>
    rw [hr] at huncommented
    have hcomment : strip ('/' :: '/' :: r.text) = ['/', '/'] ++ stripRight r.text :=
      strip_append_right (a := ['/', '/']) (by decide) (by decide) r.text
    have hstart : startsWith (['/', '/'] ++ stripRight r.text) ['/', '/'] = true := rfl
    have hnote : f.note = stripped? (stripRight r.text) := by
      rw [note, hr]
      show stripped? r.text = stripped? (stripRight r.text)
      unfold stripped?
      rw [strip_stripRight]
    have hline : f.line = f.code ++ r.gap ++ '/' :: '/' :: r.text := by simp [line, hr, remarkText]
    rw [hmember hline (by rw [line, hr]; exact huncommented) (h.remark r hr), hcomment, if_pos hstart, hnote]
    rfl

/-! ## Names and type -/

theorem isEmbedded_core : isEmbedded f.core = false := by
  obtain ⟨name, rest, hname, hlist, hrest⟩ := list_cons h
  obtain ⟨c, word, rfl, hc, hword⟩ := identifier_cases hname
  have hstar : dropHead ['*'] f.core = f.core := by
    have hne : c ≠ '*' := by
      rintro rfl
      cases hc
    unfold dropHead
    rw [if_neg]
    rw [List.isPrefixOf_iff_prefix, core, hlist]
    exact fun hp => hne (List.cons_prefix_cons.mp hp).1.symm
  have hcore : f.core = c :: (word ++ (rest ++ (f.gap ++ f.type))) := by simp [core, hlist]
  have hqualified : ∀ d ∈ word, isQualified d = true := fun d hd => by simp [isQualified, hword d hd]
  have hhead : ∀ d ∈ (rest ++ (f.gap ++ f.type)).head?, isQualified d = false ∧ d ≠ '[' := by
    intro d hd
    cases rest with
    | nil =>
      obtain ⟨b, gap, hgap⟩ := List.exists_cons_of_ne_nil h.gap_ne
      rw [List.nil_append, hgap] at hd
      cases hd
      have hblank : isBlank d = true := List.all_eq_true.mp h.gap d (hgap ▸ List.mem_cons_self)
      refine ⟨?_, ?_⟩
      · have hdot : d ≠ '.' := by
          rintro rfl
          cases hblank
        simp [isQualified, not_isWord_of_isBlank hblank, hdot]
      · rintro rfl
        cases hblank
    | cons b rest =>
      cases hd
      cases hrest d rfl
      decide
  obtain ⟨d, tail, htail⟩ : ∃ d tail, rest ++ (f.gap ++ f.type) = d :: tail :=
    List.exists_cons_of_ne_nil (by simp [h.type_ne])
  have hd := hhead d (by rw [htail]; rfl)
  have hsquare : afterSquare? (d :: tail) = none := by
    cases hs : afterSquare? (d :: tail) with
    | none => rfl
    | some u =>
      obtain ⟨inner, -, heq⟩ := eq_of_afterSquare hs
      exact absurd (List.cons.inj heq).1 hd.2
  unfold isEmbedded
  rw [hstar, hcore]
  simp only [hc, Bool.true_and]
  rw [List.dropWhile_append_of_pos hqualified, htail, List.dropWhile_cons_of_neg (by simp [hd.1])]
  simp [hsquare]

end

theorem nameListLengths_last {name rest : Text} (hname : isIdentifier name = true)
    (hrest : ∀ c ∈ rest.head?, isBlank c = true) (hcomma : ∀ c ∈ (stripLeft rest).head?, c ≠ ',') (bound length : Nat) :
    nameListLengths (bound + 1) length (name ++ rest) = [length + name.length] := by
  have hread : identifier? (name ++ rest) = some (name, rest) :=
    identifier_read hname fun c hc => not_isWord_of_isBlank (hrest c hc)
  rw [nameListLengths.eq_def, hread]
  simp only
  split
  · rename_i heq
    exact absurd rfl (hcomma ',' (by rw [heq]; rfl))
  · rfl

theorem nameListLengths_more {name next : Text} (hname : isIdentifier name = true)
    (hnext : ∀ c ∈ next.head?, isBlank c = false) (bound length : Nat) :
    nameListLengths (bound + 1) length (name ++ [',', ' '] ++ next) =
      nameListLengths bound (length + name.length + 2) next ++ [length + name.length] := by
  have hread : identifier? (name ++ (',' :: ' ' :: next)) = some (name, ',' :: ' ' :: next) :=
    identifier_read hname fun c hc => by
      cases hc
      rfl
  have hself : stripLeft next = next := (dropLeft_eq_self_iff isBlank next).mpr hnext
  have hleft : stripLeft (' ' :: next) = next := (stripLeft_blank_append next (s := [' ']) rfl).trans hself
  have hcomma : stripLeft (',' :: ' ' :: next) = ',' :: ' ' :: next := rfl
  have hwidth : (',' :: ' ' :: next).length - next.length = 2 := by
    simp only [List.length_cons]
    omega
  rw [List.append_assoc]
  show nameListLengths (bound + 1) length (name ++ (',' :: ' ' :: next)) = _
  rw [nameListLengths.eq_def, hread]
  simp only [hcomma, hleft, hwidth]

/-- The longest list of names at the front is the whole one. -/
theorem nameListLengths_list {names : List Text} (hnamed : ∀ name ∈ names, isIdentifier name = true) (hne : names ≠ [])
    {rest : Text} (hrest : ∀ c ∈ rest.head?, isBlank c = true) (hcomma : ∀ c ∈ (stripLeft rest).head?, c ≠ ',')
    {bound : Nat} (hbound : names.length ≤ bound) (length : Nat) :
    ∃ more, nameListLengths bound length (joinWith [',', ' '] names ++ rest) =
      (length + (joinWith [',', ' '] names).length) :: more := by
  induction names generalizing bound length with
  | nil => exact absurd rfl hne
  | cons name names ih =>
    obtain ⟨bound, rfl⟩ : ∃ n, bound = n + 1 := ⟨bound - 1, by simp at hbound; omega⟩
    obtain ⟨hname, hnamed⟩ := List.forall_mem_cons.mp hnamed
    by_cases hlast : names = []
    · subst hlast
      exact ⟨[], nameListLengths_last hname hrest hcomma bound length⟩
    · have hbound' : names.length ≤ bound := Nat.le_of_succ_le_succ hbound
      obtain ⟨more, hmore⟩ := ih hnamed hlast hbound' (length + name.length + 2)
      have hhead := head_joinWith_names hnamed hlast rest
      refine ⟨more ++ [length + name.length], ?_⟩
      rw [joinWith_cons _ _ _ hlast, List.append_assoc _ _ rest, nameListLengths_more hname hhead, hmore]
      simp only [List.length_append, List.length_cons, List.length_nil, List.cons_append]
      congr 1
      omega

section

variable {f : WrittenField} (h : f.IsWritten)

include h

theorem field_core : field? f.core = some (f.list, f.type) := by
  obtain ⟨b, gap, hgap⟩ := List.exists_cons_of_ne_nil h.gap_ne
  have hblank : isBlank b = true := List.all_eq_true.mp h.gap b (hgap ▸ List.mem_cons_self)
  have hcore : f.core = joinWith [',', ' '] f.names ++ (f.gap ++ f.type) := List.append_assoc _ _ _
  have hrest : ∀ c ∈ (f.gap ++ f.type).head?, isBlank c = true := by
    rw [hgap]
    rintro c ⟨⟩
    exact hblank
  have hcomma : ∀ c ∈ (stripLeft (f.gap ++ f.type)).head?, c ≠ ',' := by
    rw [stripLeft_blank_append _ h.gap, stripLeft_of_strip h.stripped]
    exact h.no_comma
  have hbound : f.names.length ≤ f.core.length := by
    have := length_le_joinWith h.named
    rw [hcore, List.length_append]
    omega
  obtain ⟨more, hlengths⟩ := nameListLengths_list h.named h.names_ne hrest hcomma hbound 0
  have hbehind : ((f.core.drop (joinWith [',', ' '] f.names).length).head?).any isBlank = true := by
    rw [hcore, List.drop_left, hgap]
    exact hblank
  rw [← hcore, Nat.zero_add] at hlengths
  unfold field?
  rw [hlengths, List.find?_cons, hbehind, Option.map_some, hcore, List.take_left, List.drop_left,
    strip_blank_append _ h.gap, h.stripped]
  rfl

/-- **A field is read as one property for each name.** -/
theorem addField_line (found : List Property × List Text) :
    addField found f.line = (found.1 ++ f.properties, found.2) := by
  obtain ⟨name, rest, hname, hlist, -⟩ := list_cons h
  obtain ⟨c, word, rfl, hc, -⟩ := identifier_cases hname
  have hnot : ¬ (f.core = [] ∨ startsWith f.core ['/', '*'] = true ∨ startsWith f.core ['\x7d'] = true) := by
    have hcore : f.core = c :: (word ++ rest ++ f.gap ++ f.type) := by simp [core, hlist]
    rw [hcore]
    rintro (hnil | hstart | hstart)
    · cases hnil
    · obtain ⟨rfl, -⟩ := List.cons_prefix_cons.mp (List.isPrefixOf_iff_prefix.mp hstart)
      cases hc
    · obtain ⟨rfl, -⟩ := List.cons_prefix_cons.mp (List.isPrefixOf_iff_prefix.mp hstart)
      cases hc
  have hnames : splitTopLevel ',' f.list = f.names :=
    splitTopLevel_items fun name hname => isListItem_name (h.named name hname)
  unfold addField
  simp only [splitMember_line h, if_neg hnot, isEmbedded_core h, Bool.false_eq_true, if_false, field_core h, hnames]
  rfl

end

end WrittenField

end SourceDoc.Braced
