import SourceDoc.Proofs.Braced.Field
import SourceDoc.Proofs.Braced.Start

/-!
# Structures read back

A structure is written with a field on each line.  The search for its last line knows that a brace in a tag or a comment
is none, and always finds the brace below the fields.  The search for its fields counts the braces of tags too, so it
loses fields behind a tag that does not close what it opens (`bodyFrom_fields`); and a brace in the comment of the header
makes it look for the fields in that comment (`bodyOf_comment`).  Every other structure is found with all its fields
(`extract_struct`).
-/

namespace SourceDoc.Braced

open Text

/-! ## Braces of tags -/

/-- How many more braces the tag opens than it closes. -/
def WrittenField.excess (f : WrittenField) : Int := (f.tag.map fun t => Braced.excess t.2).getD 0

theorem WrittenField.excess_code {f : WrittenField} (h : f.IsWritten) {gap : Text} (hgap : isBlankText gap = true) :
    Braced.excess (f.code ++ gap) = f.excess := by
  have hblank : ∀ {t : Text}, isBlankText t = true → Braced.excess t = 0 := fun ht =>
    excess_class (p := isBlank) (by decide) fun c hc => List.all_eq_true.mp ht c hc
  have hlist : Braced.excess f.list = 0 := excess_class (p := isListed) (by decide) (isListed_list h)
  have htag : Braced.excess (tagText f.tag) = f.excess := by
    unfold WrittenField.excess
    cases ht : f.tag with
    | none => rfl
    | some t =>
      have hquote : Braced.excess ['\x60'] = 0 := rfl
      rw [tagText, ← List.singleton_append, excess_append, excess_append, excess_append, hblank (h.tag t ht).1, hquote]
      simp
  simp only [code, core, excess_append, hblank h.indent, hlist, hblank h.gap, excess_bare h.braceless, htag, hblank hgap]
  omega

/-! ## The fields that are kept -/

/-- The fields that are found where some braces are open: only where one is, and none below a line that closes it. -/
def kept (depth : Int) : List WrittenField → List WrittenField
  | [] => []
  | f :: fields =>
    (if depth = 1 then [f] else []) ++ if depth + f.excess ≤ 0 then [] else kept (depth + f.excess) fields

theorem kept_sublist (depth : Int) (fields : List WrittenField) : (kept depth fields).Sublist fields := by
  induction fields generalizing depth with
  | nil => exact .refl _
  | cons f fields ih =>
    have hmore : (if depth + f.excess ≤ 0 then [] else kept (depth + f.excess) fields).Sublist fields := by
      split
      · exact List.nil_sublist _
      · exact ih _
    rw [kept]
    split
    · exact hmore.cons_cons f
    · exact hmore.cons f

/-- Where not just one brace is open, the next field is lost. -/
theorem length_kept_lt {depth : Int} (h : depth ≠ 1) (f : WrittenField) (fields : List WrittenField) :
    (kept depth (f :: fields)).length < (f :: fields).length := by
  rw [kept, if_neg h, List.nil_append]
  split
  · exact Nat.zero_lt_succ _
  · exact Nat.lt_succ_of_le (kept_sublist _ fields).length_le

/-- **All fields are kept exactly if every tag but the last closes the braces that it opens.** -/
theorem kept_eq_iff (fields : List WrittenField) : kept 1 fields = fields ↔ ∀ f ∈ fields.dropLast, f.excess = 0 := by
  induction fields with
  | nil => simp [kept]
  | cons f fields ih =>
    cases fields with
    | nil =>
      rw [kept, if_pos rfl]
      simp [kept]
    | cons f' fields =>
      rw [kept, if_pos rfl, List.dropLast_cons_cons, List.forall_mem_cons, ← ih]
      by_cases heven : f.excess = 0
      · rw [heven]
        simp
      · refine iff_of_false (fun hall => ?_) fun hall => heven hall.1
        have hmore := (List.cons.inj hall).2
        split at hmore
        · cases hmore
        · have hdepth : 1 + f.excess ≠ 1 := by omega
          have hlost := length_kept_lt hdepth f' fields
          rw [show kept (1 + f.excess) (f' :: fields) = f' :: fields from hmore] at hlost
          exact absurd hlost (Nat.lt_irrefl _)

theorem length_properties_le {fields fields' : List WrittenField} (h : fields.Sublist fields') :
    (fields.flatMap WrittenField.properties).length ≤ (fields'.flatMap WrittenField.properties).length := by
  induction h with
  | slnil => exact Nat.le_refl 0
  | cons f hsub ih =>
    rw [List.flatMap_cons, List.length_append]
    omega
  | cons_cons f hsub ih =>
    rw [List.flatMap_cons, List.flatMap_cons, List.length_append, List.length_append]
    omega

/-- Fewer fields have fewer properties. -/
theorem length_properties_lt {fields fields' : List WrittenField} (h : fields.Sublist fields')
    (hlength : fields.length < fields'.length) (hnames : ∀ f ∈ fields', f.names ≠ []) :
    (fields.flatMap WrittenField.properties).length < (fields'.flatMap WrittenField.properties).length := by
  induction h with
  | slnil => exact absurd hlength (Nat.lt_irrefl _)
  | cons f hsub ih =>
    have hpos : 0 < f.properties.length := by
      rw [WrittenField.properties, List.length_map]
      exact List.length_pos_of_ne_nil (hnames f List.mem_cons_self)
    have := length_properties_le hsub
    rw [List.flatMap_cons, List.length_append]
    omega
  | cons_cons f hsub ih =>
    have := ih (Nat.lt_of_succ_lt_succ hlength) fun f' hf' => hnames f' (List.mem_cons_of_mem _ hf')
    rw [List.flatMap_cons, List.flatMap_cons, List.length_append, List.length_append]
    omega

theorem properties_kept_iff {fields : List WrittenField} (hnames : ∀ f ∈ fields, f.names ≠ []) :
    (kept 1 fields).flatMap WrittenField.properties = fields.flatMap WrittenField.properties ↔
      ∀ f ∈ fields.dropLast, f.excess = 0 := by
  rw [← kept_eq_iff]
  constructor
  · intro hsame
    have hsub := kept_sublist 1 fields
    rcases Nat.lt_or_ge (kept 1 fields).length fields.length with hlt | hge
    · have hfewer := length_properties_lt hsub hlt hnames
      rw [hsame] at hfewer
      exact absurd hfewer (Nat.lt_irrefl _)
    · exact hsub.eq_of_length_le hge
  · intro hall
    rw [hall]

/-! ## The members of the body -/

/-- The brace below the fields is no member. -/
theorem bodyFrom_brace (depth : Int) (i : Nat) : bodyFrom depth i [['\x7d']] = [] := by
  have hcode : uncommented ['\x7d'] = ['\x7d'] ∧ strip ['\x7d'] = ['\x7d'] := by decide
  rw [bodyFrom]
  simp [hcode, bodyFrom]

/-- **The members are the lines of the fields that are kept.** -/
theorem bodyFrom_fields {fields : List WrittenField} (h : ∀ f ∈ fields, f.IsWritten) (depth : Int) (i : Nat) :
    (bodyFrom depth i (fields.map WrittenField.line ++ [['\x7d']])).map Prod.snd =
      (kept depth fields).map WrittenField.line := by
  induction fields generalizing depth i with
  | nil => rw [List.map_nil, List.nil_append, bodyFrom_brace]; rfl
  | cons f fields ih =>
    obtain ⟨hf, hfields⟩ := List.forall_mem_cons.mp h
    obtain ⟨gap, hgap, hcode⟩ := WrittenField.uncommented_line hf
    have hnot : strip (f.code ++ gap) ≠ ['\x7d'] := by
      obtain ⟨name, rest, hname, hlist, -⟩ := WrittenField.list_cons hf
      obtain ⟨c, word, rfl, hc, -⟩ := identifier_cases hname
      rw [WrittenField.strip_code hf hgap, WrittenField.core, hlist]
      intro heq
      obtain ⟨rfl, -⟩ := List.cons.inj heq
      cases hc
    have hhere : ((if depth = 1 ∧ strip (f.code ++ gap) ≠ ['\x7d'] then [(i, f.line)] else []).map Prod.snd) =
        (if depth = 1 then [f] else []).map WrittenField.line := by
      by_cases hdepth : depth = 1
      · rw [if_pos ⟨hdepth, hnot⟩, if_pos hdepth]
        rfl
      · rw [if_neg fun hand => hdepth hand.1, if_neg hdepth]
        rfl
    rw [List.map_cons, List.cons_append, bodyFrom, hcode, kept]
    simp only [depthAfter_eq, WrittenField.excess_code hf hgap]
    rw [List.map_append, ← hhere]
    by_cases hend : depth + f.excess ≤ 0
    · rw [if_pos hend, if_pos hend, List.map_nil, List.append_nil]
    · rw [if_neg hend, if_neg hend, List.map_append, ih hfields]

/-- All fields are added. -/
theorem addField_fields {fields : List WrittenField} (h : ∀ f ∈ fields, f.IsWritten)
    (found : List Property × List Text) :
    (fields.map WrittenField.line).foldl addField found =
      (found.1 ++ fields.flatMap WrittenField.properties, found.2) := by
  induction fields generalizing found with
  | nil => simp
  | cons f fields ih =>
    obtain ⟨hf, hfields⟩ := List.forall_mem_cons.mp h
    rw [List.map_cons, List.foldl_cons, WrittenField.addField_line hf, ih hfields, List.flatMap_cons, List.append_assoc]

/-- A comment alone is no member. -/
theorem addField_comment {gap : Text} (hgap : isBlankText gap = true) (t : Text) (found : List Property × List Text) :
    addField found (gap ++ '/' :: '/' :: t) = found := by
  have hcode : uncommented (gap ++ '/' :: '/' :: t) = gap := by
    have hpassed : IsPassed [] := fun rest => rfl
    have hremark : ∀ r ∈ some (⟨gap, t⟩ : Remark), isBlankText r.gap = true := by
      rintro r ⟨⟩
      exact hgap
    exact uncommented_remark hpassed hremark
  have htag : dropTag gap = [] := by
    unfold dropTag
    rw [(strip_eq_nil_iff gap).mpr hgap]
    rfl
  have hmember : (splitMember (gap ++ '/' :: '/' :: t)).1 = [] := by
    unfold splitMember
    dsimp only
    rw [hcode, htag]
  unfold addField
  rw [show splitMember (gap ++ '/' :: '/' :: t) = ([], _) from Prod.ext hmember rfl]
  exact if_pos (.inl rfl)

/-! ## Structures -/

/-- A structure as it is written: a header, perhaps with a comment, a field on each line, and a brace. -/
structure WrittenStruct where
  name : Text
  remark : Option Remark
  fields : List WrittenField

namespace WrittenStruct

def header (s : WrittenStruct) : Text := "type".toList ++ ' ' :: (headerText s.name .struct ++ remarkText s.remark)

def body (s : WrittenStruct) : List Text := s.fields.map WrittenField.line

def lines (s : WrittenStruct) : List Text := s.header :: (s.body ++ [['\x7d']])

structure IsWritten (s : WrittenStruct) : Prop where
  named : isIdentifier s.name = true
  remark : ∀ r ∈ s.remark, isBlankText r.gap = true
  fields : ∀ f ∈ s.fields, f.IsWritten

/-- The text in front of the brace of the header. -/
def front (s : WrittenStruct) : Text := "type".toList ++ ' ' :: (s.name ++ [' '])

theorem header_eq (s : WrittenStruct) :
    s.header = s.front ++ BodyKind.struct.word ++ (' ' :: '\x7b' :: remarkText s.remark) := by
  simp [header, front, headerText]

variable {s : WrittenStruct} (h : s.IsWritten)

include h

/-- The first brace of the header is that of the body. -/
theorem not_mem_front : '\x7b' ∉ s.front := by
  have hname : '\x7b' ∉ s.name := fun hmem => absurd (isWord_of_isIdentifier h.named _ hmem) (by decide)
  simp [front, hname]

omit s h in
/-- Fields are code that closes its own braces. -/
theorem isCode_fields {fields : List WrittenField} (h : ∀ f ∈ fields, f.IsWritten)
    (hline : ∀ l ∈ fields.map WrittenField.line, '\n' ∉ l) : IsCode 0 (textOf (fields.map WrittenField.line)) := by
  induction fields with
  | nil => exact .nil
  | cons f fields ih =>
    obtain ⟨hf, hfields⟩ := List.forall_mem_cons.mp h
    obtain ⟨hone, hmore⟩ := List.forall_mem_cons.mp hline
    have hrest := WrittenField.isCode_line hf hone (ih hfields hmore)
    have htext : textOf ((f :: fields).map WrittenField.line) =
        f.line ++ '\n' :: textOf (fields.map WrittenField.line) := by simp [textOf]
    rw [htext]
    exact hrest

/-- **The structure ends with the brace below its fields.** -/
theorem typeAt_lines {lines above below : List Text} (hlines : lines = above ++ (s.lines ++ below))
    (hline : ∀ l ∈ lines, '\n' ∉ l) (total : Nat) :
    typeAt lines total above.length s.name .struct = .ok (typeWith s.name .struct
      (membersBehind above.length (remarkText s.remark) (s.body ++ [['\x7d']])) (above.length + 1)
      (above.length + s.fields.length + 2) (leadingComments lines above.length)) := by
  have hblock : lines = above ++ (s.front ++ BodyKind.struct.word ++ (' ' :: '\x7b' :: remarkText s.remark)) ::
      ((s.body ++ [['\x7d']]) ++ below) := by
    rw [hlines, WrittenStruct.lines, header_eq]
    rfl
  have hbody : ∀ l ∈ s.body ++ ([] ++ ['\x7d']) :: below, '\n' ∉ l := fun l hl => hline l (by
    rw [hblock]
    exact List.mem_append_right _ (List.mem_cons_of_mem _ (by simpa using hl)))
  have hfields : ∀ l ∈ s.body, '\n' ∉ l := fun l hl => hbody l (List.mem_append_left _ hl)
  have hlength : s.body.length = s.fields.length := List.length_map _
  have hclosing : Progress.linesToClosing? ⟨1, .code⟩ ((s.body ++ [['\x7d']]) ++ below) = some s.fields.length := by
    rw [← hlength, List.append_assoc]
    exact linesToClosing_body rfl (isCode_fields h.fields hfields) hbody
  exact typeAt_block hblock (not_mem_front h) (line_remark h.remark 1) hclosing (by simp [hlength]) total s.name

/-- Without a brace in the comment of the header the members stand below it. -/
theorem membersBehind_below (hremark : ∀ r ∈ s.remark, '\x7d' ∉ r.text) (i : Nat) (body : List Text) :
    membersBehind i (remarkText s.remark) body = bodyFrom 1 (i + 1) body := by
  have hbare : '\x7d' ∉ remarkText s.remark := by
    cases hr : s.remark with
    | none => exact List.not_mem_nil
    | some r =>
      have hgap : '\x7d' ∉ r.gap := fun hmem => absurd (List.all_eq_true.mp (h.remark r hr) _ hmem) (by decide)
      simp [remarkText, hgap, hremark r hr]
  unfold membersBehind
  rw [breakLast_none hbare]

omit h in
/-- **With a brace in the comment of the header the members are looked for in the comment.** -/
theorem membersBehind_comment {r : Remark} (hr : s.remark = some r) {comment back : Text}
    (htext : r.text = comment ++ '\x7d' :: back) (hback : '\x7d' ∉ back) (i : Nat) (body : List Text) :
    membersBehind i (remarkText s.remark) body =
      ((splitOn ';' (r.gap ++ '/' :: '/' :: comment)).filter (!isBlankText ·)).map fun part => (i, part) := by
  have hcut : remarkText s.remark = (r.gap ++ '/' :: '/' :: comment) ++ '\x7d' :: back := by
    rw [hr, remarkText, htext]
    simp
  unfold membersBehind
  rw [hcut, breakLast_append hback]

/-- **What is read of a structure:** its span, and its fields as far as the search for them finds them. -/
theorem typeAt_struct {lines above below : List Text} (hlines : lines = above ++ (s.lines ++ below))
    (hline : ∀ l ∈ lines, '\n' ∉ l) (total : Nat) {t : SourceDoc.TypeDecl}
    (ht : typeAt lines total above.length s.name .struct = .ok t) :
    t.endLine = above.length + s.fields.length + 2 ∧
      ((∀ r ∈ s.remark, '\x7d' ∉ r.text) →
        t.superType = none ∧ t.properties = (kept 1 s.fields).flatMap WrittenField.properties) ∧
      ∀ r ∈ s.remark, ∀ comment back, r.text = comment ++ '\x7d' :: back → '\x7d' ∉ back → ';' ∉ comment →
        t.superType = none ∧ t.properties = [] := by
  rw [typeAt_lines h hlines hline total] at ht
  cases ht
  refine ⟨rfl, fun hremark => ?_, fun r hr comment back htext hback hcomment => ?_⟩
  · have hkept : ∀ f ∈ kept 1 s.fields, f.IsWritten := fun f hf => h.fields f ((kept_sublist 1 s.fields).subset hf)
    simp only [typeWith, membersOf, membersBehind_below h hremark, body, bodyFrom_fields h.fields, addField_fields hkept]
    exact ⟨rfl, rfl⟩
  · have hgap := h.remark r hr
    have hbare : ';' ∉ r.gap ++ '/' :: '/' :: comment := by
      have hblank : ';' ∉ r.gap := fun hmem => absurd (List.all_eq_true.mp hgap _ hmem) (by decide)
      simp [hblank, hcomment]
    have hpart : isBlankText (r.gap ++ '/' :: '/' :: comment) = false := by
      rw [isBlankText_append, hgap]
      rfl
    unfold typeWith
    rw [membersBehind_comment hr htext hback, splitOn_of_not_mem hbare, List.filter_cons_of_pos (by simp [hpart]),
      List.filter_nil, membersOf]
    show (addField ([], []) _).2.head? = none ∧ (addField ([], []) _).1 = []
    rw [addField_comment hgap]
    exact ⟨rfl, rfl⟩

end WrittenStruct

/-- **A structure with a field on each line is found with its span, whatever its tags and comments hold.**  Without a
closing brace in the comment of its header it has the fields that are written, each name with its type, its visibility
and its comment, exactly if every tag but that of the last field opens and closes as many braces; else fields are lost.
With such a brace, and no semicolon before the last one, it has no fields at all. -/
theorem extract_struct (s : WrittenStruct) (h : s.IsWritten) (path source : Text) (above below : List Text)
    (hlines : Text.lines source = above ++ (s.lines ++ below)) :
    ∃ o t, (Extractor.builtIn .go).extract path source = .ok o ∧ typesOn o (above.length + 1) = [t] ∧
      t.name = s.name ∧ t.kind = "struct".toList ∧ t.endLine = above.length + s.fields.length + 2 ∧
      ((∀ r ∈ s.remark, '\x7d' ∉ r.text) → t.superType = none ∧
        t.properties = (kept 1 s.fields).flatMap WrittenField.properties ∧
        (t.properties = s.fields.flatMap WrittenField.properties ↔ ∀ f ∈ s.fields.dropLast, f.excess = 0)) ∧
      ∀ r ∈ s.remark, ∀ comment back, r.text = comment ++ '\x7d' :: back → '\x7d' ∉ back → ';' ∉ comment →
        t.superType = none ∧ t.properties = [] := by
  obtain ⟨o, types, ho, hholds⟩ := extract_holds path source
  have hstart : startOn? (above.foldl groupAfter false) s.header = some (s.name, .struct) :=
    startOn_declared h.named _ _
  have hheader : Text.lines source = above ++ s.header :: (s.body ++ [['\x7d']] ++ below) := hlines
  obtain ⟨t, hat, hone⟩ := hholds.typesOn_eq hheader hstart
  obtain ⟨hname, hkind, -⟩ := typeAt_cases hat
  obtain ⟨hend, hbelow, hcomment⟩ := WrittenStruct.typeAt_struct h hlines (fun l => not_mem_of_mem_splitOn) _ hat
  refine ⟨o, attach o.functions t, ho, hone, hname, hkind, hend, fun hremark => ?_, hcomment⟩
  obtain ⟨hsuper, hproperties⟩ := hbelow hremark
  refine ⟨hsuper, hproperties, ?_⟩
  have hattached : (attach o.functions t).properties = (kept 1 s.fields).flatMap WrittenField.properties := hproperties
  rw [hattached]
  exact properties_kept_iff fun f hf => (h.fields f hf).names_ne

namespace Sample

/-- Two names with one type, a tag with a pair of braces, and comments on two lines. -/
def point : WrittenStruct where
  name := "Point".toList
  remark := some ⟨[' '], " on a plane".toList⟩
  fields :=
    [{ indent := ['\t'], names := ["X".toList, "y".toList], gap := [' '], type := "[]int".toList
       tag := some ([' '], "json:\"\x7bn\x7d\"".toList), remark := some ⟨[' '], " in pixels".toList⟩ },
     { indent := ['\t'], names := ["Label".toList], gap := [' '], type := "string".toList, tag := none, remark := none }]

theorem point_isWritten : point.IsWritten :=
  ⟨by decide, by decide, List.forall_mem_cons.mpr ⟨WrittenField.isWritten_of_check (by decide),
    List.forall_mem_singleton.mpr (WrittenField.isWritten_of_check (by decide))⟩⟩

/-- The tag of the first field opens a brace and does not close it. -/
def tagged : WrittenStruct where
  name := ['T']
  remark := none
  fields :=
    [{ indent := ['\t'], names := [['A']], gap := [' '], type := "int".toList
       tag := some ([' '], "json:\"\x7b\"".toList), remark := none },
     { indent := ['\t'], names := [['B']], gap := [' '], type := "int".toList, tag := none, remark := none }]

theorem tagged_isWritten : tagged.IsWritten :=
  ⟨by decide, by decide, List.forall_mem_cons.mpr ⟨WrittenField.isWritten_of_check (by decide),
    List.forall_mem_singleton.mpr (WrittenField.isWritten_of_check (by decide))⟩⟩

end Sample

theorem extract_struct_point : Sample.point.IsWritten ∧
    ∃ o t, (Extractor.builtIn .go).extract "a.go".toList (joinLines Sample.point.lines ++ ['\n']) = .ok o ∧
      typesOn o 1 = [t] ∧ t.endLine = 4 ∧ t.superType = none ∧
      t.properties = Sample.point.fields.flatMap WrittenField.properties := by
  obtain ⟨o, t, ho, hone, -, -, hend, hfields, -⟩ := extract_struct Sample.point Sample.point_isWritten "a.go".toList
    (joinLines Sample.point.lines ++ ['\n']) [] [[]] (by decide)
  obtain ⟨hsuper, -, hall⟩ := hfields (by decide)
  exact ⟨Sample.point_isWritten, o, t, ho, hone, hend, hsuper, hall.mpr (by decide)⟩

/-- The field behind a tag with a brace is lost. -/
theorem extract_tagged : Sample.tagged.IsWritten ∧
    ∃ o t, (Extractor.builtIn .go).extract "a.go".toList (joinLines Sample.tagged.lines ++ ['\n']) = .ok o ∧
      typesOn o 1 = [t] ∧ t.properties.map Property.name = [['A']] ∧
      t.properties ≠ Sample.tagged.fields.flatMap WrittenField.properties := by
  have hlines : Text.lines (joinLines Sample.tagged.lines ++ ['\n']) = [] ++ (Sample.tagged.lines ++ [[]]) := by decide
  have hstart : startOn? false Sample.tagged.header = some (['T'], .struct) := startOn_declared (by decide) _ _
  obtain ⟨o, types, ho, hholds⟩ := extract_holds "a.go".toList (joinLines Sample.tagged.lines ++ ['\n'])
  obtain ⟨t, hat, hone⟩ := hholds.typesOn_eq hlines hstart
  obtain ⟨-, hbelow, -⟩ := WrittenStruct.typeAt_struct Sample.tagged_isWritten hlines
    (fun l => not_mem_of_mem_splitOn) _ hat
  have hproperties : t.properties = (kept 1 Sample.tagged.fields).flatMap WrittenField.properties :=
    (hbelow (by decide)).2
  refine ⟨Sample.tagged_isWritten, o, attach o.functions t, ho, hone, ?_, ?_⟩
  · show t.properties.map Property.name = [['A']]
    rw [hproperties]
    rfl
  · show t.properties ≠ Sample.tagged.fields.flatMap WrittenField.properties
    rw [hproperties]
    decide

end SourceDoc.Braced
