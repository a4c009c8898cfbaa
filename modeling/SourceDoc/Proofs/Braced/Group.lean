import SourceDoc.Proofs.Braced.Padded
import SourceDoc.Proofs.Braced.Start

/-!
# Groups of types

Types with members may be declared in a group, each further to the right, or each by itself at the left margin.  In both
forms the same is read of each of them (`typeAt_form`).  But every line of an open group may start a type, so a group
also has the types of fields that are written out in a body (`map_typeStartsFrom_forms`); only without such fields have
the two forms the same types (`extract_group`).
-/

namespace SourceDoc.Braced

open Text

/-! ## Types as they are written -/

/-- The line has nothing but a comment, or nothing at all. -/
def IsNote (line : Text) : Prop := (commentOnLine? line).isSome = true ∨ isBlankText line = true

/-- A type with members as it is written: the comments and the blank lines above it, its header, perhaps with a comment,
and the lines of its body. -/
structure WrittenType where
  notes : List Text
  name : Text
  kind : BodyKind
  remark : Option Remark
  body : List Text

namespace WrittenType

def header (t : WrittenType) : Text := headerText t.name t.kind ++ remarkText t.remark

structure IsWritten (t : WrittenType) : Prop where
  notes : ∀ line ∈ t.notes, IsNote line
  named : isIdentifier t.name = true
  remark : ∀ r ∈ t.remark, isBlankText r.gap = true
  indented : ∀ line ∈ t.body, line = [] ∨ isIndented line = true
  code : IsCode 0 (textOf t.body)

/-- The lines of the body that would start a type by themselves. -/
def nested (t : WrittenType) : List (Text × BodyKind) := t.body.filterMap fun line => typeStart? (strip line)

/-- What is read of the type, without its place. -/
def decl (t : WrittenType) : SourceDoc.TypeDecl :=
  (typeWith t.name t.kind (membersBehind 0 (remarkText t.remark) (t.body ++ [['\x7d']])) 1 (t.body.length + 2)
    (joinComments (commentsAbove t.notes.reverse).reverse)).unplaced

end WrittenType

/-- What stands in front of a header: blanks in a group, and else the word for types. -/
inductive IsFront : Bool → Text → Prop
  | indented {pad : Text} (hpad : isBlankText pad = true) (hne : pad ≠ []) : IsFront true pad
  | declared : IsFront false "type ".toList

/-- The lines of a type in a group, or by itself; all but the header may stand further to the right. -/
inductive IsForm (inGroup : Bool) (t : WrittenType) : List Text → Prop
  | intro {front pad : Text} {notes body : List Text} (hfront : IsFront inGroup front)
      (hnotes : PaddedLines t.notes notes) (hbody : PaddedLines t.body body) (hpad : isBlankText pad = true) :
      IsForm inGroup t (notes ++ (front ++ t.header) :: (body ++ [pad ++ ['\x7d']]))

/-- The lines of a type with the same blanks in front of each but the header. -/
def WrittenType.lines (front pad : Text) (t : WrittenType) : List Text :=
  t.notes.map (pad ++ ·) ++ (front ++ t.header) :: (t.body.map (pad ++ ·) ++ [pad ++ ['\x7d']])

theorem isForm_lines {inGroup : Bool} {front pad : Text} (hfront : IsFront inGroup front) (hpad : isBlankText pad = true)
    (ts : List WrittenType) : List.Forall₂ (IsForm inGroup) ts (ts.map (WrittenType.lines front pad)) := by
  have hpadded : ∀ lines : List Text, PaddedLines lines (lines.map (pad ++ ·)) := forall₂_map fun _ => ⟨pad, hpad, rfl⟩
  exact List.forall₂_map_right_iff.mpr (List.forall₂_same.mpr fun t _ =>
    .intro hfront (hpadded t.notes) (hpadded t.body) hpad)

/-! ## Lines that do not start at the margin -/

/-- The line is empty, or it starts with a blank, a comment or a closing brace. -/
def isApart (line : Text) : Bool := line.head?.all fun c => isBlank c || c = '/' || c = '\x7d'

theorem isApart_of_isIndented {line : Text} (h : isIndented line = true) : isApart line = true := by
  cases line with
  | nil => rfl
  | cons c line =>
    have hc : isBlank c = true := h
    simp [isApart, hc]

theorem IsPadded.isApart {line line' : Text} (h : IsPadded line line') (hline : isApart line = true) :
    isApart line' = true := by
  obtain ⟨pad, hpad, rfl⟩ := h
  cases pad with
  | nil => exact hline
  | cons c pad => exact isApart_of_isIndented (List.all_eq_true.mp hpad c List.mem_cons_self)

/-- What starts with no blank still does when it is stripped. -/
theorem strip_cons {c : Char} (hc : isBlank c = false) (t : Text) : strip (c :: t) = c :: stripRight t := by
  have hone : strip [c] = [c] := (strip_eq_self_iff [c]).mpr ⟨by rintro d ⟨⟩; exact hc, by rintro d ⟨⟩; exact hc⟩
  exact strip_append_right hone (List.cons_ne_nil _ _) t

theorem IsNote.cases {line : Text} (h : IsNote line) : isBlankText line = true ∨ ∃ rest, strip line = '/' :: rest := by
  have hstart : ∀ {t mark : Text}, startsWith t ('/' :: mark) = true → ∃ rest, t = '/' :: rest := by
    intro t mark hmark
    obtain ⟨rest, rfl⟩ := List.isPrefixOf_iff_prefix.mp hmark
    exact ⟨mark ++ rest, rfl⟩
  rcases h with h | h
  · refine .inr ?_
    unfold commentOnLine? at h
    dsimp only at h
    split at h
    · exact hstart ‹_›
    · split at h
      · exact hstart (Bool.and_eq_true_iff.mp ‹_›).1
      · cases h
  · exact .inl h

theorem IsNote.isApart {line : Text} (h : IsNote line) : isApart line = true := by
  cases line with
  | nil => rfl
  | cons c line =>
    by_cases hc : isBlank c = true
    · exact isApart_of_isIndented hc
    · rcases h.cases with hblank | ⟨rest, hrest⟩
      · exact absurd (List.all_eq_true.mp hblank c List.mem_cons_self) hc
      · rw [strip_cons (Bool.not_eq_true _ ▸ hc)] at hrest
        obtain ⟨rfl, -⟩ := List.cons.inj hrest
        rfl

theorem not_startsWith_of_isApart {line word : Text} {c : Char} (h : isApart line = true)
    (hc : isBlank c = false ∧ c ≠ '/' ∧ c ≠ '\x7d') : startsWith line (c :: word) = false := by
  cases line with
  | nil => rfl
  | cons d line =>
    have hne : c ≠ d := by
      rintro rfl
      simp [Braced.isApart, hc] at h
    simp [startsWith, List.isPrefixOf, hne]

theorem typeStart_of_other {c : Char} (hc : isIdentStart c = false) (t : Text) : typeStart? (c :: t) = none := by
  unfold typeStart? identifier?
  simp [hc]

theorem typeStart_note {line : Text} (h : IsNote line) : typeStart? (strip line) = none := by
  rcases h.cases with hblank | ⟨rest, hrest⟩
  · rw [(strip_eq_nil_iff line).mpr hblank]
    rfl
  · rw [hrest]
    exact typeStart_of_other (by decide) rest

section

variable {line : Text} (h : isApart line = true)

include h

theorem not_type_of_isApart : startsWith line "type".toList = false := not_startsWith_of_isApart h (by decide)

/-- A line that is not indented starts no type. -/
theorem typeStart_of_isApart (hline : isIndented line = false) :
    typeStart? (strip line) = none ∧ strip line ≠ [')'] := by
  cases line with
  | nil => exact ⟨rfl, by decide⟩
  | cons c line =>
    have hblank : isBlank c = false := hline
    have hc : c = '/' ∨ c = '\x7d' := by simpa [isApart, hblank] using h
    rw [strip_cons hblank]
    rcases hc with rfl | rfl
    · exact ⟨typeStart_of_other (by decide) _, by simp⟩
    · exact ⟨typeStart_of_other (by decide) _, by simp⟩

/-- **Such a line starts a type only in a group.** -/
theorem startOn_isApart (inGroup : Bool) :
    startOn? inGroup line = if inGroup then typeStart? (strip line) else none := by
  unfold startOn?
  rw [if_neg (Bool.not_eq_true _ ▸ not_type_of_isApart h), Option.none_or]
  cases inGroup with
  | false => rfl
  | true =>
    cases hline : isIndented line with
    | true => rfl
    | false => rw [(typeStart_of_isApart h hline).1]; rfl

/-- **Such a line neither opens a group nor closes it.** -/
theorem groupAfter_isApart (inGroup : Bool) : groupAfter inGroup line = inGroup := by
  unfold groupAfter
  rw [not_type_of_isApart h, Bool.false_and, if_neg Bool.false_ne_true]
  refine if_neg fun hclose => ?_
  simp only [Bool.and_eq_true, decide_eq_true_eq, Bool.not_eq_true'] at hclose
  exact (typeStart_of_isApart h hclose.2).2 hclose.1.2

end

/-- A line that starts a type neither opens a group nor closes it. -/
theorem groupAfter_of_startOn {inGroup : Bool} {line : Text} {start : Text × BodyKind}
    (h : startOn? inGroup line = some start) : groupAfter inGroup line = inGroup := by
  unfold startOn? at h
  unfold groupAfter
  split
  · rename_i hopen
    obtain ⟨hmark, hgroup⟩ := Bool.and_eq_true_iff.mp hopen
    rw [if_pos hmark, declaredStart_of_opensGroup hgroup, not_isIndented_of_type hmark, Bool.and_false] at h
    cases h
  · refine if_neg fun hclose => ?_
    simp only [Bool.and_eq_true, decide_eq_true_eq, Bool.not_eq_true'] at hclose
    obtain ⟨⟨-, hclose⟩, hmargin⟩ := hclose
    have hnone : declaredStart? [')'] = none := rfl
    rw [hclose, hmargin, hnone, Bool.and_false, ite_self] at h
    cases h

/-- **The starts on such lines** are those that the lines would be by themselves. -/
theorem map_typeStartsFrom_isApart {lines : List Text} (h : ∀ line ∈ lines, isApart line = true) (inGroup : Bool)
    (i : Nat) : (typeStartsFrom inGroup i lines).map Prod.snd =
      if inGroup then lines.filterMap fun line => typeStart? (strip line) else [] := by
  induction lines generalizing i with
  | nil => cases inGroup <;> rfl
  | cons line lines ih =>
    obtain ⟨hline, hlines⟩ := List.forall_mem_cons.mp h
    have hstart : (startsAt i (startOn? inGroup line)).map Prod.snd = (startOn? inGroup line).toList := by
      unfold startsAt
      rw [List.map_map]
      exact List.map_id _
    rw [typeStartsFrom_cons, List.map_append, hstart, groupAfter_isApart hline, ih hlines, startOn_isApart hline]
    cases inGroup with
    | false => rfl
    | true =>
      rw [if_pos rfl, if_pos rfl, if_pos rfl, List.filterMap_cons]
      cases typeStart? (strip line) <;> rfl

theorem foldl_groupAfter {inGroup : Bool} {lines : List Text} (h : ∀ line ∈ lines, groupAfter inGroup line = inGroup) :
    lines.foldl groupAfter inGroup = inGroup := by
  induction lines with
  | nil => rfl
  | cons line lines ih =>
    obtain ⟨hline, hlines⟩ := List.forall_mem_cons.mp h
    rw [List.foldl_cons, hline, ih hlines]

/-! ## One type in either form -/

section

variable {inGroup : Bool} {t : WrittenType} {form : List Text}

theorem startOn_header {front : Text} (hfront : IsFront inGroup front) (hname : isIdentifier t.name = true) :
    startOn? inGroup (front ++ t.header) = some (t.name, t.kind) := by
  cases hfront with
  | declared => exact startOn_declared hname false _
  | indented hpad hne =>
    have hindented : isIndented (front ++ t.header) = true := by
      obtain ⟨c, pad, rfl⟩ := List.exists_cons_of_ne_nil hne
      exact List.all_eq_true.mp hpad c List.mem_cons_self
    rw [startOn_isApart (isApart_of_isIndented hindented), if_pos rfl, strip_blank_append _ hpad, WrittenType.header,
      strip_append_right (strip_headerText hname t.kind) (by simp [headerText]), typeStart_header hname]

theorem isApart_notes {notes : List Text} (hnotes : PaddedLines t.notes notes) (ht : t.IsWritten) :
    ∀ line ∈ notes, isApart line = true ∧ typeStart? (strip line) = none := by
  intro line' hmem
  obtain ⟨line, hline, hpadded⟩ := exists_mem_of_forall₂ hnotes line' hmem
  have hnote := ht.notes line hline
  exact ⟨hpadded.isApart hnote.isApart, by rw [hpadded.strip_eq, typeStart_note hnote]⟩

theorem isApart_body {body : List Text} {pad : Text} (hbody : PaddedLines t.body body) (hpad : isBlankText pad = true)
    (ht : t.IsWritten) : ∀ line ∈ body ++ [pad ++ ['\x7d']], isApart line = true := by
  intro line' hmem
  rcases List.mem_append.mp hmem with hmem | hmem
  · obtain ⟨line, hline, hpadded⟩ := exists_mem_of_forall₂ hbody line' hmem
    refine hpadded.isApart ?_
    rcases ht.indented line hline with rfl | hindented
    · rfl
    · exact isApart_of_isIndented hindented
  · rw [List.mem_singleton.mp hmem]
    exact IsPadded.isApart ⟨pad, hpad, rfl⟩ (by decide)

theorem filterMap_padded {body body' : List Text} (h : PaddedLines body body') :
    (body'.filterMap fun line => typeStart? (strip line)) = body.filterMap fun line => typeStart? (strip line) := by
  induction h with
  | nil => rfl
  | cons hline _ ih => rw [List.filterMap_cons, List.filterMap_cons, hline.strip_eq, ih]

theorem groupAfter_form (hform : IsForm inGroup t form) (ht : t.IsWritten) :
    ∀ line ∈ form, groupAfter inGroup line = inGroup := by
  obtain ⟨hfront, hnotes, hbody, hpad⟩ := hform
  refine List.forall_mem_append.mpr ⟨fun line hline => ?_, List.forall_mem_cons.mpr ⟨?_, fun line hline => ?_⟩⟩
  · exact groupAfter_isApart (isApart_notes hnotes ht line hline).1 _
  · exact groupAfter_of_startOn (startOn_header hfront ht.named)
  · exact groupAfter_isApart (isApart_body hbody hpad ht line hline) _

/-- **The form starts the type,** and in a group also those that are nested in it. -/
theorem typeStartsFrom_form (hform : IsForm inGroup t form) (ht : t.IsWritten) (i : Nat) :
    ∃ inner, typeStartsFrom inGroup i form = (i + t.notes.length, t.name, t.kind) :: inner ∧
      inner.map Prod.snd = if inGroup then t.nested else [] := by
  obtain @⟨front, pad, notes, body, hfront, hnotes, hbody, hpad⟩ := hform
  have hapart := isApart_notes hnotes ht
  have hbelow := isApart_body hbody hpad ht
  have habove : typeStartsFrom inGroup i notes = [] := by
    have hnone := map_typeStartsFrom_isApart (fun line hline => (hapart line hline).1) inGroup i
    have hnil : (notes.filterMap fun line => typeStart? (strip line)) = [] :=
      List.filterMap_eq_nil_iff.mpr fun line hline => (hapart line hline).2
    rw [hnil, ite_self] at hnone
    exact List.map_eq_nil_iff.mp hnone
  have hstart := startOn_header hfront ht.named
  have hgroup := foldl_groupAfter fun line hline => groupAfter_isApart (hapart line hline).1 inGroup
  have hlength := hnotes.length_eq
  refine ⟨typeStartsFrom inGroup (i + notes.length + 1) (body ++ [pad ++ ['\x7d']]), ?_, ?_⟩
  · rw [typeStartsFrom_append, habove, hgroup, typeStartsFrom_cons, hstart, groupAfter_of_startOn hstart, hlength]
    rfl
  · have hbrace : typeStart? (strip (pad ++ ['\x7d'])) = none := by
      rw [strip_blank_append _ hpad]
      rfl
    have hend : ([pad ++ ['\x7d']].filterMap fun line => typeStart? (strip line)) = [] :=
      List.filterMap_eq_nil_iff.mpr (List.forall_mem_singleton.mpr hbrace)
    rw [map_typeStartsFrom_isApart hbelow, List.filterMap_append, filterMap_padded hbody, hend, List.append_nil]
    rfl

/-- Below a type there are no comments above the next one. -/
theorem commentsAbove_form (hform : IsForm inGroup t form) (above : List Text) :
    commentsAbove (above ++ form).reverse = [] := by
  obtain @⟨front, pad, notes, body, -, -, -, hpad⟩ := hform
  have hcomment : commentOnLine? (pad ++ ['\x7d']) = none := by
    unfold commentOnLine?
    rw [strip_blank_append _ hpad]
    rfl
  have hblank : isBlankText (pad ++ ['\x7d']) = false := by
    rw [isBlankText_append, hpad]
    rfl
  have hlast : (above ++ (notes ++ (front ++ t.header) :: (body ++ [pad ++ ['\x7d']]))).reverse =
      (pad ++ ['\x7d']) :: (above ++ (notes ++ (front ++ t.header) :: body)).reverse := by simp
  rw [hlast, commentsAbove, hcomment, hblank]
  rfl

/-- What stands in front of the word for the kind of the type holds no brace. -/
theorem header_cut {front : Text} (hfront : IsFront inGroup front) (hname : isIdentifier t.name = true) :
    ∃ opening, '\x7b' ∉ opening ∧
      front ++ t.header = opening ++ t.kind.word ++ (' ' :: '\x7b' :: remarkText t.remark) := by
  refine ⟨front ++ (t.name ++ [' ']), ?_, by simp [WrittenType.header, headerText]⟩
  have hname : '\x7b' ∉ t.name := fun hmem => absurd (isWord_of_isIdentifier hname _ hmem) (by decide)
  cases hfront with
  | declared => simp [hname]
  | indented hblank _ =>
    have hfront : '\x7b' ∉ front := fun hmem => absurd (List.all_eq_true.mp hblank _ hmem) (by decide)
    simp [hname, hfront]

/-- The body ends with its closing brace, however far to the right it stands. -/
theorem linesToClosing_form {body : List Text} {pad : Text} (hbody : PaddedLines t.body body)
    (hpad : isBlankText pad = true) (hcode : IsCode 0 (textOf t.body)) (hline : ∀ l ∈ body, '\n' ∉ l)
    (below : List Text) :
    Progress.linesToClosing? ⟨1, .code⟩ (body ++ [pad ++ ['\x7d']] ++ below) = some t.body.length := by
  have hpadded : PaddedLines (t.body ++ [[] ++ ['\x7d']]) (body ++ [pad ++ ['\x7d']]) :=
    List.rel_append hbody (.cons ⟨pad, hpad, rfl⟩ .nil)
  have hline' : ∀ l ∈ t.body ++ [[] ++ ['\x7d']], '\n' ∉ l := by
    refine List.forall_mem_append.mpr ⟨fun l hl => ?_, List.forall_mem_singleton.mpr (by decide)⟩
    obtain ⟨l', hl', hpadded⟩ := exists_mem_of_forall₂ hbody.flip l hl
    exact IsPadded.not_mem hpadded (hline l' hl')
  exact linesToClosing_append ((linesToClosing_padded hpadded _).trans (linesToClosing_body rfl hcode hline')) below

theorem membersBehind_alike {body body' : List Text} (h : PaddedLines body body') (i j : Nat) (tail : Text) :
    AlikeMembers (membersBehind i tail body) (membersBehind j tail body') := by
  unfold membersBehind
  cases breakLast? '\x7d' tail with
  | none => exact bodyFrom_padded h 1 _ _
  | some found =>
    refine List.forall₂_map_left_iff.mpr (List.forall₂_map_right_iff.mpr ?_)
    exact List.forall₂_same.mpr fun _ _ => rfl

/-- **What is read of the type is the same in both forms and everywhere,** but for its place. -/
theorem typeAt_form {lines above below : List Text} (hform : IsForm inGroup t form) (ht : t.IsWritten)
    (hlines : lines = above ++ (form ++ below)) (hline : ∀ l ∈ lines, '\n' ∉ l)
    (habove : commentsAbove above.reverse = []) (total : Nat) :
    ∃ d, typeAt lines total (above.length + t.notes.length) t.name t.kind = .ok d ∧ d.unplaced = t.decl := by
  obtain @⟨front, pad, notes, body, hfront, hnotes, hbody, hpad⟩ := hform
  obtain ⟨opening, hopening, hheader⟩ := header_cut hfront ht.named
  have hsplit : lines = (above ++ notes) ++ (opening ++ t.kind.word ++ (' ' :: '\x7b' :: remarkText t.remark)) ::
      (body ++ [pad ++ ['\x7d']] ++ below) := by
    rw [hlines, hheader]
    simp
  have hclosing := linesToClosing_form hbody hpad ht.code (fun l hl => hline l (by rw [hsplit]; simp [hl])) below
  have hread := typeAt_block hsplit hopening (line_remark ht.remark 1) hclosing
    (by rw [List.length_append, hbody.length_eq]; rfl) total t.name
  have hlength : above.length + t.notes.length = (above ++ notes).length := by
    rw [List.length_append, hnotes.length_eq]
  have hcomments : leadingComments lines (above ++ notes).length =
      joinComments (commentsAbove t.notes.reverse).reverse := by
    unfold leadingComments
    rw [hsplit, List.take_left, List.reverse_append, commentsAbove_append habove,
      commentsAbove_padded (List.forall₂_reverse_iff.mpr hnotes)]
  have hpadded : PaddedLines (t.body ++ [['\x7d']]) (body ++ [pad ++ ['\x7d']]) :=
    List.rel_append hbody (.cons ⟨pad, hpad, rfl⟩ .nil)
  obtain ⟨hproperties, hmethods, hembedded⟩ :=
    membersOf_alike (membersBehind_alike hpadded 0 (above ++ notes).length (remarkText t.remark)) t.kind
  rw [hlength]
  refine ⟨_, hread, ?_⟩
  simp only [SourceDoc.TypeDecl.unplaced, WrittenType.decl, typeWith, hproperties, hmethods, hembedded, hcomments,
    SourceDoc.TypeDecl.mk.injEq, and_true, true_and]
  omega

end

/-! ## Several types -/

section

variable {inGroup : Bool} {ts : List WrittenType} {forms : List (List Text)}

theorem groupAfter_forms (hforms : List.Forall₂ (IsForm inGroup) ts forms) (hts : ∀ t ∈ ts, t.IsWritten) :
    forms.flatten.foldl groupAfter inGroup = inGroup := by
  refine foldl_groupAfter fun line hline => ?_
  obtain ⟨form, hmem, hline⟩ := List.mem_flatten.mp hline
  obtain ⟨t, ht, hform⟩ := exists_mem_of_forall₂ hforms form hmem
  exact groupAfter_form hform (hts t ht) line hline

/-- **The forms start the types,** and in a group also those that are nested in them. -/
theorem map_typeStartsFrom_forms (hforms : List.Forall₂ (IsForm inGroup) ts forms) (hts : ∀ t ∈ ts, t.IsWritten)
    (i : Nat) : (typeStartsFrom inGroup i forms.flatten).map Prod.snd =
      ts.flatMap fun t => (t.name, t.kind) :: if inGroup then t.nested else [] := by
  induction hforms generalizing i with
  | nil => rfl
  | @cons t form ts forms hform _ ih =>
    obtain ⟨ht, hts⟩ := List.forall_mem_cons.mp hts
    obtain ⟨inner, hstarts, hinner⟩ := typeStartsFrom_form hform ht i
    rw [List.flatten_cons, typeStartsFrom_append, foldl_groupAfter (groupAfter_form hform ht), List.map_append, hstarts,
      List.map_cons, hinner, ih hts, List.flatMap_cons]

/-- **Without nested types what is read of the forms is what is read of the types.** -/
theorem typesOf_forms {lines above below : List Text} (hforms : List.Forall₂ (IsForm inGroup) ts forms)
    (hts : ∀ t ∈ ts, t.IsWritten) (hnested : inGroup = true → ∀ t ∈ ts, t.nested = [])
    (hlines : lines = above ++ (forms.flatten ++ below)) (hline : ∀ l ∈ lines, '\n' ∉ l)
    (habove : commentsAbove above.reverse = []) (total : Nat) :
    ∃ types, (typeStartsFrom inGroup above.length forms.flatten).mapM
      (fun (i, name, kind) => typeAt lines total i name kind) = .ok types ∧
      types.map TypeDecl.unplaced = ts.map WrittenType.decl := by
  induction hforms generalizing above with
  | nil => exact ⟨[], rfl, rfl⟩
  | @cons t form ts forms hform _ ih =>
    obtain ⟨ht, hts⟩ := List.forall_mem_cons.mp hts
    obtain ⟨inner, hstarts, hinner⟩ := typeStartsFrom_form hform ht above.length
    have hnone : inner = [] := by
      refine List.map_eq_nil_iff.mp (hinner.trans ?_)
      split
      · exact hnested ‹_› t List.mem_cons_self
      · rfl
    have hsplit : lines = (above ++ form) ++ (forms.flatten ++ below) := by
      rw [hlines]
      simp
    obtain ⟨d, hd, hread⟩ := typeAt_form hform ht (hsplit.trans (List.append_assoc _ _ _)) hline habove total
    obtain ⟨types, htypes, hsame⟩ := ih hts (fun hg t' ht' => hnested hg t' (List.mem_cons_of_mem _ ht')) hsplit
      (commentsAbove_form hform above)
    rw [List.length_append] at htypes
    refine ⟨d :: types, ?_, by rw [List.map_cons, List.map_cons, hread, hsame]⟩
    rw [List.flatten_cons, typeStartsFrom_append, foldl_groupAfter (groupAfter_form hform ht), hstarts, hnone,
      List.singleton_append, List.mapM_cons, htypes]
    simp only [hd]
    rfl

end

/-! ## Files -/

section

variable {inGroup : Bool} {ts : List WrittenType} {forms : List (List Text)} {above below : List Text} {source : Text}
  {types : List SourceDoc.TypeDecl} {o : Outline}

theorem not_function_forms (hforms : List.Forall₂ (IsForm inGroup) ts forms) (hts : ∀ t ∈ ts, t.IsWritten) :
    ∀ line ∈ forms.flatten, startsWith line "func".toList = false := by
  intro line hline
  obtain ⟨form, hmem, hline⟩ := List.mem_flatten.mp hline
  obtain ⟨t, ht, hform⟩ := exists_mem_of_forall₂ hforms form hmem
  have hapart : ∀ {line : Text}, isApart line = true → startsWith line "func".toList = false :=
    fun h => not_startsWith_of_isApart h (by decide)
  obtain @⟨front, pad, notes, body, hfront, hnotes, hbody, hpad⟩ := hform
  rcases List.mem_append.mp hline with hline | hline
  · exact hapart (isApart_notes hnotes (hts t ht) line hline).1
  · rcases List.mem_cons.mp hline with rfl | hline
    · cases hfront with
      | declared => rfl
      | indented hblank hne =>
        obtain ⟨c, front, rfl⟩ := List.exists_cons_of_ne_nil hne
        exact hapart (isApart_of_isIndented (List.all_eq_true.mp hblank c List.mem_cons_self))
    · exact hapart (isApart_body hbody hpad (hts t ht) line hline)

/-- A source in which no line starts a function has the types that are found, with nothing attached to them. -/
theorem Holds.types_eq (h : Holds source types o)
    (hfunctions : ∀ line ∈ Text.lines source, startsWith line "func".toList = false) : o.types = types := by
  have hnone : o.functions = [] := by
    refine List.eq_nil_iff_forall_not_mem.mpr fun f hf => ?_
    obtain ⟨i, hi, hon⟩ := h.function_on f hf
    have hmarked := hon.marked
    rw [List.getElem?_eq_getElem hi, Option.getD_some, hfunctions _ (List.getElem_mem hi)] at hmarked
    cases hmarked
  have hattach : ∀ t ∈ types, attach [] t = t := fun t _ => by simp [attach]
  rw [h.attached, hnone]
  exact map_eq_self hattach

/-- **The types of a file that has nothing but the forms,** and without nested types all that is read of them. -/
theorem Holds.read_forms (h : Holds source types o) (hforms : List.Forall₂ (IsForm inGroup) ts forms)
    (hts : ∀ t ∈ ts, t.IsWritten) (hlines : Text.lines source = above ++ (forms.flatten ++ below))
    (hother : ∀ line ∈ above ++ below, startsWith line "func".toList = false)
    (hstarts : typeStartsFrom false 0 (Text.lines source) = typeStartsFrom inGroup above.length forms.flatten)
    (habove : commentsAbove above.reverse = []) :
    o.types.map TypeDecl.name =
        (ts.flatMap fun t => t.name :: (if inGroup then t.nested else []).map Prod.fst) ∧
      ((inGroup = true → ∀ t ∈ ts, t.nested = []) → o.types.map TypeDecl.unplaced = ts.map WrittenType.decl) := by
  obtain ⟨hup, hdown⟩ := List.forall_mem_append.mp hother
  have hfunctions : ∀ line ∈ Text.lines source, startsWith line "func".toList = false := by
    rw [hlines]
    exact List.forall_mem_append.mpr ⟨hup, List.forall_mem_append.mpr ⟨not_function_forms hforms hts, hdown⟩⟩
  have hfound := h.found
  unfold typesOf at hfound
  rw [hstarts] at hfound
  rw [h.types_eq hfunctions]
  constructor
  · have hnames := map_of_mapM_ok (g := TypeDecl.name) (k := fun start : Nat × Text × BodyKind => start.2.1)
      (fun _ _ hat => (typeAt_cases hat).1) hfound
    have hforms := congrArg (List.map Prod.fst) (map_typeStartsFrom_forms hforms hts above.length)
    rw [List.map_map] at hforms
    rw [hnames]
    refine hforms.trans ?_
    rw [List.map_flatMap]
    rfl
  · intro hnested
    obtain ⟨types', htypes, hsame⟩ := typesOf_forms hforms hts hnested hlines
      (fun l => not_mem_of_mem_splitOn) habove (boundaryLines source).length
    rw [hfound] at htypes
    cases htypes
    exact hsame

end

/-- No line starts with the word for types or for functions. -/
def IsBare (lines : List Text) : Prop :=
  ∀ line ∈ lines, startsWith line "type".toList = false ∧ startsWith line "func".toList = false

/-- Outside of groups such lines start no type and open no group. -/
theorem starts_bare {lines : List Text} (h : IsBare lines) (i : Nat) :
    typeStartsFrom false i lines = [] ∧ lines.foldl groupAfter false = false := by
  have hline : ∀ line ∈ lines, startOn? false line = none ∧ groupAfter false line = false := by
    intro line hline
    obtain ⟨htype, -⟩ := h line hline
    unfold startOn? groupAfter
    rw [htype]
    exact ⟨rfl, rfl⟩
  refine ⟨?_, foldl_groupAfter fun line hmem => (hline line hmem).2⟩
  clear h
  induction lines generalizing i with
  | nil => rfl
  | cons line lines ih =>
    obtain ⟨⟨hstart, hgroup⟩, hlines⟩ := List.forall_mem_cons.mp hline
    rw [typeStartsFrom_cons, hstart, hgroup, ih _ hlines]
    rfl

section

variable {ts : List WrittenType} {forms : List (List Text)} {above below : List Text}

theorem starts_apart (hforms : List.Forall₂ (IsForm false) ts forms) (hts : ∀ t ∈ ts, t.IsWritten)
    (habove : IsBare above) (hbelow : IsBare below) :
    typeStartsFrom false 0 (above ++ (forms.flatten ++ below)) = typeStartsFrom false above.length forms.flatten := by
  obtain ⟨hup, hgroup⟩ := starts_bare habove 0
  rw [typeStartsFrom_append, hup, hgroup, typeStartsFrom_append, groupAfter_forms hforms hts, (starts_bare hbelow _).1,
    Nat.zero_add, List.append_nil]
  rfl

/-- The lines of a group. -/
def groupText (entries : List (List Text)) : List Text := "type (".toList :: (entries.flatten ++ [[')']])

theorem starts_group (hentries : List.Forall₂ (IsForm true) ts forms) (hts : ∀ t ∈ ts, t.IsWritten)
    (habove : IsBare above) (hbelow : IsBare below) :
    typeStartsFrom false 0 (above ++ (groupText forms ++ below)) =
      typeStartsFrom true (above.length + 1) forms.flatten := by
  have hopen : startOn? false "type (".toList = none ∧ groupAfter false "type (".toList = true := by decide
  have hclose : startOn? true [')'] = none ∧ groupAfter true [')'] = false := by decide
  obtain ⟨hup, hgroup⟩ := starts_bare habove 0
  rw [typeStartsFrom_append, hup, hgroup, groupText, List.cons_append, typeStartsFrom_cons, hopen.1, hopen.2,
    List.append_assoc, typeStartsFrom_append, groupAfter_forms hentries hts, List.singleton_append, typeStartsFrom_cons,
    hclose.1, hclose.2, (starts_bare hbelow _).1, Nat.zero_add]
  simp [startsAt]

end

/-- **The types of a group,** and without nested types all that is read of them. -/
theorem Holds.read_group {ts : List WrittenType} {entries : List (List Text)} {above below : List Text} {source : Text}
    {types : List SourceDoc.TypeDecl} {o : Outline} (h : Holds source types o)
    (hentries : List.Forall₂ (IsForm true) ts entries) (hts : ∀ t ∈ ts, t.IsWritten) (habove : IsBare above)
    (hbelow : IsBare below) (hlines : Text.lines source = above ++ (groupText entries ++ below)) :
    (o.types.map TypeDecl.name = ts.flatMap fun t => t.name :: t.nested.map Prod.fst) ∧
      ((∀ t ∈ ts, t.nested = []) → o.types.map TypeDecl.unplaced = ts.map WrittenType.decl) := by
  have hsplit : Text.lines source = (above ++ ["type (".toList]) ++ (entries.flatten ++ ([')'] :: below)) := by
    rw [hlines, groupText]
    simp
  have hother : ∀ line ∈ (above ++ ["type (".toList]) ++ ([')'] :: below), startsWith line "func".toList = false := by
    intro line hline
    simp only [List.append_assoc, List.mem_append, List.mem_cons, List.not_mem_nil, or_false] at hline
    rcases hline with hline | rfl | rfl | hline
    · exact (habove line hline).2
    · decide
    · decide
    · exact (hbelow line hline).2
  have hcomments : commentsAbove (above ++ ["type (".toList]).reverse = [] := by
    have hopen : commentOnLine? "type (".toList = none ∧ isBlankText "type (".toList = false := by decide
    rw [List.reverse_append, List.reverse_singleton, List.singleton_append, commentsAbove, hopen.1, hopen.2]
    rfl
  obtain ⟨hnames, hread⟩ := h.read_forms hentries hts hsplit hother
    (by rw [hlines, starts_group hentries hts habove hbelow, List.length_append]; rfl) hcomments
  exact ⟨hnames, fun hnested => hread fun _ => hnested⟩

/-- **The types of declarations by themselves,** and all that is read of them. -/
theorem Holds.read_apart {ts : List WrittenType} {forms : List (List Text)} {above below : List Text} {source : Text}
    {types : List SourceDoc.TypeDecl} {o : Outline} (h : Holds source types o)
    (hforms : List.Forall₂ (IsForm false) ts forms) (hts : ∀ t ∈ ts, t.IsWritten) (habove : IsBare above)
    (hbelow : IsBare below) (hlines : Text.lines source = above ++ (forms.flatten ++ below))
    (hcomments : commentsAbove above.reverse = []) :
    o.types.map TypeDecl.name = ts.map WrittenType.name ∧ o.types.map TypeDecl.unplaced = ts.map WrittenType.decl := by
  have hother : ∀ line ∈ above ++ below, startsWith line "func".toList = false :=
    List.forall_mem_append.mpr ⟨fun line hline => (habove line hline).2, fun line hline => (hbelow line hline).2⟩
  obtain ⟨hnames, hread⟩ := h.read_forms hforms hts hlines hother
    (by rw [hlines]; exact starts_apart hforms hts habove hbelow) hcomments
  exact ⟨hnames.trans ((flatMap_cons_eq_map_iff ts).mpr fun t _ => rfl), hread fun hgroup => nomatch hgroup⟩

/-- The exports of types, without their places. -/
def typeExports (o : Outline) : List Export := (o.exports.filter fun e => e.kind = "type".toList).map Export.unplaced

/-- The exports of types are made of the types, wherever these stand. -/
theorem Holds.typeExports_eq {source : Text} {types : List SourceDoc.TypeDecl} {o : Outline} (h : Holds source types o) :
    typeExports o = ((o.types.map TypeDecl.unplaced).filter fun t => isPublic t.name).map typeExport := by
  have hincreasing : o.types.Pairwise fun t t' => t.startLine < t'.startLine := by
    rw [h.attached]
    exact List.pairwise_map.mpr h.types_increasing
  unfold typeExports
  rw [h.exports, (exportsOf_kinds _ h.functions_increasing hincreasing).2, List.filter_map, List.map_map, List.map_map]
  rfl

/-- **A group has the types of its entries, and those that are nested in them.**  So it has the same types and exports of
types as the declarations have by themselves exactly if there are no nested ones; each type then has the same members,
comments and number of lines. -/
theorem extract_group {ts : List WrittenType} (hts : ∀ t ∈ ts, t.IsWritten) {entries forms : List (List Text)}
    (hentries : List.Forall₂ (IsForm true) ts entries) (hforms : List.Forall₂ (IsForm false) ts forms)
    {above below : List Text} (habove : IsBare above) (hbelow : IsBare below)
    (hcomments : commentsAbove above.reverse = []) (path : Text) {source source' : Text}
    (hgrouped : Text.lines source = above ++ (groupText entries ++ below))
    (hapart : Text.lines source' = above ++ (forms.flatten ++ below)) :
    ∃ o o', (Extractor.builtIn .go).extract path source = .ok o ∧
      (Extractor.builtIn .go).extract path source' = .ok o' ∧
      o'.types.map TypeDecl.name = ts.map WrittenType.name ∧
      (o.types.map TypeDecl.name = ts.flatMap fun t => t.name :: t.nested.map Prod.fst) ∧
      (o.types.map TypeDecl.unplaced = o'.types.map TypeDecl.unplaced ∧ typeExports o = typeExports o' ↔
        ∀ t ∈ ts, t.nested = []) := by
  obtain ⟨o, types, ho, hholds⟩ := extract_holds path source
  obtain ⟨o', types', ho', hholds'⟩ := extract_holds path source'
  obtain ⟨hown, hread'⟩ := hholds'.read_apart hforms hts habove hbelow hapart hcomments
  obtain ⟨hnames, hread⟩ := hholds.read_group hentries hts habove hbelow hgrouped
  refine ⟨o, o', ho, ho', hown, hnames, ?_, fun hnested => ?_⟩
  · rintro ⟨hsame, -⟩
    have hname := congrArg (List.map TypeDecl.name) hsame
    rw [List.map_map, List.map_map] at hname
    have hall : (ts.flatMap fun t => t.name :: t.nested.map Prod.fst) = ts.map WrittenType.name :=
      (hnames.symm.trans hname).trans hown
    exact fun t ht => List.map_eq_nil_iff.mp ((flatMap_cons_eq_map_iff ts).mp hall t ht)
  · have htypes := (hread hnested).trans hread'.symm
    exact ⟨htypes, by rw [hholds.typeExports_eq, hholds'.typeExports_eq, htypes]⟩

namespace Sample

/-- A structure with a field of an unnamed type, and an interface. -/
def shapes : List WrittenType :=
  [{ notes := ["// Shape is drawn.".toList], name := "Shape".toList, kind := .struct, remark := none
     body := ["\tparts []struct \x7b".toList, "\t\tn int".toList, "\t\x7d".toList] },
   { notes := [[]], name := "area".toList, kind := .interface, remark := some ⟨[' '], " in pixels".toList⟩
     body := ["\tOf(s Shape) int // rounded".toList] }]

theorem shapes_isWritten : ∀ t ∈ shapes, t.IsWritten := by
  have hshape : IsCode 0 (textOf ["\tparts []struct \x7b".toList, "\t\tn int".toList, "\t\x7d".toList]) := by
    refine IsCode.bare (t := "\tparts []struct ".toList) (by decide) (.opening _ ?_)
    refine IsCode.bare (t := "\n\t\tn int\n\t".toList) (by decide) (.closing _ ?_)
    exact IsCode.bare (t := ['\n']) (by decide) .nil
  have harea : IsCode 0 (textOf ["\tOf(s Shape) int // rounded".toList]) :=
    IsCode.bare (t := "\tOf(s Shape) int ".toList) (by decide) (.lineComment " rounded".toList [] (by decide) .nil)
  refine List.forall_mem_cons.mpr ⟨⟨?_, by decide, by decide, by decide, hshape⟩,
    List.forall_mem_singleton.mpr ⟨?_, by decide, by decide, by decide, harea⟩⟩
  · exact List.forall_mem_singleton.mpr (.inl rfl)
  · exact List.forall_mem_singleton.mpr (.inr rfl)

/-- The field of a structure has a type that is written out. -/
def outer : WrittenType where
  notes := []
  name := ['A']
  kind := .struct
  remark := none
  body := ["\tInner struct \x7b".toList, "\t\tx int".toList, "\t\x7d".toList]

theorem outer_isWritten : outer.IsWritten := by
  refine ⟨List.forall_mem_nil _, by decide, by decide, by decide, ?_⟩
  refine IsCode.bare (t := "\tInner struct ".toList) (by decide) (.opening _ ?_)
  refine IsCode.bare (t := "\n\t\tx int\n\t".toList) (by decide) (.closing _ ?_)
  exact IsCode.bare (t := ['\n']) (by decide) .nil

/-- A file with the types in a group. -/
def groupFile (ts : List WrittenType) : Text :=
  joinLines (["package a".toList] ++ (groupText (ts.map (WrittenType.lines ['\t'] ['\t'])) ++ [[]]))

/-- A file with the same types by themselves. -/
def apartFile (ts : List WrittenType) : Text :=
  joinLines (["package a".toList] ++ ((ts.map (WrittenType.lines "type ".toList [])).flatten ++ [[]]))

theorem isForm_group (ts : List WrittenType) :
    List.Forall₂ (IsForm true) ts (ts.map (WrittenType.lines ['\t'] ['\t'])) :=
  isForm_lines (.indented (by decide) (by decide)) (by decide) ts

theorem isForm_apart (ts : List WrittenType) :
    List.Forall₂ (IsForm false) ts (ts.map (WrittenType.lines "type ".toList [])) := isForm_lines .declared rfl ts

theorem isBare_package : IsBare ["package a".toList] ∧ IsBare [[]] := by
  unfold IsBare
  decide

end Sample

theorem extract_group_shapes : (∀ t ∈ Sample.shapes, t.IsWritten) ∧
    ∃ o o', (Extractor.builtIn .go).extract "a.go".toList (Sample.groupFile Sample.shapes) = .ok o ∧
      (Extractor.builtIn .go).extract "a.go".toList (Sample.apartFile Sample.shapes) = .ok o' ∧
      o'.types.map TypeDecl.name = ["Shape".toList, "area".toList] ∧
      o.types.map TypeDecl.unplaced = o'.types.map TypeDecl.unplaced ∧ typeExports o = typeExports o' := by
  obtain ⟨o, o', ho, ho', hown, -, hsame⟩ := extract_group Sample.shapes_isWritten (Sample.isForm_group Sample.shapes)
    (Sample.isForm_apart Sample.shapes) Sample.isBare_package.1 Sample.isBare_package.2 (by decide) "a.go".toList
    (lines_joinLines (by decide) (by decide)) (lines_joinLines (by decide) (by decide))
  obtain ⟨htypes, hexports⟩ := hsame.mpr (by decide)
  exact ⟨Sample.shapes_isWritten, o, o', ho, ho', hown, htypes, hexports⟩

/-- The type of a field is one of the types only where the structure stands in a group. -/
theorem extract_group_nested : Sample.outer.IsWritten ∧
    ∃ o o', (Extractor.builtIn .go).extract "a.go".toList (Sample.groupFile [Sample.outer]) = .ok o ∧
      (Extractor.builtIn .go).extract "a.go".toList (Sample.apartFile [Sample.outer]) = .ok o' ∧
      o.types.map TypeDecl.name = [['A'], "Inner".toList] ∧ o'.types.map TypeDecl.name = [['A']] := by
  have hts : ∀ t ∈ [Sample.outer], t.IsWritten := List.forall_mem_singleton.mpr Sample.outer_isWritten
  obtain ⟨hup, hdown⟩ := Sample.isBare_package
  obtain ⟨o, types, ho, hholds⟩ := extract_holds "a.go".toList (Sample.groupFile [Sample.outer])
  obtain ⟨o', types', ho', hholds'⟩ := extract_holds "a.go".toList (Sample.apartFile [Sample.outer])
  obtain ⟨hnames, -⟩ := hholds.read_group (Sample.isForm_group [Sample.outer]) hts hup hdown
    (lines_joinLines (by decide) (by decide))
  obtain ⟨hnames', -⟩ := hholds'.read_apart (Sample.isForm_apart [Sample.outer]) hts hup hdown
    (lines_joinLines (by decide) (by decide)) (by decide)
  exact ⟨Sample.outer_isWritten, o, o', ho, ho', hnames, hnames'⟩

end SourceDoc.Braced
