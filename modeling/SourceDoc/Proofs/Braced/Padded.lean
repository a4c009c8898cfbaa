import SourceDoc.Proofs.Braced.Body
import SourceDoc.Proofs.Braced.Remark
import SourceDoc.Proofs.Braced.TypeDecl

/-!
# Blanks in front of the lines of a block

A block may stand further to the right.  Its comments, its closing brace and its members are found as before
(`commentsAbove_padded`, `linesToClosing_padded`, `bodyFrom_padded`); only what is recorded of the lines on which they
stand depends on where the block is (`membersOf_alike`).
-/

namespace SourceDoc

/-! ## Symbols without their places -/

/-- The function without its place: the lines that it spans are counted from its first one. -/
def FunctionDecl.unplaced (f : FunctionDecl) : FunctionDecl :=
  { f with startLine := 0, endLine := f.endLine - f.startLine }

def TypeDecl.unplaced (t : TypeDecl) : TypeDecl :=
  { t with
    methods := t.methods.map FunctionDecl.unplaced
    constructor? := t.constructor?.map FunctionDecl.unplaced
    startLine := 0
    endLine := t.endLine - t.startLine }

def Export.unplaced (e : Export) : Export := { e with startLine := 0 }

end SourceDoc

namespace SourceDoc.Braced

open Text

/-! ## Lines -/

/-- The second line is the first one with blanks in front of it. -/
def IsPadded (line line' : Text) : Prop := ∃ pad, isBlankText pad = true ∧ line' = pad ++ line

/-- The same lines further to the right, each on its own. -/
abbrev PaddedLines : List Text → List Text → Prop := List.Forall₂ IsPadded

variable {line line' : Text} {lines lines' : List Text}

theorem IsPadded.refl (line : Text) : IsPadded line line := ⟨[], rfl, rfl⟩

theorem PaddedLines.refl (lines : List Text) : PaddedLines lines lines :=
  List.forall₂_same.mpr fun line _ => IsPadded.refl line

theorem IsPadded.strip_eq (h : IsPadded line line') : strip line' = strip line := by
  obtain ⟨pad, hpad, rfl⟩ := h
  exact strip_blank_append line hpad

theorem IsPadded.uncommented (h : IsPadded line line') : IsPadded (uncommented line) (uncommented line') := by
  obtain ⟨pad, hpad, rfl⟩ := h
  exact ⟨pad, hpad, isPassed_blank hpad line⟩

/-- The comment behind the code does not move against it. -/
theorem IsPadded.comment_eq (h : IsPadded line line') :
    line'.drop (Braced.uncommented line').length = line.drop (Braced.uncommented line).length := by
  obtain ⟨pad, hpad, rfl⟩ := h
  have hcode : Braced.uncommented (pad ++ line) = pad ++ Braced.uncommented line := isPassed_blank hpad line
  rw [hcode, List.length_append, List.drop_append]
  simp

theorem IsPadded.splitMember_eq (h : IsPadded line line') : splitMember line' = splitMember line := by
  unfold splitMember dropTag
  simp only [h.uncommented.strip_eq, h.comment_eq]

theorem IsPadded.depthAfter_eq (h : IsPadded line line') (depth : Int) :
    depthAfter depth line' = depthAfter depth line := by
  obtain ⟨pad, hpad, rfl⟩ := h
  have hblank : excess pad = 0 := excess_class (p := isBlank) (by decide) fun c hc => List.all_eq_true.mp hpad c hc
  rw [Braced.depthAfter_eq, Braced.depthAfter_eq, excess_append, hblank, Int.zero_add]

theorem IsPadded.not_mem (h : IsPadded line line') {c : Char} (hc : c ∉ line') : c ∉ line := by
  obtain ⟨pad, -, rfl⟩ := h
  exact fun hmem => hc (List.mem_append_right pad hmem)

/-! ## Blocks and comments -/

theorem IsPadded.line_eq (h : IsPadded line line') (p : Progress) : p.line? false line' = p.line? false line := by
  obtain ⟨pad, hpad, rfl⟩ := h
  exact line_blank_append hpad p line

theorem linesToClosing_padded (h : PaddedLines lines lines') (p : Progress) :
    p.linesToClosing? lines' = p.linesToClosing? lines := linesToClosing_congr (h.imp fun _ _ => IsPadded.line_eq) p

/-- What follows the end of a block does not matter. -/
theorem linesToClosing_append {p : Progress} {block : List Text} {n : Nat} (h : p.linesToClosing? block = some n)
    (below : List Text) : p.linesToClosing? (block ++ below) = some n := by
  induction block generalizing p n with
  | nil => cases h
  | cons line block ih =>
    rw [List.cons_append, Progress.linesToClosing?]
    rw [Progress.linesToClosing?] at h
    cases hp : p.line? false line with
    | none =>
      rw [hp] at h
      exact h
    | some p' =>
      simp only [hp] at h ⊢
      obtain ⟨m, hm, rfl⟩ := Option.map_eq_some_iff.mp h
      rw [ih hm]
      rfl

theorem commentsAbove_padded (h : PaddedLines lines lines') : commentsAbove lines' = commentsAbove lines :=
  commentsAbove_congr (h.imp fun _ _ => IsPadded.strip_eq)

/-- Below lines that do not end with a comment the comments are those of the lines themselves. -/
theorem commentsAbove_append {below : List Text} (h : commentsAbove below = []) (above : List Text) :
    commentsAbove (above ++ below) = commentsAbove above := by
  induction above with
  | nil => exact h
  | cons line above ih => rw [List.cons_append, commentsAbove, commentsAbove, ih]

/-! ## Members -/

theorem bodyFrom_padded (h : PaddedLines lines lines') (depth : Int) (i j : Nat) :
    AlikeMembers (bodyFrom depth i lines) (bodyFrom depth j lines') := by
  induction h generalizing depth i j with
  | nil => exact .nil
  | @cons line line' rest rest' hline _ ih =>
    rw [bodyFrom, bodyFrom]
    simp only [hline.uncommented.strip_eq, hline.uncommented.depthAfter_eq]
    have hhere : AlikeMembers (if depth = 1 ∧ strip (uncommented line) ≠ ['\x7d'] then [(i, line)] else [])
        (if depth = 1 ∧ strip (uncommented line) ≠ ['\x7d'] then [(j, line')] else []) := by
      split
      · exact .cons hline.splitMember_eq .nil
      · exact .nil
    split
    · exact hhere
    · exact List.rel_append hhere (ih _ _ _)

/-- A method is the same on every line, but for its place. -/
theorem methodOf_unplaced (n n' : Nat) (code : Text) (note : Option Text) :
    (methodOf? n' code note).map (Option.map FunctionDecl.unplaced) =
      (methodOf? n code note).map (Option.map FunctionDecl.unplaced) := by
  unfold methodOf?
  cases identifier? code with
  | none => rfl
  | some found =>
    simp only [Option.bind_some]
    split
    · simp only [Option.map_some, Option.map_map]
      congr 2
      funext parts
      simp [FunctionDecl.unplaced]
    · rfl

theorem addMethod_alike {member member' : Nat × Text} (h : splitMember member'.2 = splitMember member.2)
    {found found' : List FunctionDecl × List Text}
    (hfound : found'.1.map FunctionDecl.unplaced = found.1.map FunctionDecl.unplaced ∧ found'.2 = found.2) :
    (addMethod found' member').1.map FunctionDecl.unplaced = (addMethod found member).1.map FunctionDecl.unplaced ∧
      (addMethod found' member').2 = (addMethod found member).2 := by
  obtain ⟨hmethods, hembedded⟩ := hfound
  have hmethod := methodOf_unplaced (member.1 + 1) (member'.1 + 1) (splitMember member.2).1 (splitMember member.2).2
  unfold addMethod
  simp only [h]
  split
  · exact ⟨hmethods, hembedded⟩
  · cases hm : methodOf? (member.1 + 1) (splitMember member.2).1 (splitMember member.2).2 with
    | none =>
      rw [hm, Option.map_none, Option.map_eq_none_iff] at hmethod
      simp only [hmethod]
      split
      · exact ⟨hmethods, by rw [hembedded]⟩
      · exact ⟨hmethods, hembedded⟩
    | some m =>
      rw [hm, Option.map_some] at hmethod
      obtain ⟨m', hm', hsame⟩ := Option.map_eq_some_iff.mp hmethod
      have hnew : m'.toList.map FunctionDecl.unplaced = m.toList.map FunctionDecl.unplaced := by
        rw [← Option.toList_map, ← Option.toList_map, hsame]
      simp only [hm', List.map_append, hmethods, hnew]
      exact ⟨trivial, hembedded⟩

theorem addMethods_alike {body body' : List (Nat × Text)} (h : AlikeMembers body body')
    {found found' : List FunctionDecl × List Text}
    (hfound : found'.1.map FunctionDecl.unplaced = found.1.map FunctionDecl.unplaced ∧ found'.2 = found.2) :
    (body'.foldl addMethod found').1.map FunctionDecl.unplaced =
        (body.foldl addMethod found).1.map FunctionDecl.unplaced ∧
      (body'.foldl addMethod found').2 = (body.foldl addMethod found).2 := by
  induction h generalizing found found' with
  | nil => exact hfound
  | cons hmember _ ih => exact ih (addMethod_alike hmember hfound)

/-- **Members that are read in the same way make the same type,** but for the places of its methods. -/
theorem membersOf_alike {body body' : List (Nat × Text)} (h : AlikeMembers body body') (kind : BodyKind) :
    (membersOf body' kind).1 = (membersOf body kind).1 ∧
      (membersOf body' kind).2.1.map FunctionDecl.unplaced = (membersOf body kind).2.1.map FunctionDecl.unplaced ∧
      (membersOf body' kind).2.2 = (membersOf body kind).2.2 := by
  cases kind with
  | struct => simp only [membersOf, addFields_alike h, and_self]
  | interface => exact ⟨rfl, addMethods_alike h ⟨rfl, rfl⟩⟩

end SourceDoc.Braced
