import SourceDoc.Braced.Outline
import SourceDoc.Proofs.Braced.TypeDecl
import SourceDoc.Proofs.Text.LineEnding

/-!
# Line endings in braced sources

Nothing that is read off the lines of a braced source depends on carriage returns at their ends.  A carriage return is
no bracket, no quote and no slash, so the scans that go through a line character by character end it in the same state
(`signatureLine_append_return`, `line_append_return`), and what they cut out of it is stripped.

    '\r' ∉ t → outlineOf language path (withReturns t) = outlineOf language path t,
      with another source                                                               (outlineOf_withReturns)
-/

namespace SourceDoc.Braced

open Text

variable {line line' : Text} {lines lines' : List Text}

/-! ## Comments to the end of a line -/

/-- The carriage return belongs to the comment if there is one. -/
theorem uncommentedFrom_append_return (quote : Option Char) (line : Text) :
    uncommentedFrom quote (line ++ ['\r']) = uncommentedFrom quote line ∨
      uncommentedFrom quote (line ++ ['\r']) = uncommentedFrom quote line ++ ['\r'] ∧
        uncommentedFrom quote line = line := by
  induction line generalizing quote with
  | nil => cases quote <;> exact .inr ⟨rfl, rfl⟩
  | cons c line ih =>
    have grow : ∀ quote', (uncommentedFrom quote' (line ++ ['\r']) = uncommentedFrom quote' line ∨
        uncommentedFrom quote' (line ++ ['\r']) = uncommentedFrom quote' line ++ ['\r'] ∧
          uncommentedFrom quote' line = line) →
        c :: uncommentedFrom quote' (line ++ ['\r']) = c :: uncommentedFrom quote' line ∨
          c :: uncommentedFrom quote' (line ++ ['\r']) = c :: uncommentedFrom quote' line ++ ['\r'] ∧
            c :: uncommentedFrom quote' line = c :: line := by
      rintro quote' (h | ⟨h, hline⟩)
      · exact .inl (congrArg (c :: ·) h)
      · exact .inr ⟨congrArg (c :: ·) h, congrArg (c :: ·) hline⟩
    have hhead : (line ++ ['\r']).head? = some '/' ↔ line.head? = some '/' := by
      cases line with
      | nil => decide
      | cons d line => rfl
    cases quote with
    | some q => exact grow _ (ih _)
    | none =>
      rw [List.cons_append, uncommentedFrom, uncommentedFrom]
      simp only [hhead]
      split
      · exact grow _ (ih _)
      · split
        · exact .inl rfl
        · exact grow _ (ih _)

theorem uncommented_sameLine (h : IsSameLine line line') : IsSameLine (uncommented line) (uncommented line') := by
  rcases h with rfl | rfl
  · exact .inl rfl
  · exact (uncommentedFrom_append_return none line).imp id And.left

theorem comment_sameLine (h : IsSameLine line line') :
    IsSameLine (line.drop (uncommented line).length) (line'.drop (uncommented line').length) := by
  rcases h with rfl | rfl
  · exact .inl rfl
  · unfold uncommented
    rcases uncommentedFrom_append_return none line with h | ⟨h, hline⟩
    · rw [h]
      exact IsSameLine.drop (.inr rfl) _
    · rw [h, hline]
      exact .inl (by rw [List.drop_length, List.drop_length])

/-! ## Signatures -/

theorem signatureLine_append_return (depth : Int) (before line : Text) :
    signatureLine depth before (line ++ ['\r']) = signatureLine depth before line := by
  induction line generalizing depth before with
  | nil => simp [signatureLine]
  | cons c line ih => simp only [List.cons_append, signatureLine, ih]

theorem signatureLine_sameLine (h : IsSameLine line line') (depth : Int) :
    signatureLine depth [] line' = signatureLine depth [] line := by
  rcases h with rfl | rfl
  · rfl
  · exact signatureLine_append_return depth [] line

theorem signatureFrom_sameLines (h : SameLines lines lines') (bound : Nat) (depth : Int) :
    (signatureFrom bound depth lines').1.map strip = (signatureFrom bound depth lines).1.map strip ∧
      (signatureFrom bound depth lines').2 = (signatureFrom bound depth lines).2 := by
  induction h generalizing bound depth with
  | nil => exact ⟨rfl, rfl⟩
  | @cons line line' rest rest' hline _ ih =>
    cases bound with
    | zero => exact ⟨rfl, rfl⟩
    | succ bound =>
      have hcode := uncommented_sameLine hline
      rw [signatureFrom, signatureFrom]
      simp only [signatureLine_sameLine hcode depth]
      cases signatureLine depth [] (uncommented line) with
      | closed column => exact ⟨by simp only [List.map_cons, (hcode.take column).strip_eq, List.map_nil], rfl⟩
      | goesOn depth =>
        simp only
        split
        · exact ⟨by simp only [List.map_cons, hcode.strip_eq, List.map_nil], rfl⟩
        · obtain ⟨hpieces, hbrace⟩ := ih bound depth
          exact ⟨by simp only [List.map_cons, hcode.strip_eq, hpieces], by simp only [hbrace]⟩

theorem functionHeader_sameLines (h : SameLines lines lines') :
    FunctionHeader.read? lines' = FunctionHeader.read? lines := by
  obtain ⟨hpieces, hbrace⟩ := signatureFrom_sameLines h maxSignatureLines 0
  unfold FunctionHeader.read? readSignature
  simp only [hpieces, hbrace]

/-! ## Blocks and comments -/

theorem line_append_return (p : Progress) (isSkipped : Bool) (line : Text) :
    p.line? isSkipped (line ++ ['\r']) = p.line? isSkipped line := by
  induction line generalizing p isSkipped with
  | nil =>
    obtain ⟨depth, region⟩ := p
    cases isSkipped
    · cases region <;> simp [Progress.line?]
    · rfl
  | cons c line ih =>
    have hhead : ∀ d, d ≠ '\r' → ((line ++ ['\r']).head? = some d ↔ line.head? = some d) := by
      intro d hd
      cases line with
      | nil => simp [Ne.symm hd]
      | cons e line => rfl
    simp only [List.cons_append, Progress.line?, ih, hhead '/' (by decide), hhead '*' (by decide)]

theorem line_sameLine (h : IsSameLine line line') (p : Progress) : p.line? false line' = p.line? false line := by
  rcases h with rfl | rfl
  · rfl
  · exact line_append_return p false line

theorem linesToClosing_sameLines (h : SameLines lines lines') (p : Progress) :
    p.linesToClosing? lines' = p.linesToClosing? lines := linesToClosing_congr (h.imp fun _ _ => line_sameLine) p

theorem closingLine_sameLines (h : SameLines lines lines') (total i column : Nat) :
    closingLine lines' total i column = closingLine lines total i column := by
  have hbody := h.drop i
  unfold closingLine
  generalize lines.drop i = body, lines'.drop i = body' at hbody
  cases hbody with
  | nil => rfl
  | cons hline hrest => simp only [linesToClosing_sameLines (.cons (hline.drop column) hrest)]

theorem leadingComments_sameLines (h : SameLines lines lines') (i : Nat) :
    leadingComments lines' i = leadingComments lines i := by
  unfold leadingComments
  rw [commentsAbove_congr ((List.forall₂_reverse_iff.mpr (h.take i)).imp fun _ _ hline => hline.strip_eq)]

/-! ## Functions -/

theorem functionOn_sameLines (h : SameLines lines lines') (total i : Nat) :
    functionOn? lines' total i = functionOn? lines total i := by
  unfold functionOn? functionAt? FunctionHeader.stop
  rw [(h.getD i).startsWith_eq (by decide), functionHeader_sameLines (h.drop i)]
  simp only [leadingComments_sameLines h, closingLine_sameLines h]

theorem functionsOf_sameLines (h : SameLines lines lines') (total : Nat) :
    functionsOf lines' total = functionsOf lines total := by
  unfold functionsOf
  rw [h.length_eq, funext (functionOn_sameLines h total)]

/-! ## Members of types -/

/-- The carriage return comes after the last separator. -/
theorem breakLast_append_return {sep : Char} (hs : '\r' ≠ sep) (t : Text) :
    breakLast? sep (t ++ ['\r']) = (breakLast? sep t).map fun (front, rest) => (front, rest ++ ['\r']) := by
  have hlen : ((t.reverse.takeWhile (· ≠ sep)).reverse).length ≤ t.length := by
    have hle : (t.reverse.takeWhile (· ≠ sep)).length ≤ t.reverse.length := (List.takeWhile_prefix _).length_le
    rw [List.length_reverse] at hle ⊢
    exact hle
  unfold breakLast?
  rw [List.any_append, List.reverse_append, List.reverse_singleton, List.singleton_append,
    List.takeWhile_cons_of_pos (by simpa using hs)]
  by_cases hany : (t.any (· == sep)) = true
  · simp only [hany, Bool.true_or, if_true, Option.map_some, List.reverse_cons, List.length_append,
      List.length_singleton]
    rw [List.take_append_of_le_length (by omega)]
    congr 3
    omega
  · simp [hany, hs]

theorem depthAfter_sameLine (h : IsSameLine line line') (depth : Int) :
    depthAfter depth line' = depthAfter depth line := by
  rcases h with rfl | rfl
  · rfl
  · simp [depthAfter, List.filter_append]

/-- The members are on the same lines. -/
abbrev SameMembers (body body' : List (Nat × Text)) : Prop :=
  List.Forall₂ (fun member member' => member'.1 = member.1 ∧ IsSameLine member.2 member'.2) body body'

theorem bodyFrom_sameLines (h : SameLines lines lines') (depth : Int) (i : Nat) :
    SameMembers (bodyFrom depth i lines) (bodyFrom depth i lines') := by
  induction h generalizing depth i with
  | nil => exact .nil
  | @cons line line' rest rest' hline _ ih =>
    have hcode := uncommented_sameLine hline
    rw [bodyFrom, bodyFrom]
    simp only [hcode.strip_eq, depthAfter_sameLine hcode]
    have hhere : SameMembers (if depth = 1 ∧ strip (uncommented line) ≠ ['\x7d'] then [(i, line)] else [])
        (if depth = 1 ∧ strip (uncommented line) ≠ ['\x7d'] then [(i, line')] else []) := by
      split
      · exact .cons ⟨rfl, hline⟩ .nil
      · exact .nil
    split
    · exact hhere
    · exact List.rel_append hhere (ih _ _)

theorem bodyOf_sameLines (h : SameLines lines lines') (i column stop : Nat) :
    SameMembers (bodyOf lines i column stop) (bodyOf lines' i column stop) := by
  have hbelow := bodyFrom_sameLines ((h.take stop).drop (i + 1)) 1 (i + 1)
  have htail := (h.getD i).drop (column + 1)
  unfold bodyOf
  generalize ((lines[i]?).getD []).drop (column + 1) = tail, ((lines'[i]?).getD []).drop (column + 1) = tail' at htail
  have hbreak : (breakLast? '\x7d' tail').map Prod.fst = (breakLast? '\x7d' tail).map Prod.fst := by
    rcases htail with rfl | rfl
    · rfl
    · rw [breakLast_append_return (by decide)]
      cases breakLast? '\x7d' tail <;> rfl
  cases hb : breakLast? '\x7d' tail with
  | none =>
    rw [hb, Option.map_none, Option.map_eq_none_iff] at hbreak
    simp only [hb, hbreak]
    exact hbelow
  | some found =>
    rw [hb] at hbreak
    obtain ⟨found', hb', hfront⟩ := Option.map_eq_some_iff.mp hbreak
    simp only [hb, hb', hfront]
    exact List.forall₂_same.mpr fun _ _ => ⟨rfl, .inl rfl⟩

theorem splitMember_sameLine (h : IsSameLine line line') : splitMember line' = splitMember line := by
  unfold splitMember dropTag
  simp only [(uncommented_sameLine h).strip_eq, (comment_sameLine h).strip_eq]

theorem addMethod_sameLine (h : IsSameLine line line') (n : Nat) (found : List FunctionDecl × List Text) :
    addMethod found (n, line') = addMethod found (n, line) := by
  unfold addMethod
  simp only [splitMember_sameLine h]

theorem addMethods_sameLines {body body' : List (Nat × Text)} (h : SameMembers body body')
    (found : List FunctionDecl × List Text) : body'.foldl addMethod found = body.foldl addMethod found := by
  induction h generalizing found with
  | nil => rfl
  | @cons member member' _ _ hmember _ ih =>
    obtain ⟨n, line⟩ := member
    obtain ⟨n', line'⟩ := member'
    obtain ⟨rfl, hline⟩ := hmember
    rw [List.foldl_cons, List.foldl_cons, addMethod_sameLine hline, ih]

theorem membersOf_sameLines {body body' : List (Nat × Text)} (h : SameMembers body body') (kind : BodyKind) :
    membersOf body' kind = membersOf body kind := by
  cases kind with
  | struct =>
    have hfields : AlikeMembers body body' := h.imp fun _ _ hmember => splitMember_sameLine hmember.2
    simp only [membersOf, addFields_alike hfields]
  | interface => simp only [membersOf, addMethods_sameLines h]

/-! ## Types -/

theorem braceColumn_sameLine (h : IsSameLine line line') (kind : BodyKind) :
    braceColumn line' kind = braceColumn line kind := by
  have hword : '\r' ∉ kind.word ∧ kind.word ≠ [] := by cases kind <;> decide
  rcases h with rfl | rfl
  · rfl
  · unfold braceColumn
    rw [breakOn_append_return hword.1 hword.2]
    cases breakOn? kind.word line with
    | none => rfl
    | some found =>
      simp only [Option.map_some, breakOn_append_return (show '\r' ∉ ['\x7b'] by decide) (by decide)]
      cases breakOn? ['\x7b'] found.2 <;> rfl

theorem typeAt_sameLines (h : SameLines lines lines') (total i : Nat) (name : Text) (kind : BodyKind) :
    typeAt lines' total i name kind = typeAt lines total i name kind := by
  unfold typeAt
  rw [braceColumn_sameLine (h.getD i)]
  simp only [closingLine_sameLines h, membersOf_sameLines (bodyOf_sameLines h _ _ _), leadingComments_sameLines h]

/-- Whether a line is indented matters only where something stands on it. -/
theorem isIndented_sameLine (h : IsSameLine line line') (hline : strip line ≠ []) :
    isIndented line' = isIndented line := by
  rcases h with rfl | rfl
  · rfl
  · cases line with
    | nil => exact absurd rfl hline
    | cons c line => rfl

theorem typeStartsFrom_sameLines (h : SameLines lines lines') (inGroup : Bool) (i : Nat) :
    typeStartsFrom inGroup i lines' = typeStartsFrom inGroup i lines := by
  induction h generalizing inGroup i with
  | nil => rfl
  | @cons line line' rest rest' hline _ ih =>
    rw [typeStartsFrom, typeStartsFrom, hline.strip_eq, hline.startsWith_eq (by decide)]
    simp only [ih]
    by_cases hblank : strip line = []
    · simp [hblank, show declaredStart? [] = none by rfl, show typeStart? [] = none by rfl]
    · rw [isIndented_sameLine hline hblank]

theorem typesOf_sameLines (h : SameLines lines lines') (total : Nat) : typesOf lines' total = typesOf lines total := by
  unfold typesOf
  simp only [typeStartsFrom_sameLines h, typeAt_sameLines h]

/-! ## Imports and exports -/

theorem importsFrom_sameLines (h : SameLines lines lines') (inGroup : Bool) (n : Nat) :
    importsFrom inGroup n lines' = importsFrom inGroup n lines := by
  induction h generalizing inGroup n with
  | nil => rfl
  | cons hline _ ih => simp only [importsFrom, (uncommented_sameLine hline).strip_eq, ih]

theorem definitionsOf_sameLines (h : SameLines lines lines') : definitionsOf lines' = definitionsOf lines := by
  unfold definitionsOf
  rw [h.length_eq]
  refine List.filterMap_congr fun i _ => ?_
  simp only [(h.getD i).startsWith_eq (show '\r' ∉ "type".toList by decide),
    (uncommented_sameLine (h.getD i)).strip_eq]

/-- **The outline does not depend on carriage returns before newlines,** but for the source itself. -/
theorem outlineOf_withReturns (language path : Text) {t : Text} (ht : '\r' ∉ t) :
    outlineOf language path (withReturns t) =
      (outlineOf language path t).map fun o => { o with source := withReturns t } := by
  have h := lines_withReturns t
  unfold outlineOf importsOf exportsOf
  simp only [length_boundaryLines_withReturns ht, functionsOf_sameLines h, typesOf_sameLines h,
    importsFrom_sameLines h, definitionsOf_sameLines h]
  cases functionsOf (Text.lines t) (boundaryLines t).length with
  | error f => rfl
  | ok functions => cases typesOf (Text.lines t) (boundaryLines t).length <;> rfl

end SourceDoc.Braced
