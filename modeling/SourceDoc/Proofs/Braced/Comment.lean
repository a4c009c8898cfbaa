import SourceDoc.Proofs.Braced.Outline
import SourceDoc.Proofs.Braced.Recognised
import SourceDoc.Proofs.Braced.Stream
import SourceDoc.Proofs.Text.Comment

/-!
# The comments of functions and types

A line holds a comment and nothing else if the stream of the source says so: two slashes and what is inside the comment
up to the end of the line, or a comment that is closed on the line, with blanks around it (`IsComment`).  The lines
directly above a symbol that hold a comment each (`IsRunAbove`) are its comments,

    d.comments = joined texts ↔ ∀ m t, m < n → IsBridged lines m n → commentOnLine? lines[m] = some t → t = []
                                                                                             (extract_comments)

unless there is something above them that is taken for a comment, with nothing but blank lines and more of this kind in
between.
-/

namespace SourceDoc.Braced

open Text

/-! ## Lines that hold a comment -/

/-- Characters that are all the same part of a stream. -/
def places (part : Part) (t : Text) : List (Sign × Part) := t.map fun c => (.char c, part)

/-- The characters of line `k` in the stream of some lines. -/
def placesOf (lines : List Text) (k : Nat) : List (Sign × Part) :=
  ((annotated .code (streamOf lines)).drop (streamOf (lines.take k)).length).take ((lines[k]?).getD []).length

/-- Some characters are blanks and one whole comment, with the given text. -/
inductive IsComment : List (Sign × Part) → Text → Prop
  | toEnd {lead body : Text} : isBlankText lead = true →
      IsComment (places .code lead ++ places .mark ['/', '/'] ++ places .inside body) (strip body)
  | closed {lead body trail : Text} : isBlankText lead = true → isBlankText trail = true →
      IsComment (places .code lead ++ places .mark ['/', '*'] ++ places .inside body ++ places .mark ['*', '/'] ++
        places .code trail) (strip body)

/-- The lines from `n` up to line `i` hold a comment each, with the given texts, and the line above them does not. -/
inductive IsRunAbove (lines : List Text) : Nat → Nat → List Text → Prop
  | none {i : Nat} : (∀ k, k + 1 = i → ∀ t, ¬ IsComment (placesOf lines k) t) → IsRunAbove lines i i []
  | more {n i : Nat} {texts : List Text} {t : Text} : IsRunAbove lines n i texts → IsComment (placesOf lines i) t →
      IsRunAbove lines n (i + 1) (texts ++ [t])

/-- The lines from `m` to `n` are blank or taken for comments. -/
def IsBridged (lines : List Text) (m n : Nat) : Prop :=
  ∀ k, m ≤ k → k < n → isBlankText ((lines[k]?).getD []) = true ∨ (commentOnLine? ((lines[k]?).getD [])).isSome = true

/-- The comments of a symbol that starts on a line, counted from 1: those directly above it, if there is no text further
up that is taken for a comment. -/
def IsCommented (lines : List Text) (startLine : Int) (comments : Option Text) : Prop :=
  ∃ (i n : Nat) (texts : List Text), startLine = i + 1 ∧ i < lines.length ∧ IsRunAbove lines n i texts ∧
    (comments = joined texts ↔
      ∀ m t, m < n → IsBridged lines m n → commentOnLine? ((lines[m]?).getD []) = some t → t = [])

/-! ## What is taken for a comment -/

theorem strip_commentOnLine {line t : Text} (h : commentOnLine? line = some t) : strip t = t := by
  unfold commentOnLine? at h
  simp only at h
  split at h
  · cases h
    exact strip_strip _
  · split at h
    · cases h
      exact strip_strip _
    · cases h

theorem commentOnLine_toEnd {lead body : Text} (hlead : isBlankText lead = true) :
    commentOnLine? (lead ++ ['/', '/'] ++ body) = some (strip body) := by
  have hstrip : strip (lead ++ ['/', '/'] ++ body) = ['/', '/'] ++ stripRight body := by
    rw [List.append_assoc, strip_blank_append _ hlead]
    exact strip_append_right rfl (List.cons_ne_nil _ _) body
  have hmark : startsWith (['/', '/'] ++ stripRight body) ['/', '/'] = true :=
    List.isPrefixOf_iff_prefix.mpr (List.prefix_append _ _)
  unfold commentOnLine?
  simp only [hstrip, hmark, if_true, List.drop_left' (show ['/', '/'].length = 2 from rfl), strip_stripRight]

theorem commentOnLine_closed {lead body trail : Text} (hlead : isBlankText lead = true)
    (htrail : isBlankText trail = true) :
    commentOnLine? (lead ++ ['/', '*'] ++ body ++ ['*', '/'] ++ trail) = some (strip body) := by
  have hstrip : strip (lead ++ ['/', '*'] ++ body ++ ['*', '/'] ++ trail) = ['/', '*'] ++ body ++ ['*', '/'] := by
    rw [strip_append_blank _ htrail, List.append_assoc lead, List.append_assoc lead, strip_blank_append _ hlead]
    exact strip_append_self rfl (List.cons_ne_nil _ _) rfl (List.cons_ne_nil _ _) body
  have hmark : startsWith (['/', '*'] ++ body ++ ['*', '/']) ['/', '*'] = true :=
    List.isPrefixOf_iff_prefix.mpr (List.append_assoc _ _ _ ▸ List.prefix_append _ _)
  have hend : endsWith (['/', '*'] ++ body ++ ['*', '/']) ['*', '/'] = true :=
    List.isSuffixOf_iff_suffix.mpr (List.suffix_append _ _)
  have hother : startsWith (['/', '*'] ++ body ++ ['*', '/']) ['/', '/'] = false := rfl
  have hbody : ((['/', '*'] ++ body ++ ['*', '/']).drop 2).take ((['/', '*'] ++ body ++ ['*', '/']).length - 4) = body := by
    simp
  unfold commentOnLine?
  simp only [hstrip, hmark, hend, hother, hbody, Bool.false_eq_true, if_false, Bool.and_self, if_true]

theorem map_fst_places (part : Part) (t : Text) : (places part t).map Prod.fst = t.map Sign.char := by
  unfold places
  rw [List.map_map]
  rfl

/-- The places of a line are its characters. -/
theorem map_fst_placesOf (lines : List Text) (k : Nat) :
    (placesOf lines k).map Prod.fst = ((lines[k]?).getD []).map Sign.char := by
  have hstream : (streamOf lines).drop (streamOf (lines.take k)).length = streamOf (lines.drop k) := by
    have hsplit : streamOf lines = streamOf (lines.take k) ++ streamOf (lines.drop k) := by
      unfold streamOf
      rw [← List.flatMap_append, List.take_append_drop]
    rw [hsplit, List.drop_left]
  unfold placesOf
  rw [List.map_take, List.map_drop, map_fst_annotated, hstream]
  cases hline : lines[k]? with
  | none => rfl
  | some line =>
    obtain ⟨hk, rfl⟩ := List.getElem?_eq_some_iff.mp hline
    rw [List.drop_eq_getElem_cons hk, streamOf, List.flatMap_cons, List.append_assoc]
    exact List.take_left' (List.length_map _)

/-- **A line that holds a comment is taken for one.** -/
theorem commentOnLine_of_isComment {lines : List Text} {k : Nat} {t : Text} (h : IsComment (placesOf lines k) t) :
    commentOnLine? ((lines[k]?).getD []) = some t := by
  have hline := map_fst_placesOf lines k
  have hinj : Function.Injective Sign.char := fun c d h => Sign.char.inj h
  generalize placesOf lines k = ps at h hline
  cases h with
  | @toEnd lead body hlead =>
    rw [List.map_append, List.map_append, map_fst_places, map_fst_places, map_fst_places, ← List.map_append,
      ← List.map_append] at hline
    rw [← List.map_injective_iff.mpr hinj hline]
    exact commentOnLine_toEnd hlead
  | @closed lead body trail hlead htrail =>
    simp only [List.map_append, map_fst_places] at hline
    simp only [← List.map_append] at hline
    rw [← List.map_injective_iff.mpr hinj hline]
    exact commentOnLine_closed hlead htrail

/-! ## What is attached -/

section

variable {lines : List Text}

/-- There is one run of comments above a line. -/
theorem exists_isRunAbove (lines : List Text) (i : Nat) : ∃ n texts, IsRunAbove lines n i texts := by
  induction i with
  | zero => exact ⟨0, [], .none fun k hk => absurd hk (Nat.succ_ne_zero k)⟩
  | succ i ih =>
    by_cases h : ∃ t, IsComment (placesOf lines i) t
    · obtain ⟨t, ht⟩ := h
      obtain ⟨n, texts, hrun⟩ := ih
      exact ⟨n, texts ++ [t], .more hrun ht⟩
    · refine ⟨i + 1, [], .none fun k hk t ht => h ⟨t, ?_⟩⟩
      cases hk
      exact ht

theorem IsRunAbove.le {n i : Nat} {texts : List Text} (h : IsRunAbove lines n i texts) : n ≤ i := by
  induction h with
  | none => exact Nat.le_refl _
  | more _ _ ih => exact Nat.le_succ_of_le ih

/-- The texts of what is attached above a line, from the top. -/
def attachedTo (lines : List Text) (i : Nat) : List Text := (commentsAbove (lines.take i).reverse).reverse

theorem attachedTo_succ {i : Nat} (hi : i < lines.length) :
    attachedTo lines (i + 1) =
      match commentOnLine? ((lines[i]?).getD []) with
      | some t => attachedTo lines i ++ [t]
      | none => if isBlankText ((lines[i]?).getD []) then attachedTo lines i else [] := by
  unfold attachedTo
  rw [List.take_succ_eq_append_getElem hi, List.reverse_append, List.reverse_singleton, List.singleton_append,
    commentsAbove, List.getElem?_eq_getElem hi, Option.getD_some]
  cases commentOnLine? lines[i] with
  | some t => exact List.reverse_cons
  | none => exact apply_ite List.reverse _ _ _

/-- **All comments directly above a line are attached.** -/
theorem attachedTo_of_isRunAbove {n i : Nat} {texts : List Text} (h : IsRunAbove lines n i texts)
    (hi : i ≤ lines.length) : attachedTo lines i = attachedTo lines n ++ texts := by
  induction h with
  | none => exact (List.append_nil _).symm
  | more _ ht ih =>
    rw [attachedTo_succ hi, commentOnLine_of_isComment ht]
    exact (congrArg (· ++ [_]) (ih (Nat.le_of_succ_le hi))).trans (List.append_assoc _ _ _)

theorem strip_of_mem_attachedTo {i : Nat} {t : Text} (h : t ∈ attachedTo lines i) : strip t = t := by
  rw [attachedTo, List.mem_reverse] at h
  generalize (lines.take i).reverse = above at h
  induction above with
  | nil => cases h
  | cons line above ih =>
    rw [commentsAbove] at h
    split at h
    · rename_i hline
      rcases List.mem_cons.mp h with rfl | h
      · exact strip_commentOnLine hline
      · exact ih h
    · split at h
      · exact ih h
      · cases h

theorem isBridged_succ {m n : Nat} (hm : m ≤ n) : IsBridged lines m (n + 1) ↔
    (isBlankText ((lines[n]?).getD []) = true ∨ (commentOnLine? ((lines[n]?).getD [])).isSome = true) ∧
      IsBridged lines m n := by
  constructor
  · exact fun h => ⟨h n hm (Nat.lt_succ_self n), fun k hmk hkn => h k hmk (Nat.lt_succ_of_lt hkn)⟩
  · rintro ⟨hn, h⟩ k hmk hkn
    rcases Nat.lt_succ_iff_lt_or_eq.mp hkn with hkn | rfl
    · exact h k hmk hkn
    · exact hn

/-- What is attached above a line is taken for a comment, with nothing but blank lines and the like in between. -/
theorem mem_attachedTo_iff {n : Nat} (hn : n ≤ lines.length) (t : Text) :
    t ∈ attachedTo lines n ↔
      ∃ m, m < n ∧ IsBridged lines m n ∧ commentOnLine? ((lines[m]?).getD []) = some t := by
  induction n with
  | zero => exact iff_of_false List.not_mem_nil fun ⟨m, hm, _⟩ => absurd hm (Nat.not_lt_zero m)
  | succ n ih =>
    have hsplit : (∃ m, m < n + 1 ∧ IsBridged lines m (n + 1) ∧ commentOnLine? ((lines[m]?).getD []) = some t) ↔
        (isBlankText ((lines[n]?).getD []) = true ∨ (commentOnLine? ((lines[n]?).getD [])).isSome = true) ∧
          (t ∈ attachedTo lines n ∨ commentOnLine? ((lines[n]?).getD []) = some t) := by
      rw [ih (Nat.le_of_succ_le hn)]
      constructor
      · rintro ⟨m, hm, hbridged, ht⟩
        obtain ⟨hline, hbridged⟩ := (isBridged_succ (Nat.le_of_lt_succ hm)).mp hbridged
        refine ⟨hline, ?_⟩
        rcases Nat.lt_succ_iff_lt_or_eq.mp hm with hm | rfl
        · exact .inl ⟨m, hm, hbridged, ht⟩
        · exact .inr ht
      · rintro ⟨hline, ⟨m, hm, hbridged, ht⟩ | ht⟩
        · exact ⟨m, Nat.lt_succ_of_lt hm, (isBridged_succ (Nat.le_of_lt hm)).mpr ⟨hline, hbridged⟩, ht⟩
        · have hself : IsBridged lines n n := fun k hnk hkn => absurd hkn (Nat.not_lt.mpr hnk)
          exact ⟨n, Nat.lt_succ_self n, (isBridged_succ (Nat.le_refl n)).mpr ⟨hline, hself⟩, ht⟩
    rw [attachedTo_succ hn, hsplit]
    cases commentOnLine? ((lines[n]?).getD []) with
    | some u =>
      simp only [List.mem_append, List.mem_singleton, Option.isSome_some, or_true, true_and, Option.some.injEq]
      exact or_congr_right eq_comm
    | none => cases isBlankText ((lines[n]?).getD []) <;> simp

/-- **The comments above a line, and when they are all that is attached.** -/
theorem leadingComments_eq_joined_iff {n i : Nat} {texts : List Text} (h : IsRunAbove lines n i texts)
    (hi : i ≤ lines.length) :
    leadingComments lines i = joined texts ↔
      ∀ m t, m < n → IsBridged lines m n → commentOnLine? ((lines[m]?).getD []) = some t → t = [] := by
  have hjoined : leadingComments lines i = joined (attachedTo lines n ++ texts) := by
    rw [← attachedTo_of_isRunAbove h hi]
    exact joinComments_eq fun t ht => strip_of_mem_attachedTo ht
  rw [hjoined, joined_append_iff]
  simp only [mem_attachedTo_iff (Nat.le_trans h.le hi)]
  exact ⟨fun h m t hm hbridged ht => h t ⟨m, hm, hbridged, ht⟩, fun h t ⟨m, hm, hbridged, ht⟩ => h m t hm hbridged ht⟩

theorem isCommented_leadingComments {i : Nat} (hi : i < lines.length) :
    IsCommented lines (i + 1) (leadingComments lines i) := by
  obtain ⟨n, texts, hrun⟩ := exists_isRunAbove lines i
  exact ⟨i, n, texts, rfl, hi, hrun, leadingComments_eq_joined_iff hrun (Nat.le_of_lt hi)⟩

/-! ## Functions and types -/

variable {total i : Nat}

theorem isCommented_of_functionOn {f : FunctionDecl} (hi : i < lines.length)
    (h : functionOn? lines total i = .ok (some f)) : IsCommented lines f.startLine f.comments := by
  unfold functionOn? functionAt? at h
  split at h
  · split at h
    · cases h
    · obtain ⟨receiver, -, hf⟩ := exists_of_map_ok h
      cases hf
      exact isCommented_leadingComments hi
  · cases h

theorem isCommented_of_typeAt {name : Text} {kind : BodyKind} {t : SourceDoc.TypeDecl} (hi : i < lines.length)
    (h : typeAt lines total i name kind = .ok t) : IsCommented lines t.startLine t.comments := by
  obtain ⟨column, -, rfl⟩ := exists_of_map_ok h
  exact isCommented_leadingComments hi

theorem isCommented_of_typesOf {types : List SourceDoc.TypeDecl} (h : typesOf lines total = .ok types) :
    ∀ t ∈ types, IsCommented lines t.startLine t.comments := by
  intro t ht
  obtain ⟨start, hstart, hat⟩ := exists_of_mem_mapM h ht
  obtain ⟨n, line, hn, hline, -⟩ := (typeStartsFrom_cases false 0 lines).1 start hstart
  refine isCommented_of_typeAt ?_ hat
  rw [hn, Nat.zero_add]
  exact (List.getElem?_eq_some_iff.mp hline).1

end

/-- **The comments of functions and types are those directly above them, if nothing further up is taken for one.** -/
theorem extract_comments (path source : Text) :
    ∃ o, (Extractor.builtIn .go).extract path source = .ok o ∧
      (∀ f ∈ o.functions, IsCommented (Text.lines source) f.startLine f.comments) ∧
      ∀ t ∈ o.types, IsCommented (Text.lines source) t.startLine t.comments := by
  obtain ⟨o, types, ho, h⟩ := extract_holds path source
  refine ⟨o, ho, fun f hf => ?_, fun t ht => ?_⟩
  · obtain ⟨i, hi, hon⟩ := (mem_functionsOf_iff h.functions f).mp hf
    exact isCommented_of_functionOn hi hon
  · rw [h.attached] at ht
    obtain ⟨t', ht', rfl⟩ := List.mem_map.mp ht
    exact isCommented_of_typesOf h.found t' ht'

/-- A note on the package, a blank line, and a function without comments. -/
def notedPackage : Text := "package a\n// License\n\nfunc F() \x7b\n\x7d\n".toList

/-- The note is attached to the function below the blank line. -/
theorem extract_detached : ∃ o, (Extractor.builtIn .go).extract "a.go".toList notedPackage = .ok o ∧
    o.functions.map (fun f => (f.startLine, f.comments)) = [(4, some "License".toList)] ∧
    ∀ n texts, IsRunAbove (Text.lines notedPackage) n 3 texts → joined texts = none := by
  have hfunctions : (functionsOf (Text.lines notedPackage) (boundaryLines notedPackage).length).toOption.map
      (fun fs => fs.map fun f => (f.startLine, f.comments)) = some [(4, some "License".toList)] := by
    decide
  obtain ⟨o, types, ho, h⟩ := extract_holds "a.go".toList notedPackage
  rw [h.functions] at hfunctions
  refine ⟨o, ho, Option.some.inj hfunctions, fun n texts hrun => ?_⟩
  cases hrun with
  | none => rfl
  | more _ ht => cases commentOnLine_of_isComment ht

end SourceDoc.Braced
