import Mathlib.Data.List.Flatten
import SourceDoc.Proofs.Text.Line
import SourceDoc.Proofs.Text.Nesting
import SourceDoc.Text.Comment

/-!
# Comments

The texts of comments have no blanks at their ends, so nothing is stripped from them when they are joined
(`joinComments_eq`).  More texts make a longer comment, unless they are empty:

    joined (above ++ texts) = joined texts ↔ ∀ t ∈ above, t = []                            (joined_append_iff)

The text in a block comment is what stands on its lines, each without the blanks around it and without a star at its
front; the opening may have a second star (`bodyText`).  It is what is left of the comment without its markers if there
is anything between them:

    stripComment (blockComment b) = bodyText b ↔ b ≠ []                                     (stripComment_blockComment)

Between the markers of `/**/` there is nothing.  Its second star is taken for that of the opening, so there is no closing
left to be found, and its last slash is taken for the text (`stripComment_emptyBlock`).
-/

namespace SourceDoc.Text

/-- The texts that are not empty, one below the other, if there are any. -/
def joined (texts : List Text) : Option Text :=
  if texts.filter (· ≠ []) = [] then none else some (joinLines (texts.filter (· ≠ [])))

/-! ## Nothing is stripped -/

theorem strip_joinLines {texts : List Text} (h : ∀ t ∈ texts, strip t = t ∧ t ≠ []) (hne : texts ≠ []) :
    strip (joinLines texts) = joinLines texts ∧ joinLines texts ≠ [] := by
  induction texts with
  | nil => exact absurd rfl hne
  | cons t texts ih =>
    obtain ⟨ht, htexts⟩ := List.forall_mem_cons.mp h
    by_cases hnil : texts = []
    · rw [hnil]
      exact ht
    · obtain ⟨hstrip, hrest⟩ := ih htexts hnil
      unfold joinLines at hstrip hrest ⊢
      rw [joinWith_cons _ _ _ hnil]
      exact ⟨strip_append_self ht.1 ht.2 hstrip hrest _, List.append_ne_nil_of_right_ne_nil _ hrest⟩

theorem joinComments_eq {texts : List Text} (h : ∀ t ∈ texts, strip t = t) : joinComments texts = joined texts := by
  unfold joinComments joined
  by_cases hnil : texts.filter (· ≠ []) = []
  · rw [if_pos hnil, hnil]
    rfl
  · rw [if_neg hnil]
    obtain ⟨hstrip, hne⟩ := strip_joinLines (fun t ht => by
      obtain ⟨hmem, hne⟩ := List.mem_filter.mp ht
      exact ⟨h t hmem, of_decide_eq_true hne⟩) hnil
    exact stripped_of_strip hstrip hne

theorem strip_stripComment (t : Text) : strip (stripComment t) = stripComment t := by
  unfold stripComment
  split
  · exact strip_strip _
  · exact strip_strip _
  · exact strip_strip t

/-! ## More texts -/

theorem cons_joinLines {texts : List Text} (hne : texts ≠ []) :
    '\n' :: joinLines texts = texts.flatMap ('\n' :: ·) := by
  induction texts with
  | nil => exact absurd rfl hne
  | cons t texts ih =>
    rw [List.flatMap_cons]
    by_cases hnil : texts = []
    · rw [hnil]
      exact (List.append_nil _).symm
    · rw [← ih hnil]
      unfold joinLines
      rw [joinWith_cons _ _ _ hnil, List.append_assoc]
      rfl

/-- A text more is a line more. -/
theorem eq_of_sublist {texts more : List Text} (h : texts.Sublist more)
    (hlen : (more.flatMap ('\n' :: ·)).length ≤ (texts.flatMap ('\n' :: ·)).length) : texts = more := by
  induction h with
  | slnil => rfl
  | @cons texts more t h ih =>
    have hle : (texts.flatMap ('\n' :: ·)).length ≤ (more.flatMap ('\n' :: ·)).length := (h.flatMap _).length_le
    rw [List.flatMap_cons, List.length_append, List.length_cons] at hlen
    omega
  | @cons_cons texts more t h ih =>
    rw [List.flatMap_cons, List.flatMap_cons, List.length_append, List.length_append, Nat.add_le_add_iff_left] at hlen
    rw [ih hlen]

theorem joined_eq_iff {texts more : List Text} (h : texts.Sublist more) :
    joined more = joined texts ↔ more.filter (· ≠ []) = texts.filter (· ≠ []) := by
  refine ⟨fun heq => ?_, fun heq => by unfold joined; rw [heq]⟩
  unfold joined at heq
  by_cases hmore : more.filter (· ≠ []) = []
  · have hnil := h.filter (· ≠ [])
    rw [hmore] at hnil ⊢
    exact (List.sublist_nil.mp hnil).symm
  · rw [if_neg hmore] at heq
    split at heq
    · cases heq
    · rename_i htexts
      refine (eq_of_sublist (h.filter _) (Nat.le_of_eq ?_)).symm
      rw [← cons_joinLines hmore, ← cons_joinLines htexts, Option.some.inj heq]

/-- **Texts above others are seen unless they are empty.** -/
theorem joined_append_iff (above texts : List Text) :
    joined (above ++ texts) = joined texts ↔ ∀ t ∈ above, t = [] := by
  rw [joined_eq_iff (List.sublist_append_right above texts), List.filter_append, List.append_left_eq_self,
    List.filter_eq_nil_iff]
  exact forall_congr' fun t => forall_congr' fun _ => by rw [decide_eq_true_eq, Decidable.not_not]

/-- **Texts among others are seen unless they are empty.** -/
theorem joined_filter_iff {α : Type} (f : α → Text) (p : α → Bool) (l : List α) :
    joined (l.map f) = joined ((l.filter p).map f) ↔ ∀ a ∈ l, p a = false → f a = [] := by
  rw [joined_eq_iff (List.filter_sublist.map f)]
  induction l with
  | nil => exact iff_of_true rfl nofun
  | cons a l ih =>
    rw [List.forall_mem_cons, ← ih, List.map_cons]
    by_cases hnil : f a = []
    · have hskip : (f a :: l.map f).filter (· ≠ []) = (l.map f).filter (· ≠ []) := by simp [hnil]
      have hskip' : (((a :: l).filter p).map f).filter (· ≠ []) = ((l.filter p).map f).filter (· ≠ []) := by
        cases hp : p a <;> simp [hp, hnil]
      rw [hskip, hskip']
      exact (and_iff_right fun _ => hnil).symm
    · cases hp : p a with
      | true => simp [hp, hnil]
      | false =>
        refine iff_of_false (fun heq => ?_) fun h => hnil (h.1 rfl)
        have hle : (((l.filter p).map f).filter (· ≠ [])).length ≤ ((l.map f).filter (· ≠ [])).length :=
          ((List.filter_sublist.map f).filter _).length_le
        -- on the left there is one text more
        have hmore : (f a :: l.map f).filter (· ≠ []) = f a :: (l.map f).filter (· ≠ []) :=
          List.filter_cons_of_pos (by simpa using hnil)
        have hlen := congrArg List.length heq
        rw [hmore, List.filter_cons_of_neg (by simp [hp]), List.length_cons] at hlen
        exact Nat.not_succ_le_self _ (Nat.le_trans (Nat.le_of_eq hlen) hle)

/-! ## Block comments -/

/-- A block comment with a body. -/
def blockComment (b : Text) : Text := ['/', '*'] ++ b ++ ['*', '/']

/-- A line without the blanks around it, and without one star at its front and the blanks behind that. -/
def bareLine (line : Text) : Text := strip (dropHead ['*'] (strip line))

/-- The text in a block comment with a body. -/
def bodyText (b : Text) : Text := strip (joinLines ((lines (dropHead ['*'] b)).map bareLine))

theorem dropHead_star (t : Text) : dropHead ['*'] ('*' :: t) = t := rfl

theorem dropHead_star_of_ne {c : Char} (hc : c ≠ '*') (t : Text) : dropHead ['*'] (c :: t) = c :: t := by
  have hnot : ¬ List.isPrefixOf ['*'] (c :: t) = true := by simp [List.isPrefixOf, Ne.symm hc]
  unfold dropHead
  rw [if_neg hnot]

theorem dropGutter_eq (line : Text) : dropGutter line = bareLine line := by
  unfold dropGutter bareLine
  split
  · rename_i rest hstar
    rw [hstar, dropHead_star]
  · rename_i hstar
    cases hline : strip line with
    | nil => rfl
    | cons c rest =>
      have hne : c ≠ '*' := by
        rintro rfl
        exact hstar rest hline
      rw [dropHead_star_of_ne hne, ← hline, strip_strip]

/-! ## Markers -/

theorem strip_blockComment (b : Text) : strip (blockComment b) = blockComment b :=
  strip_append_self (a := ['/', '*']) (b := ['*', '/']) (by decide) (by decide) (by decide) (by decide) b

theorem dropClosing_append (t : Text) : dropClosing (t ++ ['*', '/']) = t := by
  have hend : endsWith (t ++ ['*', '/']) ['*', '/'] = true :=
    List.isSuffixOf_iff_suffix.mpr (List.suffix_append t ['*', '/'])
  unfold dropClosing
  rw [if_pos hend]
  simp

/-- **The opening takes a star of the body with it,** if there is a body. -/
theorem dropOpening_blockComment {b : Text} (hne : b ≠ []) :
    dropOpening (blockComment b) = dropHead ['*'] b ++ ['*', '/'] := by
  cases b with
  | nil => exact absurd rfl hne
  | cons c b =>
    by_cases hc : c = '*'
    · rw [hc]
      rfl
    · rw [dropHead_star_of_ne hc]
      unfold blockComment dropOpening
      split
      · rename_i heq
        cases heq
        exact absurd rfl hc
      · rename_i heq
        cases heq
        rfl
      · rename_i hnone
        exact absurd rfl (hnone _)

theorem stripComment_of_ne {b : Text} (hne : b ≠ []) : stripComment (blockComment b) = bodyText b := by
  have hblock : stripComment (blockComment b) = stripBlockComment (blockComment b) := by
    unfold stripComment
    rw [strip_blockComment]
    rfl
  rw [hblock, stripBlockComment, strip_blockComment, dropOpening_blockComment hne, dropClosing_append, bodyText,
    List.map_congr_left fun line _ => dropGutter_eq line]

/-! ## Bodies of blanks -/

theorem bareLine_blank {line : Text} (h : isBlankText line = true) : bareLine line = [] := by
  unfold bareLine
  rw [(strip_eq_nil_iff line).mpr h]
  rfl

theorem dropHead_star_blank {b : Text} (h : isBlankText b = true) : dropHead ['*'] b = b := by
  cases b with
  | nil => rfl
  | cons c b =>
    refine dropHead_star_of_ne ?_ b
    rintro rfl
    cases List.all_eq_true.mp h '*' List.mem_cons_self

/-- Nothing stands on the lines of a body of blanks. -/
theorem bodyText_blank {b : Text} (h : isBlankText b = true) : bodyText b = [] := by
  have hlines : ∀ bare ∈ (lines b).map bareLine, bare = [] := by
    intro bare hbare
    obtain ⟨line, hline, rfl⟩ := List.mem_map.mp hbare
    refine bareLine_blank (List.all_eq_true.mpr fun c hc => List.all_eq_true.mp h c ?_)
    rw [← joinLines_lines b]
    refine (mem_joinLines_iff ?_).mpr ⟨line, hline, hc⟩
    rintro rfl
    exact not_mem_of_mem_splitOn hline hc
  rw [bodyText, dropHead_star_blank h, strip_eq_nil_iff]
  refine List.all_eq_true.mpr (forall_mem_joinWith (by decide) fun bare hbare => ?_)
  rw [hlines bare hbare]
  exact List.forall_mem_nil _

/-! ## Comments with and without a body -/

/-- A text that is empty adds nothing to a comment. -/
theorem joinComments_nil (above below : List Text) : joinComments (above ++ [] :: below) = joinComments (above ++ below) := by
  unfold joinComments
  rw [List.filter_append, List.filter_append, List.filter_cons_of_neg (by simp)]

/-- **What is left of a block comment is the text of its body,** if it has one: the opening, with a second star, the
closing and one star at the front of each line are gone, and nothing else but blanks.  A comment whose body is blank adds
nothing to the comments around it. -/
theorem stripComment_blockComment (b : Text) :
    (stripComment (blockComment b) = bodyText b ↔ b ≠ []) ∧
      (isBlankText b = true → bodyText b = [] ∧ (joinComments [stripComment (blockComment b)] = none ↔ b ≠ []) ∧
        (b ≠ [] → ∀ above below,
          joinComments (above ++ stripComment (blockComment b) :: below) = joinComments (above ++ below))) := by
  -- without a body, the last slash is left
  have hempty : stripComment (blockComment []) = ['/'] := rfl
  refine ⟨⟨?_, stripComment_of_ne⟩, fun hblank => ⟨bodyText_blank hblank, ⟨?_, fun hne => ?_⟩, fun hne above below => ?_⟩⟩
  · rintro heq rfl
    rw [hempty] at heq
    cases heq
  · rintro heq rfl
    rw [hempty] at heq
    cases heq
  · rw [stripComment_of_ne hne, bodyText_blank hblank]
    exact joinComments_nil [] []
  · rw [stripComment_of_ne hne, bodyText_blank hblank]
    exact joinComments_nil above below

theorem stripComment_blockComment_sample :
    stripComment (blockComment "*\n * Adds *a.\n *\n ** Twice.\n ".toList) = "Adds *a.\n\n* Twice.".toList ∧
      isBlankText "\n\t".toList = true ∧
      joinComments ([['a']] ++ stripComment (blockComment "\n\t".toList) :: [['b']]) = some "a\nb".toList :=
  have hblank : isBlankText "\n\t".toList = true := rfl
  ⟨((stripComment_blockComment _).1.mpr (by decide)).trans (by decide), hblank,
    (((stripComment_blockComment _).2 hblank).2.2 (by decide) _ _).trans (by decide)⟩

/-- **The last slash of a comment without a body is taken for its text.** -/
theorem stripComment_emptyBlock : stripComment (blockComment []) = ['/'] ∧ bodyText [] = [] ∧
    joinComments [stripComment (blockComment [])] = some ['/'] := by
  decide

end SourceDoc.Text
