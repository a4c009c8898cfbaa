import SourceDoc.Proofs.Text.Blank
import SourceDoc.Text.Pattern

/-!
# What is read at the front of a text

What a reader leaves is the end of the text that it read (`after_append`, `afterBlanks_suffix`, `identifier_append`,
`skipSquare_suffix`).  An identifier is read up to what is no word character (`identifier_read`), and no blank is one
(`not_isWord_of_isBlank`); a word is read up to a blank (`firstWordAndRest_append`, `getLast_words`).  What is searched
for is found where it occurs, or before (`breakOn_append`).
-/

namespace SourceDoc.Text

theorem stripLeft_suffix (t : Text) : stripLeft t <:+ t := List.dropWhile_suffix isBlank

theorem strip_within (t : Text) : strip t <:+: t := by
  have hright : strip t <+: stripLeft t := by
    unfold strip trim dropRight
    rw [← List.reverse_suffix, List.reverse_reverse]
    exact List.dropWhile_suffix isBlank
  exact hright.isInfix.trans (stripLeft_suffix t).isInfix

theorem after_append {head t rest : Text} (h : after? head t = some rest) : t = head ++ rest := by
  unfold after? at h
  split at h
  · rename_i hp
    obtain ⟨s, rfl⟩ := List.isPrefixOf_iff_prefix.mp hp
    cases h
    rw [List.drop_left]
  · cases h

theorem after_head (head t : Text) : after? head (head ++ t) = some t := by
  unfold after?
  rw [if_pos (List.isPrefixOf_iff_prefix.mpr (List.prefix_append head t)), List.drop_left]

theorem eq_stripLeft_of_afterBlanks {t rest : Text} (h : afterBlanks? t = some rest) : rest = stripLeft t := by
  cases t with
  | nil => cases h
  | cons c t =>
    rw [afterBlanks?] at h
    split at h
    · rename_i hc
      cases h
      exact (List.dropWhile_cons_of_pos hc).symm
    · cases h

theorem afterBlanks_suffix {t rest : Text} (h : afterBlanks? t = some rest) : rest <:+ t := by
  rw [eq_stripLeft_of_afterBlanks h]
  exact stripLeft_suffix t

theorem afterWord_space (word t : Text) : afterWord? word (word ++ ' ' :: t) = some (stripLeft t) := by
  rw [afterWord?, after_head]
  rfl

theorem afterWord_suffix {word t rest : Text} (h : afterWord? word t = some rest) : rest <:+ t := by
  obtain ⟨after, hafter, hrest⟩ := Option.bind_eq_some_iff.mp h
  rw [after_append hafter]
  exact (afterBlanks_suffix hrest).trans (List.suffix_append word after)

/-! ## Square brackets -/

/-- A text is cut at the first place of a character. -/
theorem cut_first {close : Char} {t : Text} (h : close ∉ t) (rest : Text) :
    (t ++ close :: rest).takeWhile (· ≠ close) = t ∧ (t ++ close :: rest).dropWhile (· ≠ close) = close :: rest := by
  have hpos : ∀ c ∈ t, decide (c ≠ close) = true := fun c hc => decide_eq_true fun he => h (he ▸ hc)
  rw [List.takeWhile_append_of_pos hpos, List.dropWhile_append_of_pos hpos]
  simp

/-- What stands between square brackets ends with the first closing one. -/
theorem afterSquare_read {inner : Text} (h : ']' ∉ inner) (rest : Text) :
    afterSquare? ('[' :: (inner ++ ']' :: rest)) = some rest := by
  rw [afterSquare?, (cut_first h rest).2]

theorem eq_of_afterSquare {t rest : Text} (h : afterSquare? t = some rest) :
    ∃ inner, ']' ∉ inner ∧ t = '[' :: (inner ++ ']' :: rest) := by
  unfold afterSquare? at h
  split at h
  · rename_i inner
    have hsplit : inner.takeWhile (· ≠ ']') ++ inner.dropWhile (· ≠ ']') = inner := List.takeWhile_append_dropWhile
    have hfirst := List.head?_dropWhile_not (fun c => decide (c ≠ ']')) inner
    cases hd : inner.dropWhile (· ≠ ']') with
    | nil =>
      rw [hd] at h
      cases h
    | cons c after =>
      rw [hd] at h hsplit hfirst
      cases h
      simp only [List.head?_cons, decide_eq_false_iff_not, Decidable.not_not] at hfirst
      refine ⟨inner.takeWhile (· ≠ ']'), fun hmem => ?_, ?_⟩
      · exact of_decide_eq_true (List.all_eq_true.mp List.all_takeWhile ']' hmem) rfl
      · rw [hfirst] at hsplit
        rw [hsplit]
  · cases h

theorem skipSquare_read {t inner rest : Text} (ht : stripLeft t = '[' :: (inner ++ ']' :: rest))
    (hinner : ']' ∉ inner) : skipSquare t = rest := by
  unfold skipSquare
  rw [ht, afterSquare_read hinner]
  rfl

theorem skipSquare_bare {t : Text} (h : ∀ c ∈ (stripLeft t).head?, c ≠ '[') : skipSquare t = t := by
  unfold skipSquare
  cases hrest : afterSquare? (stripLeft t) with
  | none => rfl
  | some rest =>
    obtain ⟨inner, -, ht⟩ := eq_of_afterSquare hrest
    exact absurd rfl (h '[' (by rw [ht]; rfl))

theorem skipSquare_suffix (t : Text) : skipSquare t <:+ t := by
  unfold skipSquare
  cases h : afterSquare? (stripLeft t) with
  | none => exact List.suffix_refl t
  | some rest =>
    obtain ⟨inner, -, ht⟩ := eq_of_afterSquare h
    refine List.IsSuffix.trans ?_ (stripLeft_suffix t)
    rw [ht, ← List.cons_append]
    exact (List.suffix_cons ']' rest).trans (List.suffix_append ('[' :: inner) _)

/-! ## Identifiers -/

theorem identifier_append {t name rest : Text} (h : identifier? t = some (name, rest)) : t = name ++ rest := by
  unfold identifier? at h
  split at h
  · split at h
    · cases h
      rw [List.cons_append, List.takeWhile_append_dropWhile]
    · cases h
  · cases h

/-- What is read as an identifier is one. -/
theorem isIdentifier_of_identifier {t name rest : Text} (h : identifier? t = some (name, rest)) :
    isIdentifier name = true := by
  unfold identifier? at h
  split at h
  · rename_i c more
    split at h
    · rename_i hc
      cases h
      have hall : (more.takeWhile isWord).dropWhile isWord = [] :=
        (dropLeft_eq_nil_iff isWord _).mpr List.all_takeWhile
      simp only [isIdentifier, identifier?, hc, if_true, hall]
    · cases h
  · cases h

theorem identifier_cases {name : Text} (h : isIdentifier name = true) :
    ∃ c word, name = c :: word ∧ isIdentStart c = true ∧ ∀ d ∈ word, isWord d = true := by
  unfold isIdentifier identifier? at h
  cases name with
  | nil => cases h
  | cons c word =>
    by_cases hc : isIdentStart c = true
    · simp only [hc, if_true] at h
      refine ⟨c, word, rfl, hc, ?_⟩
      have hdrop : dropLeft isWord word = [] := by
        show word.dropWhile isWord = []
        split at h
        · rename_i hd
          exact congrArg Prod.snd (Option.some.inj hd)
        · cases h
      exact List.all_eq_true.mp ((dropLeft_eq_nil_iff isWord word).mp hdrop)
    · simp only [hc, if_false, Bool.false_eq_true] at h

theorem isWord_of_isIdentStart {c : Char} (h : isIdentStart c = true) : isWord c = true := by
  simp only [isIdentStart, isAsciiLetter, Bool.or_eq_true, Bool.and_eq_true, decide_eq_true_eq] at h
  unfold isWord
  rcases h with h | rfl
  · rw [if_pos (by omega)]
    simp only [isAsciiLetter, Bool.or_eq_true, Bool.and_eq_true, decide_eq_true_eq]
    omega
  · decide

/-- An identifier is all word characters. -/
theorem isWord_of_isIdentifier {name : Text} (h : isIdentifier name = true) : ∀ c ∈ name, isWord c = true := by
  obtain ⟨c, word, rfl, hc, hword⟩ := identifier_cases h
  exact List.forall_mem_cons.mpr ⟨isWord_of_isIdentStart hc, hword⟩

theorem strip_identifier {name : Text} (h : isIdentifier name = true) : strip name = name ∧ name ≠ [] := by
  have hbare : ∀ c ∈ name, isBlank c = false := fun c hc => not_isBlank_of_isWord (isWord_of_isIdentifier h c hc)
  refine ⟨(strip_eq_self_iff _).mpr ⟨fun c hc => hbare c (List.mem_of_mem_head? hc),
    fun c hc => hbare c (List.mem_of_getLast? hc)⟩, ?_⟩
  rintro rfl
  cases h

theorem stripLeft_identifier {name : Text} (h : isIdentifier name = true) (t : Text) :
    stripLeft (name ++ t) = name ++ t := by
  obtain ⟨c, word, rfl, hc, -⟩ := identifier_cases h
  exact List.dropWhile_cons_of_neg (by simp [not_isBlank_of_isWord (isWord_of_isIdentStart hc)])

/-- **An identifier is read up to what is no word character.** -/
theorem identifier_read {name rest : Text} (h : isIdentifier name = true) (hrest : ∀ c ∈ rest.head?, isWord c = false) :
    identifier? (name ++ rest) = some (name, rest) := by
  obtain ⟨c, word, rfl, hc, hword⟩ := identifier_cases h
  have hnone : rest.takeWhile isWord = [] ∧ rest.dropWhile isWord = rest := by
    cases rest with
    | nil => exact ⟨rfl, rfl⟩
    | cons d rest =>
      have hd := hrest d rfl
      exact ⟨List.takeWhile_cons_of_neg (by simp [hd]), List.dropWhile_cons_of_neg (by simp [hd])⟩
  rw [List.cons_append, identifier?, if_pos hc, List.takeWhile_append_of_pos hword, List.dropWhile_append_of_pos hword,
    hnone.1, hnone.2, List.append_nil]

/-! ## Words -/

theorem takeWhile_word {word : Text} (hword : ∀ c ∈ word, isBlank c = false) (rest : Text)
    (hrest : ∀ c ∈ rest.head?, isBlank c = true) :
    (word ++ rest).takeWhile (!isBlank ·) = word ∧ (word ++ rest).dropWhile (!isBlank ·) = rest := by
  have hpos : ∀ c ∈ word, (!isBlank c) = true := fun c hc => by rw [hword c hc]; rfl
  rw [List.takeWhile_append_of_pos hpos, List.dropWhile_append_of_pos hpos]
  cases rest with
  | nil => exact ⟨List.append_nil word, rfl⟩
  | cons c rest =>
    have hc := hrest c rfl
    exact ⟨by rw [List.takeWhile_cons_of_neg (by simp [hc]), List.append_nil],
      List.dropWhile_cons_of_neg (by simp [hc])⟩

/-- A word is read up to the blanks after it. -/
theorem firstWordAndRest_append {word gap rest : Text} (hne : word ≠ []) (hword : ∀ c ∈ word, isBlank c = false)
    (hgap : gap ≠ []) (hblank : isBlankText gap = true) (hrest : strip rest = rest) (hrestNe : rest ≠ []) :
    firstWordAndRest? (word ++ gap ++ rest) = some (word, rest) := by
  obtain ⟨g, gap, rfl⟩ := List.exists_cons_of_ne_nil hgap
  have hg : isBlank g = true := List.all_eq_true.mp hblank g List.mem_cons_self
  have hbody : stripLeft (word ++ (g :: gap ++ rest)) = word ++ (g :: gap ++ rest) := by
    refine (dropLeft_eq_self_iff isBlank _).mpr fun c hc => ?_
    cases word with
    | nil => exact absurd rfl hne
    | cons d word =>
      cases hc
      exact hword _ List.mem_cons_self
  obtain ⟨htake, hdrop⟩ := takeWhile_word hword (g :: gap ++ rest) fun c hc => by cases hc; exact hg
  have hlast : stripLeft (g :: gap ++ rest) = rest := by
    rw [stripLeft_blank_append rest hblank, stripLeft_of_strip hrest]
  unfold firstWordAndRest?
  simp only [List.append_assoc, hbody, htake, hdrop, hlast, if_neg hrestNe]

/-- What is read is a word, blanks, and the rest of the text. -/
theorem firstWordAndRest_cases {t word rest : Text} (ht : strip t = t) (h : firstWordAndRest? t = some (word, rest)) :
    rest ≠ [] ∧ strip rest = rest ∧ ∃ gap, gap ≠ [] ∧ isBlankText gap = true ∧ t = word ++ gap ++ rest := by
  unfold firstWordAndRest? at h
  rw [stripLeft_of_strip ht] at h
  simp only at h
  split at h
  · cases h
  · rename_i hne
    cases h
    have hsplit : t = t.takeWhile (!isBlank ·) ++ t.dropWhile (!isBlank ·) := List.takeWhile_append_dropWhile.symm
    generalize hu : t.dropWhile (!isBlank ·) = u at hne hsplit
    have hunblank : isBlankText u = false := by
      rw [← Bool.not_eq_true]
      exact fun hb => hne ((dropLeft_eq_nil_iff isBlank u).mpr hb)
    refine ⟨hne, ?_, u.takeWhile isBlank, ?_, List.all_takeWhile, ?_⟩
    · rw [strip_eq_self_iff]
      refine ⟨head_dropLeft isBlank u, fun c hc => ((strip_eq_self_iff t).mp ht).2 c ?_⟩
      obtain ⟨front, hfront⟩ := (stripLeft_suffix u).trans (hsplit ▸ List.suffix_append _ u : u <:+ t)
      rw [← hfront, List.getLast?_append, Option.mem_def.mp hc]
      rfl
    · cases u with
      | nil => cases hunblank
      | cons c u =>
        have hc := List.head?_dropWhile_not (!isBlank ·) t
        rw [hu] at hc
        rw [List.takeWhile_cons_of_pos (by simpa using hc)]
        exact List.cons_ne_nil _ _
    · have hu' : u = u.takeWhile isBlank ++ stripLeft u := List.takeWhile_append_dropWhile.symm
      rw [List.append_assoc, ← hu']
      exact hsplit

theorem wordsFrom_nil (current : Text) :
    wordsFrom current [] = if current = [] then [] else [current.reverse] := rfl

theorem wordsFrom_cons (current : Text) (c : Char) (t : Text) :
    wordsFrom current (c :: t) =
      if isBlank c then if current = [] then wordsFrom [] t else current.reverse :: wordsFrom [] t
      else wordsFrom (c :: current) t := rfl

theorem wordsFrom_word {word : Text} (hword : ∀ c ∈ word, isBlank c = false) (current : Text)
    (hne : current ≠ [] ∨ word ≠ []) : wordsFrom current word = [current.reverse ++ word] := by
  induction word generalizing current with
  | nil =>
    have hcurrent : current ≠ [] := hne.resolve_right fun h => h rfl
    rw [wordsFrom_nil, if_neg hcurrent, List.append_nil]
  | cons c word ih =>
    obtain ⟨hc, hword⟩ := List.forall_mem_cons.mp hword
    rw [wordsFrom_cons, if_neg (by simp [hc]), ih hword _ (.inl (List.cons_ne_nil _ _))]
    simp

/-- The last word of a text is the one after its last blank. -/
theorem getLast_words (front : Text) {blank : Char} (hblank : isBlank blank = true) {word : Text}
    (hword : ∀ c ∈ word, isBlank c = false) (hne : word ≠ []) :
    (words (front ++ blank :: word)).getLast? = some word := by
  unfold words
  generalize ([] : Text) = current
  induction front generalizing current with
  | nil =>
    rw [List.nil_append, wordsFrom_cons, if_pos hblank, wordsFrom_word hword [] (.inr hne)]
    split <;> rfl
  | cons c front ih =>
    rw [List.cons_append, wordsFrom_cons]
    split
    · split
      · exact ih _
      · rw [List.getLast?_cons, ih]
        rfl
    · exact ih _

/-! ## Searching -/

theorem eq_of_breakOn {piece t front rest : Text} (h : breakOn? piece t = some (front, rest)) :
    t = front ++ piece ++ rest := by
  induction t generalizing front with
  | nil =>
    rw [breakOn?] at h
    split at h
    · rename_i hnil
      cases h
      rw [hnil]
      rfl
    · cases h
  | cons c t ih =>
    rw [breakOn?] at h
    split at h
    · rename_i hp
      cases h
      obtain ⟨s, hs⟩ := List.isPrefixOf_iff_prefix.mp hp
      rw [← hs, List.drop_left]
      rfl
    · obtain ⟨⟨front', rest'⟩, hfound, hparts⟩ := Option.map_eq_some_iff.mp h
      cases hparts
      rw [ih hfound]
      rfl

/-- A piece is found, with what follows an occurrence at the end of what follows. -/
theorem breakOn_append (piece front rest : Text) :
    ∃ front' rest', breakOn? piece (front ++ piece ++ rest) = some (front', rest') ∧ rest <:+ rest' := by
  induction front with
  | nil =>
    rw [List.nil_append]
    have hp : piece.isPrefixOf (piece ++ rest) = true := List.isPrefixOf_iff_prefix.mpr (List.prefix_append _ _)
    cases h : piece ++ rest with
    | nil =>
      obtain ⟨rfl, rfl⟩ := List.append_eq_nil_iff.mp h
      exact ⟨[], [], rfl, List.suffix_refl _⟩
    | cons c t =>
      rw [h] at hp
      refine ⟨[], rest, ?_, List.suffix_refl _⟩
      rw [breakOn?, if_pos hp, ← h, List.drop_left]
  | cons c front ih =>
    rw [List.cons_append, List.cons_append, breakOn?]
    split
    · refine ⟨_, _, rfl, ?_⟩
      rw [← List.cons_append, ← List.cons_append, List.drop_append_of_le_length (by simp; omega)]
      exact List.suffix_append _ _
    · obtain ⟨front', rest', hb, hsuffix⟩ := ih
      exact ⟨c :: front', rest', by rw [hb]; rfl, hsuffix⟩

/-- A piece is found at its first place. -/
theorem length_le_of_breakOn {piece t front rest front' rest' : Text} (h : breakOn? piece t = some (front, rest))
    (ht : t = front' ++ piece ++ rest') : front.length ≤ front'.length := by
  obtain ⟨found, after, hfound, hsuffix⟩ := breakOn_append piece front' rest'
  rw [← ht, h] at hfound
  cases hfound
  have hlength := congrArg List.length ((eq_of_breakOn h).symm.trans ht)
  have := hsuffix.length_le
  simp only [List.length_append] at hlength
  omega

/-- What stands in front of the first character of a piece is passed over. -/
theorem breakOn_cons_append {c : Char} {front : Text} (h : c ∉ front) (piece t : Text) :
    breakOn? (c :: piece) (front ++ t) =
      (breakOn? (c :: piece) t).map fun (before, rest) => (front ++ before, rest) := by
  induction front with
  | nil => exact Option.map_id'.symm
  | cons d front ih =>
    rw [List.mem_cons, not_or] at h
    have hnone : ¬ (c :: piece).isPrefixOf (d :: (front ++ t)) = true := fun hp =>
      h.1 (List.cons_prefix_cons.mp (List.isPrefixOf_iff_prefix.mp hp)).1
    rw [List.cons_append, breakOn?, if_neg hnone, ih h.2, Option.map_map]
    rfl

theorem not_infix_of_contains {piece t : Text} (h : contains t piece = false) : ¬ piece <:+: t := by
  rintro ⟨front, rest, rfl⟩
  obtain ⟨front', rest', hb, -⟩ := breakOn_append piece front rest
  unfold contains at h
  rw [hb] at h
  cases h

/-- A piece does not begin where its first character is not. -/
theorem infix_of_append_left {c : Char} {piece a t : Text} (hc : c ∉ a) (h : c :: piece <:+: a ++ t) :
    c :: piece <:+: t := by
  obtain ⟨front, back, heq⟩ := h
  rw [List.append_assoc] at heq
  rcases List.append_eq_append_iff.mp heq with ⟨more, ha, hback⟩ | ⟨more, -, ht⟩
  · cases more with
    | nil => exact ⟨[], back, by rw [List.nil_append] at hback ⊢; exact hback⟩
    | cons d more =>
      cases (List.cons.inj hback).1
      rw [ha] at hc
      exact absurd (List.mem_append_right front List.mem_cons_self) hc
  · exact ⟨more, back, by rw [ht, List.append_assoc]⟩

/-- A piece does not end where its last character is not. -/
theorem infix_of_append_right {d : Char} {piece t b : Text} (hd : d ∉ b) (h : piece ++ [d] <:+: t ++ b) :
    piece ++ [d] <:+: t := by
  have hreverse := List.reverse_infix.mpr h
  rw [List.reverse_append, List.reverse_append, List.reverse_singleton, List.singleton_append] at hreverse
  have hleft := infix_of_append_left (fun hmem => hd (List.mem_reverse.mp hmem)) hreverse
  rw [← List.reverse_infix, List.reverse_append]
  exact hleft

/-- A piece is not found in a text with something around it that has not its first and its last character. -/
theorem contains_framed {c d : Char} {piece a t b : Text} (hc : c ∉ a) (hd : d ∉ b)
    (h : contains t (c :: (piece ++ [d])) = false) : contains (a ++ t ++ b) (c :: (piece ++ [d])) = false := by
  rw [← Bool.not_eq_true]
  intro hcontains
  obtain ⟨⟨front, back⟩, hbreak⟩ := Option.isSome_iff_exists.mp hcontains
  have hwithin : c :: piece ++ [d] <:+: a ++ t := infix_of_append_right hd ⟨front, back, (eq_of_breakOn hbreak).symm⟩
  exact not_infix_of_contains h (infix_of_append_left hc hwithin)

theorem replaceFirst_append {piece : Text} (hne : piece ≠ []) (new t : Text) :
    replaceFirst piece new (piece ++ t) = new ++ t := by
  obtain ⟨c, more, rfl⟩ := List.exists_cons_of_ne_nil hne
  have hp : (c :: more).isPrefixOf (c :: (more ++ t)) = true :=
    List.isPrefixOf_iff_prefix.mpr (List.prefix_append (c :: more) t)
  rw [replaceFirst, List.cons_append, breakOn?, if_pos hp, ← List.cons_append, List.drop_left]
  rfl

/-- A piece without newlines stands on one line. -/
theorem breakOn_line {piece line : Text} (hpiece : '\n' ∉ piece) (h : contains line piece = false) (t : Text) :
    breakOn? piece (line ++ '\n' :: t) =
      (breakOn? piece t).map fun (before, rest) => (line ++ '\n' :: before, rest) := by
  induction line with
  | nil =>
    have hnone : ¬ piece.isPrefixOf ('\n' :: t) = true := by
      intro hp
      cases piece with
      | nil => cases h
      | cons c piece =>
        cases (List.cons_prefix_cons.mp (List.isPrefixOf_iff_prefix.mp hp)).1
        exact hpiece List.mem_cons_self
    rw [List.nil_append, breakOn?, if_neg hnone]
    rfl
  | cons c line ih =>
    have hsame : piece.isPrefixOf (c :: (line ++ '\n' :: t)) = piece.isPrefixOf (c :: line) :=
      startsWith_append (by simpa using hpiece) (c :: line)
    have hnone : ¬ piece.isPrefixOf (c :: line) = true := by
      intro hp
      rw [contains, breakOn?, if_pos hp] at h
      cases h
    rw [contains, breakOn?, if_neg hnone, Option.isSome_map] at h
    rw [List.cons_append, breakOn?, hsame, if_neg hnone, ih h, Option.map_map]
    rfl

/-- **The first line with a piece is the one in which it is replaced.** -/
theorem replaceFirst_joinLines {piece : Text} (hpiece : '\n' ∉ piece) (hne : piece ≠ []) (new : Text)
    {front : List Text} (hfront : ∀ line ∈ front, contains line piece = false) (back : List Text) :
    replaceFirst piece new (joinLines (front ++ piece :: back)) = joinLines (front ++ new :: back) := by
  induction front with
  | nil =>
    cases back with
    | nil =>
      have := replaceFirst_append hne new []
      rwa [List.append_nil, List.append_nil] at this
    | cons line back =>
      unfold joinLines
      rw [List.nil_append, List.nil_append, joinWith_cons _ _ _ (List.cons_ne_nil _ _),
        joinWith_cons _ _ _ (List.cons_ne_nil _ _), List.append_assoc, replaceFirst_append hne, List.append_assoc]
  | cons line front ih =>
    obtain ⟨hline, hfront⟩ := List.forall_mem_cons.mp hfront
    have ih := ih hfront
    unfold joinLines replaceFirst at ih ⊢
    rw [List.cons_append, List.cons_append, joinWith_cons _ _ _ (by simp), joinWith_cons _ _ _ (by simp),
      List.append_assoc, List.singleton_append, breakOn_line hpiece hline, ← ih]
    cases breakOn? piece (joinWith ['\n'] (front ++ piece :: back)) <;> simp

theorem contains_char_iff {c : Char} {t : Text} : contains t [c] = true ↔ c ∈ t := by
  constructor
  · intro h
    unfold contains at h
    induction t with
    | nil => cases h
    | cons d t ih =>
      rw [breakOn?] at h
      split at h
      · rename_i hp
        obtain ⟨rfl, -⟩ := List.cons_prefix_cons.mp (List.isPrefixOf_iff_prefix.mp hp)
        exact List.mem_cons_self
      · rw [Option.isSome_map] at h
        exact List.mem_cons_of_mem _ (ih h)
  · intro h
    obtain ⟨front, rest, rfl⟩ := List.append_of_mem h
    obtain ⟨front', rest', hb, -⟩ := breakOn_append [c] front rest
    rw [contains, List.append_cons, hb]
    rfl

/-- **A text is cut at the last place of a character.** -/
theorem breakLast_append {c : Char} {t : Text} (h : c ∉ t) (front : Text) :
    breakLast? c (front ++ c :: t) = some (front, t) := by
  have hany : (front ++ c :: t).any (· == c) = true := by simp
  have hreverse : (front ++ c :: t).reverse = t.reverse ++ c :: front.reverse := by simp
  have htail : ((front ++ c :: t).reverse.takeWhile (· ≠ c)).reverse = t := by
    rw [hreverse, (cut_first (by simpa using h) front.reverse).1, List.reverse_reverse]
  unfold breakLast?
  rw [if_pos hany, htail]
  have hlength : (front ++ c :: t).length - t.length - 1 = front.length := by
    rw [List.length_append, List.length_cons]
    omega
  simp only [hlength, List.take_left]

theorem breakLast_end (t : Text) (c : Char) : breakLast? c (t ++ [c]) = some (t, []) :=
  breakLast_append List.not_mem_nil t

theorem breakLast_none {c : Char} {t : Text} (h : c ∉ t) : breakLast? c t = none := by
  unfold breakLast?
  rw [if_neg]
  simpa using h

theorem infix_of_hasWordFrom {word t : Text} {isOpen : Bool} (h : hasWordFrom word isOpen t = true) : word <:+: t := by
  induction t generalizing isOpen with
  | nil => cases h
  | cons c t ih =>
    rw [hasWordFrom, Bool.or_eq_true] at h
    rcases h with h | h
    · simp only [Bool.and_eq_true] at h
      exact (List.isPrefixOf_iff_prefix.mp h.1.2).isInfix
    · exact List.infix_cons (ih h)

/-- A word that stands in a text is a piece of it. -/
theorem infix_of_hasWord {word t : Text} (h : hasWord word t = true) : word <:+: t := infix_of_hasWordFrom h

end SourceDoc.Text
