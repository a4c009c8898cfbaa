import SourceDoc.Text.Blank
import SourceDoc.Text.Word

/-!
# Blank texts

Nothing is left of a text without its blanks exactly if it has nothing but blanks (`strip_eq_nil_iff`).  Blanks that
are added at an end are lost again (`strip_append_blank`, `strip_blank_append`), and do not change how a line is
indented if something else stands on it (`indentation_append`).  A text that neither starts nor ends with a blank is its
own strip (`strip_eq_self_iff`), as the strip of any text is (`strip_strip`).  No character of a word is a blank
(`not_isBlank_of_isWord`).  A mark at an end of a text is looked for as far as the first character that is not in the
mark (`startsWith_append`, `endsWith_append`).
-/

namespace SourceDoc.Text

/-- What holds of the characters of a text is decided one character after another, and not over all characters. -/
instance decidableForallMem (t : Text) (p : Char → Prop) [DecidablePred p] : Decidable (∀ c ∈ t, p c) :=
  List.decidableBAll p t

instance decidableForallOption (o : Option Char) (p : Char → Prop) [DecidablePred p] : Decidable (∀ c ∈ o, p c) :=
  Option.decidableForallMem o

theorem dropLeft_eq_nil_iff (p : Char → Bool) (t : Text) : dropLeft p t = [] ↔ t.all p = true := by
  unfold dropLeft
  rw [List.all_eq_true]
  induction t with
  | nil => simp
  | cons c t ih =>
    rw [List.dropWhile_cons, List.forall_mem_cons]
    by_cases hc : p c = true
    · simp [hc, ih]
    · simp [hc]

theorem all_dropLeft (p : Char → Bool) (t : Text) : (dropLeft p t).all p = t.all p := by
  unfold dropLeft
  induction t with
  | nil => rfl
  | cons c t ih =>
    rw [List.dropWhile_cons]
    by_cases hc : p c = true
    · simp [hc, ih]
    · simp [hc]

theorem all_dropRight (p : Char → Bool) (t : Text) : (dropRight p t).all p = t.all p := by
  have h := all_dropLeft p t.reverse
  unfold dropRight
  rw [List.all_reverse] at h ⊢
  exact h

theorem dropRight_eq_nil_iff (p : Char → Bool) (t : Text) : dropRight p t = [] ↔ t.all p = true := by
  have h := dropLeft_eq_nil_iff p t.reverse
  rw [List.all_reverse] at h
  unfold dropRight
  rw [List.reverse_eq_nil_iff]
  exact h

theorem strip_eq_nil_iff (t : Text) : strip t = [] ↔ isBlankText t = true := by
  unfold strip trim isBlankText
  rw [dropRight_eq_nil_iff, all_dropLeft]

theorem isBlankText_strip (t : Text) : isBlankText (strip t) = isBlankText t := by
  unfold isBlankText strip trim
  rw [all_dropRight, all_dropLeft]

theorem stripped_of_strip {t u : Text} (h : strip t = u) (hne : u ≠ []) : stripped? t = some u := by
  unfold stripped?
  rw [h]
  cases u with
  | nil => exact absurd rfl hne
  | cons c u => rfl

/-! ## Blanks at an end -/

theorem stripLeft_blank_append {s : Text} (t : Text) (hs : isBlankText s = true) :
    stripLeft (s ++ t) = stripLeft t := by
  have hnil : s.dropWhile isBlank = [] := (dropLeft_eq_nil_iff isBlank s).mpr hs
  unfold stripLeft dropLeft
  rw [List.dropWhile_append, hnil]
  rfl

theorem stripRight_append_blank {s : Text} (t : Text) (hs : isBlankText s = true) :
    stripRight (t ++ s) = stripRight t := by
  have hr : isBlankText s.reverse = true := by
    rw [← hs]
    exact List.all_reverse
  have h := stripLeft_blank_append t.reverse hr
  unfold stripRight dropRight
  rw [List.reverse_append]
  exact congrArg List.reverse h

theorem stripLeft_append {t : Text} (s : Text) (ht : isBlankText t = false) : stripLeft (t ++ s) = stripLeft t ++ s := by
  have hne : t.dropWhile isBlank ≠ [] := fun h => by
    rw [show isBlankText t = true from (dropLeft_eq_nil_iff isBlank t).mp h] at ht
    cases ht
  unfold stripLeft dropLeft
  rw [List.dropWhile_append, if_neg (by simpa using hne)]

/-- What a text starts with after its blanks is where another follows it, unless it has nothing but blanks. -/
theorem stripLeft_append_cases (t s : Text) : (isBlankText t = true ∧ stripLeft (t ++ s) = stripLeft s) ∨
    ∃ c rest, stripLeft t = c :: rest ∧ stripLeft (t ++ s) = c :: (rest ++ s) := by
  cases ht : isBlankText t with
  | true => exact .inl ⟨rfl, stripLeft_blank_append s ht⟩
  | false =>
    refine .inr ?_
    cases hleft : stripLeft t with
    | nil =>
      rw [show isBlankText t = true from (dropLeft_eq_nil_iff isBlank t).mp hleft] at ht
      cases ht
    | cons c rest => exact ⟨c, rest, rfl, by rw [stripLeft_append s ht, hleft]; rfl⟩

theorem isBlankText_append (t s : Text) : isBlankText (t ++ s) = (isBlankText t && isBlankText s) := List.all_append

theorem strip_blank_append {s : Text} (t : Text) (hs : isBlankText s = true) : strip (s ++ t) = strip t :=
  congrArg (dropRight isBlank) (stripLeft_blank_append t hs)

theorem strip_append_blank {s : Text} (t : Text) (hs : isBlankText s = true) : strip (t ++ s) = strip t := by
  cases ht : isBlankText t with
  | true => rw [(strip_eq_nil_iff t).mpr ht, (strip_eq_nil_iff (t ++ s)).mpr (by rw [isBlankText_append, ht, hs]; rfl)]
  | false =>
    show stripRight (stripLeft (t ++ s)) = stripRight (stripLeft t)
    rw [stripLeft_append s ht, stripRight_append_blank _ hs]

theorem indentation_append {t : Text} (s : Text) (ht : isBlankText t = false) :
    indentation (t ++ s) = indentation t := by
  have hne : (t.takeWhile isBlank).length ≠ t.length := fun h => by
    have hall : t.takeWhile isBlank = t := (List.takeWhile_prefix isBlank).eq_of_length h
    have : isBlankText t = true := by
      rw [← hall]
      exact List.all_takeWhile
    rw [this] at ht
    cases ht
  unfold indentation
  rw [List.takeWhile_append, if_neg hne]

/-! ## Texts without blanks at their ends -/

theorem dropLeft_eq_self_iff (p : Char → Bool) (t : Text) : dropLeft p t = t ↔ ∀ c ∈ t.head?, p c = false := by
  unfold dropLeft
  cases t with
  | nil => simp
  | cons c t =>
    rw [List.dropWhile_cons]
    by_cases hc : p c = true
    · have hlen := (List.dropWhile_suffix (l := t) p).length_le
      have hne : t.dropWhile p ≠ c :: t := fun h => by
        rw [h, List.length_cons] at hlen
        omega
      simp [hc, hne]
    · simp [hc]

theorem dropRight_eq_self_iff (p : Char → Bool) (t : Text) : dropRight p t = t ↔ ∀ c ∈ t.getLast?, p c = false := by
  have h := dropLeft_eq_self_iff p t.reverse
  rw [List.head?_reverse] at h
  rw [← h]
  exact List.reverse_eq_iff

/-- What is dropped at the front of two texts stands in the first, if nothing is dropped from the second. -/
theorem dropLeft_append {p : Char → Bool} {t : Text} (ht : ∀ c ∈ t.head?, p c = false) (before : Text) :
    dropLeft p (before ++ t) = dropLeft p before ++ t := by
  have hself := (dropLeft_eq_self_iff p t).mpr ht
  unfold dropLeft at hself ⊢
  rw [List.dropWhile_append, hself]
  split
  · rename_i hnil
    rw [List.isEmpty_iff.mp hnil, List.nil_append]
  · rfl

theorem dropRight_append {p : Char → Bool} {t : Text} (ht : ∀ c ∈ t.getLast?, p c = false) (after : Text) :
    dropRight p (t ++ after) = t ++ dropRight p after := by
  have h := dropLeft_append (t := t.reverse) (by rw [List.head?_reverse]; exact ht) after.reverse
  unfold dropLeft at h
  unfold dropRight
  rw [List.reverse_append, h, List.reverse_append, List.reverse_reverse]

/-- **A text is its strip exactly if it neither starts nor ends with a blank.** -/
theorem strip_eq_self_iff (t : Text) :
    strip t = t ↔ (∀ c ∈ t.head?, isBlank c = false) ∧ ∀ c ∈ t.getLast?, isBlank c = false := by
  rw [← dropLeft_eq_self_iff, ← dropRight_eq_self_iff]
  constructor
  · intro h
    have hleft : dropLeft isBlank t = t := by
      have hlen : (strip t).length ≤ (dropLeft isBlank t).length := by
        unfold strip trim dropRight
        rw [List.length_reverse]
        exact Nat.le_trans (List.dropWhile_suffix isBlank).length_le (Nat.le_of_eq List.length_reverse)
      rw [h] at hlen
      exact (List.dropWhile_suffix isBlank).eq_of_length_le hlen
    refine ⟨hleft, ?_⟩
    rw [strip, trim, hleft] at h
    exact h
  · rintro ⟨hleft, hright⟩
    rw [strip, trim, hleft, hright]

theorem stripLeft_of_strip {t : Text} (h : strip t = t) : stripLeft t = t :=
  (dropLeft_eq_self_iff isBlank t).mpr ((strip_eq_self_iff t).mp h).1

/-- A text that ends where another ends has no blank at its end if that has none. -/
theorem strip_of_append {a b : Text} (h : strip (a ++ b) = a ++ b) (hb : ∀ c ∈ b.head?, isBlank c = false) :
    strip b = b := by
  refine (strip_eq_self_iff b).mpr ⟨hb, fun c hc => ((strip_eq_self_iff _).mp h).2 c ?_⟩
  rw [List.getLast?_append, Option.mem_def.mp hc]
  rfl

/-- The end of a text that does not end with a blank is not blank. -/
theorem not_blank_of_append {a b : Text} (h : strip (a ++ b) = a ++ b) (hne : b ≠ []) : isBlankText b = false := by
  rw [← Bool.not_eq_true]
  intro hblank
  have hlast : (a ++ b).getLast? = some (b.getLast hne) := by
    rw [List.getLast?_append, List.getLast?_eq_some_getLast hne]
    rfl
  have := ((strip_eq_self_iff _).mp h).2 _ hlast
  rw [List.all_eq_true.mp hblank _ (List.getLast_mem hne)] at this
  cases this

theorem not_blank_of_strip {t : Text} (h : strip t = t) (hne : t ≠ []) : isBlankText t = false := by
  rw [← Bool.not_eq_true, ← strip_eq_nil_iff, h]
  exact hne

/-- What stands between the ends does not matter. -/
theorem strip_append_self {a b : Text} (ha : strip a = a) (hane : a ≠ []) (hb : strip b = b) (hbne : b ≠ [])
    (between : Text) : strip (a ++ between ++ b) = a ++ between ++ b := by
  rw [strip_eq_self_iff] at ha hb ⊢
  obtain ⟨c, a', rfl⟩ := List.exists_cons_of_ne_nil hane
  refine ⟨ha.1, ?_⟩
  rw [List.getLast?_append, List.getLast?_eq_some_getLast hbne, Option.some_or, ← List.getLast?_eq_some_getLast hbne]
  exact hb.2

/-- A text that does not start with a blank keeps what stands at its front. -/
theorem strip_append_right {a : Text} (ha : strip a = a) (hane : a ≠ []) (t : Text) :
    strip (a ++ t) = a ++ stripRight t := by
  show stripRight (stripLeft (a ++ t)) = _
  rw [stripLeft_append t (not_blank_of_strip ha hane), stripLeft_of_strip ha]
  exact dropRight_append ((strip_eq_self_iff a).mp ha).2 t

theorem trim_of_not {p : Char → Bool} {t : Text} (h : ∀ c ∈ t, p c = false) : trim p t = t := by
  unfold trim
  rw [(dropLeft_eq_self_iff p t).mpr fun c hc => h c (List.mem_of_head? hc)]
  exact (dropRight_eq_self_iff p t).mpr fun c hc => h c (List.mem_of_getLast? hc)

/-- What encloses a text is taken off. -/
theorem trim_enclosed {p : Char → Bool} {c d : Char} {t : Text} (hc : p c = true) (hd : p d = true)
    (h : ∀ e ∈ t, p e = false) : trim p (c :: (t ++ [d])) = t := by
  have hfront : dropLeft p (c :: (t ++ [d])) = dropLeft p (t ++ [d]) := List.dropWhile_cons_of_pos hc
  have hback : dropRight p (t ++ [d]) = dropRight p t := by
    unfold dropRight
    rw [List.reverse_append]
    exact congrArg List.reverse (List.dropWhile_cons_of_pos hd)
  have ht : dropRight p t = t := (dropRight_eq_self_iff p t).mpr fun e he => h e (List.mem_of_getLast? he)
  cases t with
  | nil =>
    rw [trim, hfront]
    exact congrArg (dropRight p) (List.dropWhile_cons_of_pos hd)
  | cons e t =>
    have hinner : dropLeft p (e :: t ++ [d]) = e :: t ++ [d] :=
      (dropLeft_eq_self_iff p _).mpr fun f hf => h f (by cases hf; exact List.mem_cons_self)
    rw [trim, hfront, hinner, hback, ht]

/-! ## What is left has no blanks at its ends -/

theorem head_dropLeft (p : Char → Bool) (t : Text) : ∀ c ∈ (dropLeft p t).head?, p c = false := by
  intro c hc
  have h := List.head?_dropWhile_not p t
  unfold dropLeft at hc
  rw [Option.mem_def.mp hc] at h
  exact h

theorem getLast_dropRight (p : Char → Bool) (t : Text) : ∀ c ∈ (dropRight p t).getLast?, p c = false := by
  unfold dropRight
  rw [List.getLast?_reverse]
  exact head_dropLeft p t.reverse

theorem dropRight_prefix (p : Char → Bool) (t : Text) : dropRight p t <+: t := by
  have h := List.reverse_prefix.mpr (List.dropWhile_suffix (l := t.reverse) p)
  rw [List.reverse_reverse] at h
  exact h

/-- **A text is stripped once and for all.** -/
theorem strip_strip (t : Text) : strip (strip t) = strip t := by
  rw [strip_eq_self_iff]
  refine ⟨fun c hc => ?_, getLast_dropRight isBlank _⟩
  obtain ⟨tail, htail⟩ := dropRight_prefix isBlank (dropLeft isBlank t)
  have hfirst : (dropRight isBlank (dropLeft isBlank t)).head? = some c := hc
  apply head_dropLeft isBlank t
  rw [← htail, List.head?_append, hfirst]
  rfl

theorem stripRight_within (t : Text) : stripRight t <+: t := dropRight_prefix isBlank t

theorem stripRight_append (t : Text) : ∃ gap, isBlankText gap = true ∧ stripRight t ++ gap = t := by
  have hsplit := congrArg List.reverse (List.takeWhile_append_dropWhile (p := isBlank) (l := t.reverse))
  rw [List.reverse_append, List.reverse_reverse] at hsplit
  exact ⟨(t.reverse.takeWhile isBlank).reverse, List.all_reverse.trans List.all_takeWhile, hsplit⟩

theorem strip_stripRight (t : Text) : strip (stripRight t) = strip t := by
  obtain ⟨gap, hgap, ht⟩ := stripRight_append t
  calc strip (stripRight t) = strip (stripRight t ++ gap) := (strip_append_blank _ hgap).symm
    _ = strip t := by rw [ht]

/-- Without the blanks at its end, a text is its strip after some blanks. -/
theorem stripRight_split (t : Text) : ∃ gap, isBlankText gap = true ∧ stripRight t = gap ++ strip t := by
  have hsplit : (stripRight t).takeWhile isBlank ++ stripLeft (stripRight t) = stripRight t :=
    List.takeWhile_append_dropWhile
  have hlast : stripRight (stripLeft (stripRight t)) = stripLeft (stripRight t) := by
    refine (dropRight_eq_self_iff isBlank _).mpr fun c hc => getLast_dropRight isBlank t c ?_
    show c ∈ (stripRight t).getLast?
    rw [← hsplit, List.getLast?_append, Option.mem_def.mp hc]
    rfl
  refine ⟨(stripRight t).takeWhile isBlank, List.all_takeWhile, ?_⟩
  rw [← strip_stripRight, show strip (stripRight t) = stripLeft (stripRight t) from hlast, hsplit]

/-! ## Blanks and words -/

/-- The code points of the blanks. -/
def blankPoints : List Nat :=
  [9, 10, 11, 12, 13, 28, 29, 30, 31, 32, 0x85, 0xA0, 0x1680, 0x2000, 0x2001, 0x2002, 0x2003, 0x2004, 0x2005, 0x2006,
    0x2007, 0x2008, 0x2009, 0x200A, 0x2028, 0x2029, 0x202F, 0x205F, 0x3000]

theorem toNat_mem_blankPoints {c : Char} (h : isBlank c = true) : c.toNat ∈ blankPoints := by
  simp only [isBlank, isSeparator, Bool.or_eq_true, Bool.and_eq_true, decide_eq_true_eq] at h
  simp only [blankPoints, List.mem_cons, List.not_mem_nil, or_false]
  omega

/-- A blank is no word character. -/
theorem not_isWord_of_isBlank {c : Char} (h : isBlank c = true) : isWord c = false := by
  have hmem := toNat_mem_blankPoints h
  have hpoints : ∀ n ∈ blankPoints, n < 48 ∨ 128 ≤ n ∧ inRanges wordRanges n = false := by decide +kernel
  unfold isWord
  rcases hpoints _ hmem with hlow | ⟨hhigh, hnone⟩
  · have hline : c ≠ '_' := by
      rintro rfl
      cases h
    rw [if_pos (by omega)]
    simp [isAsciiLetter, isAsciiDigit, hline]
    omega
  · rw [if_neg (by omega), hnone]

theorem not_isBlank_of_isWord {c : Char} (h : isWord c = true) : isBlank c = false := by
  rw [← Bool.not_eq_true]
  intro hb
  rw [not_isWord_of_isBlank hb] at h
  cases h

/-! ## Marks at an end -/

/-- A mark at the front stands before a character that is not in it. -/
theorem startsWith_append {mark t : Text} (ht : ∀ c ∈ t.head?, c ∉ mark) (before : Text) :
    startsWith (before ++ t) mark = startsWith before mark := by
  unfold startsWith
  rw [Bool.eq_iff_iff, List.isPrefixOf_iff_prefix, List.isPrefixOf_iff_prefix]
  refine ⟨fun h => ?_, fun h => h.trans (List.prefix_append _ _)⟩
  rcases List.prefix_or_prefix_of_prefix h (List.prefix_append before t) with h' | ⟨more, hmore⟩
  · exact h'
  · cases more with
    | nil => exact ⟨[], by rw [← hmore, List.append_nil, List.append_nil]⟩
    | cons c more =>
      rw [← hmore, List.prefix_append_right_inj] at h
      obtain ⟨rest, rfl⟩ := h
      exact absurd (hmore ▸ List.mem_append_right before List.mem_cons_self) (ht c rfl)

theorem endsWith_append {mark t : Text} (ht : ∀ c ∈ t.getLast?, c ∉ mark) (after : Text) :
    endsWith (t ++ after) mark = endsWith after mark := by
  have hfirst : ∀ c ∈ t.reverse.head?, c ∉ mark.reverse := by
    rw [List.head?_reverse]
    exact fun c hc hmem => ht c hc (List.mem_reverse.mp hmem)
  have h := startsWith_append hfirst after.reverse
  rw [← List.reverse_append] at h
  exact h

end SourceDoc.Text
