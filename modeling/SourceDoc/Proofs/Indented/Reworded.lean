import Mathlib.Data.List.TakeWhile
import SourceDoc.Proofs.Indented.Block
import SourceDoc.Proofs.Indented.Reading
import SourceDoc.Proofs.Indented.Yield

/-!
# What a search for a yield does not see

`partsOf` says of each character of a line whether it is code, a mark, a character in a text, or one in a comment; the
code of the line is its characters that are code (`codeOf_eq_codeAmong`), and both are read by the same steps
(`partStep`).  Lines are reworded where other characters stand in their texts and their comments (`IsReworded`).  A
reworded line has the same parts (`partsOf_reworded`), so a function stays a generator, or none, whatever is said below
its documentation:

    IsReworded none (lines.drop own) (lines'.drop own) →
      yields lines' start stop = yields lines start stop      (yields_reworded)

where `own` is the first line below the documentation.
-/

namespace SourceDoc.Indented

open Text

/-! ## The parts of a line -/

/-- What a character of a line is. -/
inductive Part where
  | code
  /-- A quote, a backslash in a text, the character that it takes the meaning from, or the sign in front of a
  comment. -/
  | mark
  /-- Any other character in a text. -/
  | text
  | comment
  deriving DecidableEq, Repr

/-- What the characters of a line are.  `quote` is the quote open before, and `skip` characters at the front belong to
the mark before them. -/
def partsOf (quote : Option Text) (skip : Nat) : Text → List Part
  | [] => []
  | c :: rest =>
    match skip with
    | n + 1 => .mark :: partsOf quote n rest
    | 0 =>
      match quote with
      | some q =>
        if q.isPrefixOf (c :: rest) then .mark :: partsOf none (q.length - 1) rest
        else if c = '\\' then .mark :: partsOf quote 1 rest
        else (if isTextQuote c then .mark else .text) :: partsOf quote 0 rest
      | none =>
        if c = '#' then .mark :: rest.map fun _ => .comment
        else
          match longQuote? (c :: rest) with
          | some q => .mark :: partsOf (some q) (q.length - 1) rest
          | none =>
            if isTextQuote c then .mark :: partsOf (some [c]) 0 rest
            else .code :: partsOf none 0 rest

/-- What the first character of a line is, with the quote that is open behind it and the number of characters there that
belong to its mark; nothing where a comment starts. -/
def partStep (quote : Option Text) (skip : Nat) (c : Char) (rest : Text) : Option (Part × Option Text × Nat) :=
  match skip, quote with
  | n + 1, _ => some (.mark, quote, n)
  | 0, some q =>
    if q.isPrefixOf (c :: rest) then some (.mark, none, q.length - 1)
    else if c = '\\' then some (.mark, quote, 1)
    else some (if isTextQuote c then .mark else .text, quote, 0)
  | 0, none =>
    if c = '#' then none
    else
      match longQuote? (c :: rest) with
      | some q => some (.mark, some q, q.length - 1)
      | none => if isTextQuote c then some (.mark, some [c], 0) else some (.code, none, 0)

/-- A line is read character by character: each one is found out by one step, and decides how the next one is read. -/
theorem partsOf_cons (quote : Option Text) (skip : Nat) (c : Char) (rest : Text) :
    partsOf quote skip (c :: rest) =
      match partStep quote skip c rest with
      | none => .mark :: rest.map fun _ => .comment
      | some (part, quote', skip') => part :: partsOf quote' skip' rest := by
  cases skip with
  | succ n => rfl
  | zero =>
    cases quote with
    | some q =>
      simp only [partsOf, partStep]
      split
      · rfl
      · split <;> rfl
    | none =>
      simp only [partsOf, partStep]
      split
      · rfl
      · cases longQuote? (c :: rest) with
        | some q => rfl
        | none => cases isTextQuote c <;> rfl

/-- The code of a line is read by the same steps. -/
theorem codeOf_cons (quote : Option Text) (skip : Nat) (c : Char) (rest : Text) :
    codeOf quote skip (c :: rest) =
      match partStep quote skip c rest with
      | none => ([], none)
      | some (part, quote', skip') =>
        ((if part = .code then [c] else []) ++ (codeOf quote' skip' rest).1, (codeOf quote' skip' rest).2) := by
  cases skip with
  | succ n => rfl
  | zero =>
    cases quote with
    | some q =>
      rw [codeOf_quoted, partStep]
      split
      · rfl
      · split
        · rfl
        · cases isTextQuote c <;> rfl
    | none =>
      rw [codeOf_plain, partStep]
      split
      · rfl
      · cases longQuote? (c :: rest) with
        | some q => rfl
        | none =>
          simp only [isTextQuote, Bool.or_eq_true, decide_eq_true_eq]
          split <;> rfl

theorem longQuote_congr {t t' : Text} (h : ∀ q ∈ longQuotes, q.isPrefixOf t' = q.isPrefixOf t) :
    longQuote? t' = longQuote? t := by
  unfold longQuote? longQuotes
  simp only [List.find?_cons, List.find?_nil, h _ (List.mem_cons_self), h "'''".toList (by decide)]

section

variable {quote quote' : Option Text} {skip skip' : Nat} {c c' : Char} {rest rest' : Text}

/-- The sign in front of a comment is no quote. -/
theorem partStep_none (h : partStep quote skip c rest = none) : isTextQuote c = false := by
  unfold partStep at h
  grind [isTextQuote]

theorem partStep_ne_comment : partStep quote skip c rest ≠ some (.comment, quote', skip') := by
  unfold partStep
  grind

/-- A character in a text is no quote and no backslash, and does not close the text. -/
theorem partStep_text (h : partStep quote skip c rest = some (.text, quote', skip')) :
    skip = 0 ∧ isTextQuote c = false ∧ c ≠ '\\' ∧ ∃ q, quote = some q ∧ q.isPrefixOf (c :: rest) = false := by
  unfold partStep at h
  grind

/-- A step is decided by the quotes at the front of the line and, but in a text, by the first character. -/
theorem partStep_congr (hfront : ∀ q, q ∈ quote ∨ q ∈ longQuotes → q.isPrefixOf (c' :: rest') = q.isPrefixOf (c :: rest))
    (hc : c' = c ∨ (∃ quote' skip', partStep quote skip c rest = some (.text, quote', skip')) ∧
      isTextQuote c' = false ∧ c' ≠ '\\') :
    partStep quote skip c' rest' = partStep quote skip c rest := by
  rcases hc with rfl | ⟨⟨quote', skip', htext⟩, hquote, hplain⟩
  · have hlong := longQuote_congr fun q hq => hfront q (.inr hq)
    cases skip with
    | succ n => rfl
    | zero =>
      cases quote with
      | some q => rw [partStep, partStep, hfront q (.inl rfl)]
      | none => rw [partStep, partStep, hlong]
  · obtain ⟨rfl, hquote', hplain', q, rfl, hq⟩ := partStep_text htext
    rw [partStep, partStep, hfront q (.inl rfl), hq, hquote, hquote', if_neg hplain, if_neg hplain']

end

/-- The characters of a line that are code. -/
def codeAmong (line : Text) (parts : List Part) : Text :=
  (line.zip parts).filterMap fun (c, part) => if part = .code then some c else none

/-- **The code of a line is its characters that are code.** -/
theorem codeOf_eq_codeAmong (quote : Option Text) (skip : Nat) (line : Text) :
    (codeOf quote skip line).1 = codeAmong line (partsOf quote skip line) := by
  induction line generalizing quote skip with
  | nil => rfl
  | cons c rest ih =>
    rw [codeOf_cons, partsOf_cons]
    cases partStep quote skip c rest with
    | none =>
      refine (List.filterMap_eq_nil_iff.mpr ?_).symm
      rintro ⟨d, part⟩ hmem
      rcases List.mem_cons.mp hmem with he | hmem
      · cases he
        rfl
      · obtain ⟨-, -, rfl⟩ := List.mem_map.mp (List.of_mem_zip hmem).2
        rfl
    | some step =>
      obtain ⟨part, quote', skip'⟩ := step
      simp only [ih]
      cases part <;> rfl

/-- A character may stand in the place of another: in a text one that is neither a quote nor a backslash, in a comment
any one. -/
def MayReplace (p : Char × Part) (c : Char) : Prop :=
  c = p.1 ∨ (p.2 = .text ∧ isTextQuote c = false ∧ c ≠ '\\') ∨ p.2 = .comment

/-- A line has other characters only in its texts and its comment. -/
def IsRewordedLine (quote : Option Text) (line line' : Text) : Prop :=
  List.Forall₂ MayReplace (line.zip (partsOf quote 0 line)) line'

/-- Lines have other characters only in their texts and their comments; `quote` is the long quote open before. -/
def IsReworded : Option Text → List Text → List Text → Prop
  | _, [], [] => True
  | quote, line :: lines, line' :: lines' =>
    IsRewordedLine quote line line' ∧ IsReworded (codeOf quote 0 line).2 lines lines'
  | _, _, _ => False

instance (p : Char × Part) (c : Char) : Decidable (MayReplace p c) := inferInstanceAs (Decidable (_ ∨ _))

instance (quote : Option Text) (line line' : Text) : Decidable (IsRewordedLine quote line line') :=
  inferInstanceAs (Decidable (List.Forall₂ _ _ _))

instance IsReworded.instDecidable : (quote : Option Text) → (lines lines' : List Text) →
    Decidable (IsReworded quote lines lines')
  | _, [], [] => isTrue trivial
  | _, [], _ :: _ => isFalse id
  | _, _ :: _, [] => isFalse id
  | quote, line :: lines, line' :: lines' =>
    have := IsReworded.instDecidable (codeOf quote 0 line).2 lines lines'
    inferInstanceAs (Decidable (IsRewordedLine quote line line' ∧ IsReworded (codeOf quote 0 line).2 lines lines'))

/-! ## Reading a reworded line -/

section

variable {quote : Option Text} {skip : Nat} {q : Text} {c : Char} {line line' rest rest' : Text}

/-- A reworded line starts with a character for the first one. -/
theorem reworded_cons {part : Part} {parts : List Part}
    (h : List.Forall₂ MayReplace ((c :: rest).zip (part :: parts)) line') :
    ∃ c' rest', MayReplace (c, part) c' ∧ List.Forall₂ MayReplace (rest.zip parts) rest' ∧ line' = c' :: rest' := by
  rw [List.zip_cons_cons, List.forall₂_cons_left_iff] at h
  exact h

/-- What is neither in a text nor in a comment stays. -/
theorem MayReplace.eq {part : Part} {c' : Char} (h : MayReplace (c, part) c') (hpart : part = .mark ∨ part = .code) :
    c' = c := by
  rcases h with rfl | ⟨htext, -⟩ | hcomment
  · rfl
  · rcases hpart with rfl | rfl <;> cases htext
  · rcases hpart with rfl | rfl <;> cases hcomment

/-- A reworded line starts with the same comment, or is reworded behind the character for the first one. -/
theorem reworded_step (h : List.Forall₂ MayReplace ((c :: rest).zip (partsOf quote skip (c :: rest))) line') :
    (partStep quote skip c rest = none ∧ ∃ rest', rest'.length = rest.length ∧ line' = c :: rest') ∨
      ∃ part quote' skip' c' rest', partStep quote skip c rest = some (part, quote', skip') ∧ MayReplace (c, part) c' ∧
        List.Forall₂ MayReplace (rest.zip (partsOf quote' skip' rest)) rest' ∧ line' = c' :: rest' := by
  rw [partsOf_cons] at h
  cases hstep : partStep quote skip c rest with
  | none =>
    rw [hstep] at h
    obtain ⟨c', rest', hc, hrest, rfl⟩ := reworded_cons h
    have hlen := hrest.length_eq
    rw [List.length_zip, List.length_map, Nat.min_self] at hlen
    exact .inl ⟨rfl, rest', hlen.symm, by rw [hc.eq (.inl rfl)]⟩
  | some step =>
    obtain ⟨part, quote', skip'⟩ := step
    rw [hstep] at h
    obtain ⟨c', rest', hc, hrest, rfl⟩ := reworded_cons h
    exact .inr ⟨part, quote', skip', c', rest', rfl, hc, hrest, rfl⟩

/-- The quote is made of quotes. -/
def IsQuoteMark (q : Text) : Prop := ∀ d ∈ q, isTextQuote d = true

theorem isQuoteMark_long (h : q ∈ longQuotes) : IsQuoteMark q := by
  simp only [longQuotes, List.mem_cons, List.not_mem_nil, or_false] at h
  rcases h with rfl | rfl <;> unfold IsQuoteMark <;> decide

theorem length_partsOf (quote : Option Text) (skip : Nat) (line : Text) :
    (partsOf quote skip line).length = line.length := by
  induction line generalizing quote skip with
  | nil => rfl
  | cons c rest ih =>
    rw [partsOf_cons, List.length_cons]
    split
    · rw [List.length_cons, List.length_map]
    · rw [List.length_cons, ih]

theorem length_reworded (h : List.Forall₂ MayReplace (line.zip (partsOf quote skip line)) line') :
    line'.length = line.length := by
  rw [← h.length_eq, List.length_zip, length_partsOf, Nat.min_self]

/-- A quote stands at the front of a reworded line where it stands at the front of the line. -/
theorem isPrefixOf_reworded (hq : IsQuoteMark q)
    (h : List.Forall₂ MayReplace (line.zip (partsOf quote skip line)) line') :
    q.isPrefixOf line' = q.isPrefixOf line := by
  induction line generalizing quote skip q line' with
  | nil =>
    cases h
    rfl
  | cons c rest ih =>
    cases q with
    | nil => rfl
    | cons d q =>
      obtain ⟨hd, hq⟩ := List.forall_mem_cons.mp hq
      have hne : ∀ {e : Char}, isTextQuote e = false → (d == e) = false := by
        intro e he
        rw [beq_eq_false_iff_ne]
        rintro rfl
        rw [hd] at he
        cases he
      rcases reworded_step h with ⟨hnone, rest', -, rfl⟩ | ⟨part, quote', skip', c', rest', hstep, hc, hrest, rfl⟩
      · -- A comment has no quote in front of it.
        have hsign : isTextQuote c = false := partStep_none hnone
        rw [List.isPrefixOf, List.isPrefixOf, hne hsign, Bool.false_and, Bool.false_and]
      · rw [List.isPrefixOf, List.isPrefixOf, ih hq hrest]
        rcases hc with hc | ⟨rfl, hc, -⟩ | rfl
        · rw [hc]
        · rw [hne hc, hne (partStep_text hstep).2.1]
        · exact absurd hstep partStep_ne_comment

theorem longQuote_reworded (h : List.Forall₂ MayReplace (line.zip (partsOf quote skip line)) line') :
    longQuote? line' = longQuote? line := longQuote_congr fun _ hq => isPrefixOf_reworded (isQuoteMark_long hq) h

/-- A quote that a step leaves open is made of quotes. -/
theorem isQuoteMark_step {part : Part} {quote' : Option Text} {skip' : Nat} (hquote : ∀ q ∈ quote, IsQuoteMark q)
    (h : partStep quote skip c rest = some (part, quote', skip')) : ∀ q ∈ quote', IsQuoteMark q := by
  have hnone : ∀ q ∈ (none : Option Text), IsQuoteMark q := fun _ hq => nomatch hq
  cases skip with
  | succ n =>
    cases h
    exact hquote
  | zero =>
    cases quote with
    | some q =>
      rw [partStep] at h
      split at h
      · cases h
        exact hnone
      · split at h <;> cases h <;> exact hquote
    | none =>
      rw [partStep] at h
      split at h
      · cases h
      · split at h
        · rename_i q hq
          cases h
          rintro _ ⟨⟩
          exact isQuoteMark_long (longQuote_mem hq)
        · split at h
          · rename_i hc
            cases h
            rintro _ ⟨⟩
            exact List.forall_mem_singleton.mpr hc
          · cases h
            exact hnone

/-- A reworded line starts with the same step: whether a quote stands there is never decided by a character that may be
another. -/
theorem partStep_reworded {c' : Char} (hquote : ∀ q ∈ quote, IsQuoteMark q)
    (h : List.Forall₂ MayReplace ((c :: rest).zip (partsOf quote skip (c :: rest))) (c' :: rest')) :
    partStep quote skip c' rest' = partStep quote skip c rest := by
  refine partStep_congr ?_ ?_
  · rintro q (hq | hq)
    · exact isPrefixOf_reworded (hquote q hq) h
    · exact isPrefixOf_reworded (isQuoteMark_long hq) h
  · rcases reworded_step h with ⟨-, rest', -, he⟩ | ⟨part, quote', skip', c', rest', hstep, hc, -, he⟩
    · cases he
      exact .inl rfl
    · cases he
      rcases hc with hc | ⟨rfl, hc⟩ | rfl
      · exact .inl hc
      · exact .inr ⟨⟨_, _, hstep⟩, hc⟩
      · exact absurd hstep partStep_ne_comment

/-- **In a reworded line every character is what it was,** and the line leaves the same quote open.  The induction is
on the line. -/
theorem partsOf_reworded (hquote : ∀ q ∈ quote, IsQuoteMark q)
    (h : List.Forall₂ MayReplace (line.zip (partsOf quote skip line)) line') :
    partsOf quote skip line' = partsOf quote skip line ∧ (codeOf quote skip line').2 = (codeOf quote skip line).2 := by
  induction line generalizing quote skip line' with
  | nil =>
    cases h
    exact ⟨rfl, rfl⟩
  | cons c rest ih =>
    rcases reworded_step h with ⟨hnone, rest', hlen, rfl⟩ | ⟨part, quote', skip', c', rest', hstep, -, hrest, rfl⟩
    · have hsame := partStep_reworded hquote h
      rw [partsOf_cons, partsOf_cons, codeOf_cons, codeOf_cons, hsame, hnone]
      simp only [List.map_const', hlen, and_self]
    · have hsame := partStep_reworded hquote h
      obtain ⟨hparts, hleft⟩ := ih (isQuoteMark_step hquote hstep) hrest
      rw [partsOf_cons, partsOf_cons, codeOf_cons, codeOf_cons, hsame, hstep]
      exact ⟨congrArg (part :: ·) hparts, hleft⟩

theorem codeAmong_reworded {parts : List Part} (hlen : parts.length = line.length)
    (h : List.Forall₂ MayReplace (line.zip parts) line') : codeAmong line' parts = codeAmong line parts := by
  induction line generalizing parts line' with
  | nil =>
    cases h
    rfl
  | cons c rest ih =>
    cases parts with
    | nil => cases hlen
    | cons part parts =>
      obtain ⟨c', rest', hc, hrest, rfl⟩ := reworded_cons h
      have hmore := ih (Nat.succ.inj hlen) hrest
      unfold codeAmong at hmore ⊢
      rw [List.zip_cons_cons, List.zip_cons_cons, List.filterMap_cons, List.filterMap_cons, hmore]
      cases part <;> simp_all [MayReplace]

/-- **A reworded line has the same code,** and leaves the same quote open. -/
theorem codeOf_reworded (hquote : ∀ q ∈ quote, IsQuoteMark q)
    (h : List.Forall₂ MayReplace (line.zip (partsOf quote skip line)) line') :
    codeOf quote skip line' = codeOf quote skip line := by
  obtain ⟨hparts, hleft⟩ := partsOf_reworded hquote h
  refine Prod.ext ?_ hleft
  rw [codeOf_eq_codeAmong, codeOf_eq_codeAmong, hparts, codeAmong_reworded (length_partsOf quote skip line) h]

/-! ## The front of a line -/

/-- Outside texts the first character of a line stays. -/
theorem head_reworded (h : IsRewordedLine none (c :: rest) line') : ∃ rest', line' = c :: rest' := by
  rcases reworded_step h with ⟨-, rest', -, rfl⟩ | ⟨part, quote', skip', c', rest', hstep, hc, -, rfl⟩
  · exact ⟨rest', rfl⟩
  · have hpart : part = .mark ∨ part = .code := by
      cases part with
      | code => exact .inr rfl
      | mark => exact .inl rfl
      | text =>
        obtain ⟨-, -, -, q, hq, -⟩ := partStep_text hstep
        cases hq
      | comment => exact absurd hstep partStep_ne_comment
    exact ⟨rest', by rw [hc.eq hpart]⟩

/-- At the front of a line outside texts, what is no quote and starts no comment stays, and so does what stops it. -/
theorem dropLeft_reworded {p : Char → Bool} (hp : ∀ c, p c = true → isTextQuote c = false ∧ c ≠ '#')
    (h : IsRewordedLine none line line') :
    line'.takeWhile p = line.takeWhile p ∧ IsRewordedLine none (dropLeft p line) (dropLeft p line') := by
  unfold IsRewordedLine at h ⊢
  induction line generalizing line' with
  | nil =>
    cases h
    exact ⟨rfl, .nil⟩
  | cons c rest ih =>
    obtain ⟨rest', rfl⟩ := head_reworded h
    unfold dropLeft
    by_cases hc : p c = true
    · obtain ⟨hquote, hcomment⟩ := hp c hc
      have hnone : longQuote? (c :: rest) = none :=
        List.find?_eq_none.mpr fun q hq => by simp [not_prefix_of_unquoted hq hquote]
      rw [partsOf_cons, partStep, if_neg hcomment, hnone] at h
      simp only [hquote, Bool.false_eq_true, if_false, List.zip_cons_cons] at h
      obtain ⟨hsame, hdrop⟩ := ih (List.forall₂_cons.mp h).2
      rw [List.takeWhile_cons_of_pos hc, List.takeWhile_cons_of_pos hc, List.dropWhile_cons_of_pos hc,
        List.dropWhile_cons_of_pos hc, hsame]
      exact ⟨rfl, hdrop⟩
    · rw [List.takeWhile_cons_of_neg hc, List.takeWhile_cons_of_neg hc, List.dropWhile_cons_of_neg hc,
        List.dropWhile_cons_of_neg hc]
      exact ⟨rfl, h⟩

/-- A blank is no quote and starts no comment. -/
theorem plain_of_isBlank (hc : isBlank c = true) : isTextQuote c = false ∧ c ≠ '#' := by
  have hblank : isBlankText [c] = true := by simpa [isBlankText] using hc
  refine ⟨isUnquoted_of_blank hblank c (List.mem_singleton_self c), ?_⟩
  rintro rfl
  cases hc

theorem blank_reworded (h : IsRewordedLine none line line') :
    isBlankText line' = isBlankText line ∧ indentation line' = indentation line := by
  obtain ⟨hfront, -⟩ := dropLeft_reworded (fun _ => plain_of_isBlank) h
  have hblank : ∀ t : Text, isBlankText t = true ↔ (t.takeWhile isBlank).length = t.length := fun t => by
    rw [isBlankText, List.all_eq_true, ← List.takeWhile_eq_self_iff]
    exact ⟨congrArg List.length, (List.takeWhile_prefix _).eq_of_length⟩
  refine ⟨?_, congrArg List.length hfront⟩
  rw [Bool.eq_iff_iff, hblank, hblank, hfront, length_reworded h]

end

/-! ## The search in reworded lines -/

section

variable {s : YieldScan} {line line' : Text} {lines lines' : List Text}

theorem next_reworded (hs : s.IsLong) (h : IsRewordedLine s.quote line line') :
    s.next line' = s.next line ∧ s.findsOn line' = s.findsOn line := by
  have hcode := codeOf_reworded (fun q hq => isQuoteMark_long (hs q hq)) h
  unfold YieldScan.next YieldScan.findsOn
  rw [hcode]
  cases hquote : s.quote with
  | some q => simp
  | none =>
    rw [hquote] at h
    obtain ⟨hblank, hindent⟩ := blank_reworded h
    rw [hblank, hindent]
    exact ⟨rfl, rfl⟩

theorem finds_reworded (hs : s.IsLong) (h : IsReworded s.quote lines lines') : s.finds lines' = s.finds lines := by
  induction lines generalizing s lines' with
  | nil =>
    cases lines' with
    | nil => rfl
    | cons => exact h.elim
  | cons line lines ih =>
    cases lines' with
    | nil => exact h.elim
    | cons line' lines' =>
      obtain ⟨hline, hlines⟩ := h
      obtain ⟨hnext, hfinds⟩ := next_reworded hs hline
      rw [YieldScan.finds_cons, YieldScan.finds_cons, hnext, hfinds]
      exact congrArg _ (ih (YieldScan.IsLong.after hs [line]) hlines)

theorem IsReworded.take {quote : Option Text} (h : IsReworded quote lines lines') (n : Nat) :
    IsReworded quote (lines.take n) (lines'.take n) := by
  induction lines generalizing quote lines' n with
  | nil =>
    cases lines' with
    | nil => simpa using h
    | cons => exact h.elim
  | cons line lines ih =>
    cases lines' with
    | nil => exact h.elim
    | cons line' lines' =>
      cases n with
      | zero => trivial
      | succ n => exact ⟨h.1, ih h.2 n⟩

/-! ## Above the lines -/

/-- The first line that is not blank is the same one, and is reworded as outside texts. -/
theorem firstLine_reworded (h : IsReworded none lines lines') :
    lines'.findIdx? (!isBlankText ·) = lines.findIdx? (!isBlankText ·) ∧
      ∀ k ∈ lines.findIdx? (!isBlankText ·), IsRewordedLine none ((lines[k]?).getD []) ((lines'[k]?).getD []) := by
  induction lines generalizing lines' with
  | nil =>
    cases lines' with
    | nil => exact ⟨rfl, by simp⟩
    | cons => exact h.elim
  | cons line lines ih =>
    cases lines' with
    | nil => exact h.elim
    | cons line' lines' =>
      obtain ⟨hline, hlines⟩ := h
      rw [List.findIdx?_cons, List.findIdx?_cons, (blank_reworded hline).1]
      cases hblank : isBlankText line with
      | false => exact ⟨rfl, by rintro _ ⟨⟩; exact hline⟩
      | true =>
        rw [codeOf_unquoted (isUnquoted_of_blank hblank)] at hlines
        obtain ⟨hsame, hfirst⟩ := ih hlines
        refine ⟨by simp [hsame], ?_⟩
        intro k hk
        simp only [Bool.not_true, Bool.false_eq_true, if_false, Option.mem_def, Option.map_eq_some_iff] at hk
        obtain ⟨k, hk, rfl⟩ := hk
        exact hfirst k hk

theorem firstCode_reworded {start : Nat} (stop : Nat) (h : IsReworded none (lines.drop start) (lines'.drop start)) :
    firstCode? lines' start stop = firstCode? lines start stop ∧
      ∀ i ∈ firstCode? lines start stop, IsRewordedLine none ((lines[i]?).getD []) ((lines'[i]?).getD []) := by
  have htake := h.take (stop - start)
  rw [← List.drop_take, ← List.drop_take] at htake
  obtain ⟨hsame, hfirst⟩ := firstLine_reworded htake
  unfold firstCode?
  refine ⟨by rw [hsame], ?_⟩
  intro i hi
  obtain ⟨k, hk, rfl⟩ := Option.map_eq_some_iff.mp hi
  have hlt := (List.findIdx?_eq_some_iff_getElem.mp hk).1
  rw [List.length_drop, List.length_take] at hlt
  have := hfirst k hk
  rwa [List.getElem?_drop, List.getElem?_drop, List.getElem?_take_of_lt (by omega),
    List.getElem?_take_of_lt (by omega)] at this

/-- Blanks at the end of a text are no part of a long quote. -/
theorem longQuote_stripRight (t : Text) :
    longQuote? (dropLeft isQuoteLetter (stripRight t)) = longQuote? (dropLeft isQuoteLetter t) := by
  obtain ⟨gap, hgap, ht⟩ := stripRight_append t
  generalize stripRight t = u at ht ⊢
  have hunblank : ∀ c ∈ gap, isBlank c = true := List.all_eq_true.mp hgap
  have hkeep : dropLeft isQuoteLetter gap = gap := by
    refine (dropLeft_eq_self_iff isQuoteLetter gap).mpr fun c hc => ?_
    have hblank := hunblank c (List.mem_of_head? hc)
    rw [← Bool.not_eq_true]
    intro hletter
    simp only [isQuoteLetter, Bool.or_eq_true, decide_eq_true_eq] at hletter
    rcases hletter with ((rfl | rfl) | rfl) | rfl <;> cases hblank
  have hdrop : dropLeft isQuoteLetter t = dropLeft isQuoteLetter u ++ gap := by
    rw [← ht]
    unfold dropLeft at hkeep ⊢
    rw [List.dropWhile_append]
    split
    · rename_i hnil
      rw [hkeep, List.isEmpty_iff.mp hnil, List.nil_append]
    · rfl
  have hprefix : ∀ q ∈ longQuotes, ∀ u : Text, q.isPrefixOf (u ++ gap) = q.isPrefixOf u := by
    intro q hq u
    rw [Bool.eq_iff_iff, List.isPrefixOf_iff_prefix, List.isPrefixOf_iff_prefix]
    refine ⟨fun h => ?_, fun h => h.trans (List.prefix_append u gap)⟩
    rcases List.prefix_or_prefix_of_prefix h (List.prefix_append u gap) with h' | ⟨more, rfl⟩
    · exact h'
    · have hmore := (List.prefix_append_right_inj u).mp h
      cases more with
      | nil => exact ⟨[], by simp⟩
      | cons c more =>
        have hblank := hunblank c (hmore.subset List.mem_cons_self)
        have hquote := isQuoteMark_long hq c (List.mem_append_right u List.mem_cons_self)
        rw [(plain_of_isBlank hblank).1] at hquote
        cases hquote
  rw [hdrop]
  exact (longQuote_congr fun q hq => hprefix q hq _).symm

theorem documentationQuote_reworded (h : IsRewordedLine none line line') :
    longQuote? (dropLeft isQuoteLetter (strip line')) = longQuote? (dropLeft isQuoteLetter (strip line)) := by
  have hletter : ∀ c, isQuoteLetter c = true → isTextQuote c = false ∧ c ≠ '#' := by
    intro c hc
    simp only [isQuoteLetter, Bool.or_eq_true, decide_eq_true_eq] at hc
    rcases hc with ((rfl | rfl) | rfl) | rfl <;> decide
  show longQuote? (dropLeft isQuoteLetter (stripRight (stripLeft line'))) =
    longQuote? (dropLeft isQuoteLetter (stripRight (stripLeft line)))
  rw [longQuote_stripRight, longQuote_stripRight]
  exact longQuote_reworded (dropLeft_reworded hletter (dropLeft_reworded (fun _ => plain_of_isBlank) h).2).2

theorem findIdx_of_take {p : Text → Bool} {n : Nat} (h : lines.findIdx? p = some n)
    (htake : lines'.take (n + 1) = lines.take (n + 1)) : lines'.findIdx? p = some n := by
  refine List.IsPrefix.findIdx?_eq_some (List.take_prefix (n + 1) lines') ?_
  rw [htake, List.findIdx?_take, h]
  simp

/-- The first line of code is found in the lines down to it. -/
theorem firstCode_of_take {start stop i : Nat} (h : firstCode? lines start stop = some i)
    (htake : lines'.take (i + 1) = lines.take (i + 1)) : firstCode? lines' start stop = some i := by
  obtain ⟨k, hk, rfl⟩ := Option.map_eq_some_iff.mp h
  refine Option.map_eq_some_iff.mpr ⟨k, findIdx_of_take hk ?_, rfl⟩
  rw [List.take_drop, List.take_drop, List.take_take, List.take_take]
  exact congrArg (List.drop start) (take_of_take htake (by omega))

/-- The first line below a documentation that starts on line `i` with a long quote. -/
def documentationEnd (lines : List Text) (mark : Text) (i : Nat) : Nat :=
  if contains ((dropLeft isQuoteLetter (strip ((lines[i]?).getD []))).drop mark.length) mark then i + 1
  else ((lines.drop (i + 1)).findIdx? (contains · mark)).elim lines.length (i + 1 + · + 1)

theorem afterDocumentation_of_quote {start stop i : Nat} {mark : Text} (hcode : firstCode? lines start stop = some i)
    (hquote : longQuote? (dropLeft isQuoteLetter (strip ((lines[i]?).getD []))) = some mark) :
    afterDocumentation lines start stop = documentationEnd lines mark i := by
  rw [afterDocumentation, hcode, documentationEnd]
  simp only [hquote]
  cases (lines.drop (i + 1)).findIdx? (contains · mark) <;> rfl

theorem lt_documentationEnd {i : Nat} (hi : i < lines.length) (mark : Text) : i < documentationEnd lines mark i := by
  unfold documentationEnd
  split
  · exact Nat.lt_succ_self i
  · cases (lines.drop (i + 1)).findIdx? (contains · mark) with
    | none => exact hi
    | some n =>
      simp only [Option.elim_some]
      omega

/-- Nothing can be reworded below the last line. -/
theorem eq_of_reworded_below {n : Nat} (habove : lines'.take n = lines.take n)
    (h : IsReworded none (lines.drop n) (lines'.drop n)) (hn : lines.length ≤ n) : lines' = lines := by
  have hnil : lines'.drop n = [] := by
    rw [List.drop_eq_nil_of_le hn] at h
    cases hd : lines'.drop n with
    | nil => rfl
    | cons => rw [hd] at h; exact h.elim
  calc
    lines' = lines'.take n ++ lines'.drop n := (List.take_append_drop n lines').symm
    _ = lines := by rw [habove, hnil, List.append_nil, List.take_of_length_le hn]

/-- A documentation ends where it did: on a line of its own that stays, or with the last line. -/
theorem documentationEnd_reworded {i : Nat} {mark : Text} (hi : i < lines.length)
    (habove : lines'.take (documentationEnd lines mark i) = lines.take (documentationEnd lines mark i))
    (h : IsReworded none (lines.drop (documentationEnd lines mark i)) (lines'.drop (documentationEnd lines mark i))) :
    documentationEnd lines' mark i = documentationEnd lines mark i := by
  have hline := getElem_of_take habove (lt_documentationEnd hi mark)
  by_cases hshort : contains ((dropLeft isQuoteLetter (strip ((lines[i]?).getD []))).drop mark.length) mark = true
  · rw [documentationEnd, documentationEnd, hline, if_pos hshort, if_pos hshort]
  · have hend : documentationEnd lines mark i =
        ((lines.drop (i + 1)).findIdx? (contains · mark)).elim lines.length (i + 1 + · + 1) := if_neg hshort
    cases hn : (lines.drop (i + 1)).findIdx? (contains · mark) with
    | some n =>
      rw [hn, Option.elim_some] at hend
      have hn' : (lines'.drop (i + 1)).findIdx? (contains · mark) = some n := by
        refine findIdx_of_take hn ?_
        rw [List.take_drop, List.take_drop]
        exact congrArg (List.drop _) (take_of_take habove (by omega))
      rw [hend, documentationEnd, hline, if_neg hshort, hn', Option.elim_some]
    | none =>
      rw [hn, Option.elim_none] at hend
      rw [eq_of_reworded_below habove h (Nat.le_of_eq hend.symm)]

/-- **What is reworded below the documentation leaves it where it is.** -/
theorem afterDocumentation_reworded {start stop : Nat}
    (habove : lines'.take (afterDocumentation lines start stop) = lines.take (afterDocumentation lines start stop))
    (h : IsReworded none (lines.drop (afterDocumentation lines start stop))
      (lines'.drop (afterDocumentation lines start stop))) :
    afterDocumentation lines' start stop = afterDocumentation lines start stop := by
  cases hcode : firstCode? lines start stop with
  | none =>
    have hown : afterDocumentation lines start stop = start := by rw [afterDocumentation, hcode]
    rw [hown] at h ⊢
    rw [afterDocumentation, (firstCode_reworded stop h).1, hcode]
  | some i =>
    cases hquote : longQuote? (dropLeft isQuoteLetter (strip ((lines[i]?).getD []))) with
    | none =>
      have hown : afterDocumentation lines start stop = start := by
        rw [afterDocumentation, hcode]
        simp only [hquote]
      rw [hown] at h ⊢
      obtain ⟨hsame, hfirst⟩ := firstCode_reworded stop h
      rw [afterDocumentation, hsame, hcode]
      simp only [documentationQuote_reworded (hfirst i hcode), hquote]
    | some mark =>
      -- The documentation starts on a line above those that are reworded.
      have hi := (firstCode_bounds hcode).2
      have hbelow := lt_documentationEnd hi mark
      rw [afterDocumentation_of_quote hcode hquote] at habove h ⊢
      have hcode' := firstCode_of_take hcode (take_of_take habove hbelow)
      have hquote' : longQuote? (dropLeft isQuoteLetter (strip ((lines'[i]?).getD []))) = some mark := by
        rw [getElem_of_take habove hbelow, hquote]
      rw [afterDocumentation_of_quote hcode' hquote', documentationEnd_reworded hi habove h]

/-- **Other words in texts and comments do not make a function a generator, and leave none to be one,** below its
documentation. -/
theorem yields_reworded {start stop : Nat}
    (habove : lines'.take (afterDocumentation lines start stop) = lines.take (afterDocumentation lines start stop))
    (h : IsReworded none (lines.drop (afterDocumentation lines start stop))
      (lines'.drop (afterDocumentation lines start stop))) :
    yields lines' start stop = yields lines start stop := by
  have hown := afterDocumentation_reworded habove h
  generalize hlast : afterDocumentation lines start stop = own at hown h
  have htake := h.take (stop - own)
  rw [← List.drop_take, ← List.drop_take] at htake
  unfold yields
  rw [hown, hlast]
  exact finds_reworded (s := {}) (by simp [YieldScan.IsLong]) htake

end

/-- A function with words in a text, in a comment and in a text over several lines. -/
def wordyFunction : List Text :=
  ["def f():", "    \"\"\"Nothing.\"\"\"", "    x = \"yield # \\\" it\"  # 'yield", "    y = '''a", "yield b", "'''",
    "    return x"].map String.toList

/-- The same function with other words. -/
def rewordedFunction : List Text :=
  ["def f():", "    \"\"\"Nothing.\"\"\"", "    x = \"alone - \\\" to\"  # yields", "    y = ''' ", "(yield)", "'''",
    "    return x"].map String.toList

theorem yields_reworded_sample :
    yields rewordedFunction 1 7 = yields wordyFunction 1 7 ∧ yields wordyFunction 1 7 = false := by
  have hreworded : rewordedFunction = _ :=
    literals_cons <| literals_cons <| literals_cons <| literals_cons <| literals_cons <| literals_cons <|
      literals_cons rfl
  have hwordy : wordyFunction = _ :=
    literals_cons <| literals_cons <| literals_cons <| literals_cons <| literals_cons <| literals_cons <|
      literals_cons rfl
  rw [hreworded, hwordy]
  exact ⟨yields_reworded (by decide) (by decide), by decide⟩

end SourceDoc.Indented
