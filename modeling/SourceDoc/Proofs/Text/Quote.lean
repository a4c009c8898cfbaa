import Mathlib.Algebra.GroupWithZero.Nat
import SourceDoc.Proofs.Text.Nesting
import SourceDoc.Proofs.Text.Pattern

/-!
# Scanners of texts with quotes

All scanners of brackets pass over quoted texts, but some know that a backslash in quotes takes the meaning from the
character after it (`Nesting.next`) and some do not (`Nesting.nextUnescaped`).  `passes?` says where a scanner is behind
a text; a text behind which nothing is open is closed for it (`IsClosedBy`).

The pieces of a text are those in front of a separator outside brackets and quotes and those behind it
(`splitTopLevel_append`).  Where no quote is escaped, both kinds of scanners are at the same place
(`closed_of_not_escapes`, `splitOnce_of_not_escapes`).
-/

namespace SourceDoc.Text

/-! ## Where a scanner is behind a text -/

/-- The nesting after a text; none where a bracket is closed that is not open. -/
def passes? (step : Nesting → Char → Nesting) (n : Nesting) : Text → Option Nesting
  | [] => some n
  | c :: t => if n.isTop && isClosing c then none else passes? step (step n c) t

/-- All quotes and all brackets of the text are closed, and no bracket is closed that is not open. -/
def IsClosedBy (step : Nesting → Char → Nesting) (t : Text) : Prop := passes? step {} t = some {}

instance (step : Nesting → Char → Nesting) (t : Text) : Decidable (IsClosedBy step t) :=
  inferInstanceAs (Decidable (_ = _))

variable {step : Nesting → Char → Nesting} {n n' : Nesting} {sep : Char} {t : Text}

/-! ## Pieces -/

/-- The character opens and closes nothing. -/
def IsInert (c : Char) : Prop := isQuote c = false ∧ isOpening c = false ∧ isClosing c = false

instance (c : Char) : Decidable (IsInert c) := inferInstanceAs (Decidable (_ ∧ _))

/-- The characters of a class without quotes and brackets open and close nothing. -/
theorem isInert_of_class {p : Char → Bool}
    (hp : ['"', '\'', '\x60', '(', '[', '\x7b', ')', ']', '\x7d'].all (!p ·) = true) {c : Char} (hc : p c = true) :
    IsInert c := by
  have hnot : c ∉ ['"', '\'', '\x60', '(', '[', '\x7b', ')', ']', '\x7d'] := fun hmem => by
    have := List.all_eq_true.mp hp c hmem
    rw [hc] at this
    cases this
  simp only [List.mem_cons, List.not_mem_nil, or_false, not_or] at hnot
  simp [IsInert, isQuote, isOpening, isClosing, hnot]

theorem isInert_of_isIdentifier {name : Text} (h : isIdentifier name = true) : ∀ c ∈ name, IsInert c :=
  fun c hc => isInert_of_class (by decide) (isWord_of_isIdentifier h c hc)

theorem nextPlain_inert (h : IsInert sep) (n : Nesting) : n.nextPlain sep = n := by
  obtain ⟨hquote, hopen, hclose⟩ := h
  simp [Nesting.nextPlain, hquote, hopen, hclose]

/-- Behind characters that open and close nothing, nothing else is open. -/
theorem foldl_inert (h : ∀ c ∈ t, IsInert c) (hn : n.quote = none) : t.foldl Nesting.next n = n := by
  induction t with
  | nil => rfl
  | cons c t ih =>
    obtain ⟨hc, ht⟩ := List.forall_mem_cons.mp h
    have hnext : n.next c = n := by
      rw [Nesting.next, hn]
      exact nextPlain_inert hc n
    rw [List.foldl_cons, hnext]
    exact ih ht

/-- Behind a text in quotes nothing is open. -/
theorem foldl_quoted {q : Char} (hq : isQuote q = true) (ht : ∀ c ∈ t, c ≠ '\\' ∧ c ≠ q) :
    (q :: (t ++ [q])).foldl Nesting.next {} = {} := by
  have hopen : Nesting.next {} q = { quote := some q } := by simp [Nesting.next, Nesting.nextPlain, hq]
  have hclose : Nesting.next { quote := some q } q = {} := by
    have hslash : q ≠ '\\' := by
      rintro rfl
      cases hq
    simp [Nesting.next, hslash]
  have hinside : t.foldl Nesting.next { quote := some q } = { quote := some q } := by
    induction t with
    | nil => rfl
    | cons c t ih =>
      obtain ⟨⟨hslash, hquote⟩, ht⟩ := List.forall_mem_cons.mp ht
      have hnext : Nesting.next { quote := some q } c = { quote := some q } := by
        simp [Nesting.next, hslash, hquote]
      rw [List.foldl_cons, hnext]
      exact ih ht
  rw [List.foldl_cons, List.foldl_append, hopen, hinside]
  exact hclose

theorem eq_of_separates {c : Char} (h : n.separates sep c = true) : c = sep ∧ n.quote = none := by
  simp only [Nesting.separates, Nesting.isTop, Bool.and_eq_true, decide_eq_true_eq, Option.isNone_iff_eq_none] at h
  exact ⟨h.1.1.2, h.1.1.1.1⟩

/-- A separator at the top changes nothing. -/
theorem next_of_separates (hsep : IsInert sep) {c : Char} (h : n.separates sep c = true) : n.next c = n := by
  obtain ⟨rfl, hquote⟩ := eq_of_separates h
  rw [Nesting.next, hquote]
  exact nextPlain_inert hsep n

/-- **Behind a text after which nothing is open, a separator cuts.** -/
theorem piecesFrom_append_separator (hsep : IsInert sep) (h : t.foldl Nesting.next n = {}) (rest : Text) :
    piecesFrom sep n (t ++ sep :: rest) = piecesFrom sep n t ++ piecesFrom sep {} rest := by
  induction t generalizing n with
  | nil =>
    obtain rfl : n = {} := h
    have htop : Nesting.separates {} sep sep = true := by simp [Nesting.separates, Nesting.isTop, hsep.1, hsep.2.1]
    have hcut : piecesFrom sep {} (sep :: rest) = [] :: piecesFrom sep {} rest := by rw [piecesFrom, if_pos htop]
    exact hcut
  | cons c t ih =>
    rw [List.foldl_cons] at h
    rw [List.cons_append, piecesFrom, piecesFrom]
    split
    · rename_i hcut
      rw [next_of_separates hsep hcut] at h
      rw [ih h]
      rfl
    · rw [ih h]
      cases hpieces : piecesFrom sep (n.next c) t with
      | nil => exact absurd hpieces (piecesFrom_ne_nil _ _ _)
      | cons piece pieces => rfl

theorem splitTopLevel_append (hsep : IsInert sep) (h : t.foldl Nesting.next {} = {}) (rest : Text) :
    splitTopLevel sep (t ++ sep :: rest) = splitTopLevel sep t ++ splitTopLevel sep rest := by
  unfold splitTopLevel
  rw [piecesFrom_append_separator hsep h, List.filterMap_append]

theorem piecesFrom_of_not_mem (h : sep ∉ t) (n : Nesting) : piecesFrom sep n t = [t] := by
  induction t generalizing n with
  | nil => rfl
  | cons c t ih =>
    rw [List.mem_cons, not_or] at h
    have hnot : ¬ n.separates sep c = true := fun hsep => h.1 (eq_of_separates hsep).1.symm
    rw [piecesFrom, if_neg hnot, ih h.2]

/-- Cutting at separators loses nothing but the separators. -/
theorem countP_pieces {p : Char → Bool} (hp : p sep = false) (n : Nesting) (t : Text) :
    ((piecesFrom sep n t).map (List.countP p)).sum = t.countP p := by
  have hjoin : ∀ pieces : List Text, (pieces.map (List.countP p)).sum = (joinWith [sep] pieces).countP p := by
    intro pieces
    induction pieces with
    | nil => rfl
    | cons piece pieces ih =>
      cases pieces with
      | nil => simp [joinWith]
      | cons piece' pieces =>
        rw [joinWith_cons _ _ _ (List.cons_ne_nil _ _), List.map_cons, List.sum_cons, ih, List.countP_append,
          List.countP_append, List.countP_singleton, hp]
        rfl
  rw [hjoin, joinWith_pieces]

theorem append_of_breakTopLevel {found : Text × Text} (h : breakTopLevel? sep n t = some found) :
    t = found.1 ++ sep :: found.2 := by
  induction t generalizing n found with
  | nil => cases h
  | cons c t ih =>
    rw [breakTopLevel?] at h
    split at h
    · rename_i hsep
      cases h
      rw [(eq_of_separates hsep).1]
      rfl
    · obtain ⟨found', hfound, rfl⟩ := Option.map_eq_some_iff.mp h
      exact congrArg (c :: ·) (ih hfound)

/-! ## Escaped quotes -/

/-- A quote stands behind a backslash in a text that it would end. -/
def escapesQuote (n : Nesting) : Text → Bool
  | [] => false
  | c :: t => (n.isEscaped && n.quote = some c) || escapesQuote (n.next c) t

/-- The nesting without what only the scanners with escapes know. -/
def Nesting.forget (n : Nesting) : Nesting := { n with isEscaped := false }

/-- The quote that is open is no backslash. -/
def Nesting.IsQuoted (n : Nesting) : Prop := n.quote ≠ some '\\'

theorem isQuoted_start : Nesting.IsQuoted {} := by
  rintro ⟨⟩

theorem isQuoted_next (h : n.IsQuoted) (c : Char) : (n.next c).IsQuoted := by
  obtain ⟨depth, quote, isEscaped⟩ := n
  unfold Nesting.IsQuoted at h ⊢
  cases quote with
  | some q =>
    simp only [Nesting.next]
    split
    · exact h
    · split
      · exact h
      · split
        · rintro ⟨⟩
        · exact h
  | none =>
    simp only [Nesting.next, Nesting.nextPlain]
    split
    · rename_i hquote
      rintro ⟨⟩
      cases hquote
    · split
      · exact h
      · split <;> exact h

/-- **Where no quote is escaped, the next character means the same for both kinds of scanners.** -/
theorem forget_next (h : n.IsQuoted) {c : Char} (hc : (n.isEscaped && n.quote = some c) = false) :
    (n.next c).forget = n.forget.nextUnescaped c := by
  obtain ⟨depth, quote, isEscaped⟩ := n
  cases quote with
  | some q =>
    simp only [Nesting.next, Nesting.forget, Nesting.nextUnescaped]
    by_cases hescaped : isEscaped = true
    · have hne : c ≠ q := by
        rintro rfl
        simp [hescaped] at hc
      rw [if_pos hescaped, if_neg hne]
    · rw [if_neg hescaped]
      by_cases hslash : c = '\\'
      · have hne : c ≠ q := by
          rintro rfl
          exact h (congrArg some hslash)
        rw [if_pos hslash, if_neg hne]
      · rw [if_neg hslash]
        split <;> rfl
  | none =>
    simp only [Nesting.next, Nesting.forget, Nesting.nextUnescaped, Nesting.nextPlain]
    split
    · rfl
    · split
      · rfl
      · split <;> rfl

theorem passes_forget (h : n.IsQuoted) (hescape : escapesQuote n t = false) :
    passes? Nesting.nextUnescaped n.forget t = (passes? Nesting.next n t).map Nesting.forget := by
  induction t generalizing n with
  | nil => rfl
  | cons c t ih =>
    obtain ⟨hc, hrest⟩ := Bool.or_eq_false_iff.mp hescape
    rw [passes?, passes?, ← forget_next h hc, ih (isQuoted_next h c) hrest]
    show (if n.isTop && isClosing c then none else _) = _
    split <;> rfl

/-- **A text with all quotes closed and none escaped is closed for both kinds of scanners.** -/
theorem closed_of_not_escapes (h : IsClosedBy Nesting.next t) (hescape : escapesQuote {} t = false) :
    IsClosedBy Nesting.nextUnescaped t := by
  have hpasses := passes_forget (n := {}) isQuoted_start hescape
  rw [show passes? Nesting.next {} t = some {} from h] at hpasses
  exact hpasses

/-- The text before the first separator outside brackets and quotes, or all of it, and the text after it, if any; a
backslash in quotes takes the meaning from the character after it. -/
def splitOnceEscaped (sep : Char) (n : Nesting) : Text → Text × Option Text
  | [] => ([], none)
  | c :: rest =>
    if n.separates sep c then ([], some rest)
    else
      let (before, after) := splitOnceEscaped sep (n.next c) rest
      (c :: before, after)

theorem splitOnceEscaped_none (h : (splitOnceEscaped sep n t).2 = none) : (splitOnceEscaped sep n t).1 = t := by
  induction t generalizing n with
  | nil => rfl
  | cons c t ih =>
    rw [splitOnceEscaped] at h ⊢
    split at h
    · cases h
    · rename_i hsep
      rw [if_neg hsep]
      exact congrArg (c :: ·) (ih h)

theorem breakTopLevel_forget (h : n.IsQuoted) (hescape : escapesQuote n (splitOnceEscaped sep n t).1 = false) :
    breakTopLevel? sep n.forget t =
      (splitOnceEscaped sep n t).2.map fun after => ((splitOnceEscaped sep n t).1, after) := by
  induction t generalizing n with
  | nil => rfl
  | cons c t ih =>
    have hseparates : n.forget.separates sep c = n.separates sep c := rfl
    rw [splitOnceEscaped] at hescape ⊢
    rw [breakTopLevel?, hseparates]
    by_cases hsep : n.separates sep c = true
    · rw [if_pos hsep, if_pos hsep]
      rfl
    · rw [if_neg hsep] at hescape
      obtain ⟨hc, hrest⟩ := Bool.or_eq_false_iff.mp hescape
      rw [if_neg hsep, if_neg hsep, ← forget_next h hc, ih (isQuoted_next h c) hrest, Option.map_map]
      rfl

/-- **Up to a separator in front of which no quote is escaped, both kinds of scanners agree.** -/
theorem splitOnce_of_not_escapes (hescape : escapesQuote {} (splitOnceEscaped sep {} t).1 = false) :
    splitOnceTopLevel sep t = splitOnceEscaped sep {} t := by
  have hbreak : breakTopLevel? sep {} t = _ := breakTopLevel_forget isQuoted_start hescape
  unfold splitOnceTopLevel
  rw [hbreak]
  cases hafter : (splitOnceEscaped sep {} t).2 with
  | none => exact Prod.ext (splitOnceEscaped_none hafter).symm hafter.symm
  | some after => exact Prod.ext rfl hafter.symm

end SourceDoc.Text
