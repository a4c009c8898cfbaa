import SourceDoc.Proofs.Braced.Body
import SourceDoc.Proofs.Text.Quote

/-!
# Comments at the end of a line

Code over which the search for a comment goes stays on the line (`IsPassed`): text without quotes in which no slashes
stand side by side, and a raw text.  Nothing else stays on a line of such code with a comment
(`strip_uncommented_remark`).
-/

namespace SourceDoc.Braced

open Text

/-- The search for a comment goes over the code: none starts in it, nor with its last character. -/
def IsPassed (code : Text) : Prop := ∀ rest, uncommentedFrom none (code ++ rest) = code ++ uncommentedFrom none rest

theorem IsPassed.append {a b : Text} (ha : IsPassed a) (hb : IsPassed b) : IsPassed (a ++ b) := fun rest => by
  rw [List.append_assoc, ha, hb, List.append_assoc]

theorem isPassed_unquoted {t : Text} (hquote : ∀ c ∈ t, isQuote c = false) (hbare : ¬ ['/', '/'] <:+: t ++ ['/']) :
    IsPassed t := by
  intro rest
  induction t with
  | nil => rfl
  | cons c t ih =>
    obtain ⟨hc, ht⟩ := List.forall_mem_cons.mp hquote
    have hmore : ¬ ['/', '/'] <:+: t ++ ['/'] := fun hin => hbare (hin.trans (List.suffix_cons c _).isInfix)
    have hslash : ¬ (c = '/' ∧ (t ++ rest).head? = some '/') := by
      rintro ⟨rfl, hnext⟩
      cases t with
      | nil => exact hbare ⟨[], [], rfl⟩
      | cons d t =>
        cases hnext
        exact hbare ⟨[], t ++ ['/'], rfl⟩
    rw [List.cons_append, uncommentedFrom]
    simp only [hc, if_neg hslash, Bool.false_eq_true, if_false]
    rw [ih ht hmore, List.cons_append]

theorem isPassed_plain {t : Text} (hquote : ∀ c ∈ t, isQuote c = false) (hslash : '/' ∉ t) : IsPassed t := by
  refine isPassed_unquoted hquote fun hin => ?_
  have hcount := hin.sublist.count_le '/'
  rw [List.count_append, List.count_eq_zero.mpr hslash] at hcount
  exact absurd hcount (by decide)

theorem isPassed_blank {t : Text} (h : isBlankText t = true) : IsPassed t :=
  isPassed_plain (unquoted_of_blank h) fun hmem => absurd (List.all_eq_true.mp h _ hmem) (by decide)

theorem isPassed_name {name : Text} (h : isIdentifier name = true) : IsPassed name :=
  isPassed_plain (fun c hc => (isInert_of_isIdentifier h c hc).1)
    fun hmem => absurd (isWord_of_isIdentifier h _ hmem) (by decide)

/-- A raw text hides slashes. -/
theorem isPassed_raw {t : Text} (h : '\x60' ∉ t) : IsPassed ('\x60' :: t ++ ['\x60']) := by
  intro rest
  have hinside : uncommentedFrom (some '\x60') (t ++ '\x60' :: rest) = t ++ '\x60' :: uncommentedFrom none rest := by
    induction t with
    | nil => rfl
    | cons c t ih =>
      rw [List.mem_cons, not_or] at h
      rw [List.cons_append, uncommentedFrom]
      simp only [if_neg (Ne.symm h.1), ih h.2, List.cons_append]
  have hopen : uncommentedFrom none ('\x60' :: (t ++ '\x60' :: rest)) =
      '\x60' :: uncommentedFrom (some '\x60') (t ++ '\x60' :: rest) := rfl
  simp only [List.cons_append, List.append_assoc, List.nil_append]
  rw [hopen, hinside]

/-- A comment after the code of a line, and the blanks between. -/
structure Remark where
  gap : Text
  text : Text
  deriving DecidableEq

/-- The end of a line behind its code. -/
def remarkText : Option Remark → Text
  | none => []
  | some r => r.gap ++ '/' :: '/' :: r.text

section

variable {code : Text} {remark : Option Remark}

/-- **A comment is taken off the line.** -/
theorem uncommented_remark (h : IsPassed code) (hgap : ∀ r ∈ remark, isBlankText r.gap = true) :
    uncommented (code ++ remarkText remark) = code ++ (remark.map Remark.gap).getD [] := by
  unfold uncommented
  rw [h]
  cases remark with
  | none => rfl
  | some r =>
    have hcomment : uncommentedFrom none ('/' :: '/' :: r.text) = [] := rfl
    rw [remarkText, isPassed_blank (hgap r rfl), hcomment, List.append_nil]
    rfl

theorem strip_uncommented_remark (h : IsPassed code) (hgap : ∀ r ∈ remark, isBlankText r.gap = true) :
    strip (uncommented (code ++ remarkText remark)) = strip code := by
  rw [uncommented_remark h hgap]
  refine strip_append_blank code ?_
  cases remark with
  | none => rfl
  | some r => exact hgap r rfl

/-- No block ends behind the code of a line. -/
theorem line_remark (hgap : ∀ r ∈ remark, isBlankText r.gap = true) (depth : Nat) :
    Progress.line? ⟨depth, .code⟩ false (remarkText remark) = some ⟨depth, .code⟩ := by
  cases remark with
  | none => rfl
  | some r =>
    rw [remarkText, line_blank_append (hgap r rfl)]
    exact Progress.line?_lineComment depth r.text

end

end SourceDoc.Braced
