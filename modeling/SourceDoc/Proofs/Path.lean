import Mathlib.Data.Char
import Mathlib.Data.List.Lex
import Mathlib.Data.List.Sort
import SourceDoc.Path

/-!
# The order of paths

Texts and lists of parts come in dictionary order: `Text.isBefore` and `Path.isBefore` decide the order that lists take
over from their items (`Text.isBefore_iff`, `Path.isBefore_iff`).  Values with parts of their own therefore come in
strictly increasing order once they are sorted (`Path.pairwise_lt_mergeSort`).
-/

namespace SourceDoc

theorem Text.isBefore_iff (a b : Text) : Text.isBefore a b ↔ a < b ∨ a = b := by
  induction a generalizing b with
  | nil => cases b <;> simp [isBefore]
  | cons x a ih =>
    cases b with
    | nil => simp [isBefore]
    | cons y b =>
      rw [List.cons_lt_cons_iff]
      by_cases h : x = y
      · subst h
        simp [isBefore, ih b]
      · have hlt : x < y ↔ x.toNat < y.toNat := Iff.rfl
        simp [isBefore, h, hlt]

theorem Path.isBefore_iff (p q : List Text) : Path.isBefore p q ↔ p < q ∨ p = q := by
  induction p generalizing q with
  | nil => cases q <;> simp [isBefore]
  | cons a p ih =>
    cases q with
    | nil => simp [isBefore]
    | cons b q =>
      rw [List.cons_lt_cons_iff]
      by_cases h : a = b
      · subst h
        simp [isBefore, ih q]
      · simp [isBefore, h, Text.isBefore_iff]

theorem Path.isBefore_trans (p q r : List Text) (hpq : Path.isBefore p q) (hqr : Path.isBefore q r) :
    Path.isBefore p r := by
  rw [isBefore_iff] at *
  rcases hpq with hpq | rfl
  · rcases hqr with hqr | rfl
    · exact .inl (lt_trans hpq hqr)
    · exact .inl hpq
  · exact hqr

theorem Path.isBefore_total (p q : List Text) : Path.isBefore p q || Path.isBefore q p := by
  rw [Bool.or_eq_true, isBefore_iff, isBefore_iff]
  rcases lt_trichotomy p q with h | h | h
  · exact .inl (.inl h)
  · exact .inl (.inr h)
  · exact .inr (.inl h)

/-- **Values with parts of their own come in strictly increasing order.** -/
theorem Path.pairwise_lt_mergeSort {α : Type} (l : List (List Text × α)) (hd : (l.map Prod.fst).Nodup) :
    (l.mergeSort fun a b => Path.isBefore a.1 b.1).Pairwise fun a b => a.1 < b.1 := by
  have hsorted : (l.mergeSort fun a b => Path.isBefore a.1 b.1).Pairwise fun a b => Path.isBefore a.1 b.1 :=
    List.pairwise_mergeSort (fun a b c => isBefore_trans a.1 b.1 c.1) (fun a b => isBefore_total a.1 b.1) l
  have hdistinct : (l.mergeSort fun a b => Path.isBefore a.1 b.1).Pairwise fun a b => a.1 ≠ b.1 :=
    List.pairwise_map.mp (((List.mergeSort_perm l _).map Prod.fst).nodup_iff.mpr hd)
  refine (hsorted.and hdistinct).imp ?_
  rintro a b ⟨hab, hne⟩
  exact ((isBefore_iff _ _).mp hab).resolve_right hne

end SourceDoc
