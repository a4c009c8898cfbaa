import Mathlib.Data.List.Sort
import SourceDoc.Text.Basic

/-!
# The order of texts is linear

Texts are in a linear order, so values with texts of their own come in one order only:

    l ~ l' → (l.map key).Nodup → sortOn key l = sortOn key l'                                (sortOn_eq_of_perm)

Texts in order, each once, are strictly in order (`sortedUnique_increasing`) and the same texts (`mem_sortedUnique`).
-/

namespace SourceDoc.Text

/-! ## The order -/

theorem isBefore_total (a b : Text) : isBefore a b || isBefore b a := by
  induction a generalizing b with
  | nil => simp [isBefore]
  | cons x a ih =>
    cases b with
    | nil => simp [isBefore]
    | cons y b =>
      by_cases h : x = y
      · subst h
        simpa [isBefore] using ih b
      · have hn : x.toNat ≠ y.toNat := fun he => h (Char.toNat_inj.mp he)
        simp only [isBefore, h, Ne.symm h, if_false, Bool.or_eq_true, decide_eq_true_eq]
        omega

theorem isBefore_trans (a b c : Text) (hab : isBefore a b) (hbc : isBefore b c) : isBefore a c := by
  induction a generalizing b c with
  | nil => simp [isBefore]
  | cons x a ih =>
    cases b with
    | nil => simp [isBefore] at hab
    | cons y b =>
      cases c with
      | nil => simp [isBefore] at hbc
      | cons z c =>
        simp only [isBefore] at hab hbc ⊢
        -- the first characters decide, unless they are the same
        by_cases hxy : x = y
        · subst hxy
          by_cases hxz : x = z
          · subst hxz
            simp only [if_true] at hab hbc ⊢
            exact ih b c hab hbc
          · simpa [hxz] using hbc
        · by_cases hyz : y = z
          · subst hyz
            simpa [hxy] using hab
          · simp only [hxy, hyz, if_false, decide_eq_true_eq] at hab hbc
            have hxz : x ≠ z := by
              rintro rfl
              omega
            simp only [hxz, if_false, decide_eq_true_eq]
            omega

theorem isBefore_antisymm (a b : Text) (hab : isBefore a b) (hba : isBefore b a) : a = b := by
  induction a generalizing b with
  | nil =>
    cases b with
    | nil => rfl
    | cons y b => simp [isBefore] at hba
  | cons x a ih =>
    cases b with
    | nil => simp [isBefore] at hab
    | cons y b =>
      simp only [isBefore] at hab hba
      by_cases h : x = y
      · subst h
        simp only [if_true] at hab hba
        rw [ih b hab hba]
      · simp only [h, Ne.symm h, if_false, decide_eq_true_eq] at hab hba
        omega

/-! ## Sorting -/

section

variable {α β : Type} (key : α → Text)

/-- The values come in the order of their texts. -/
def Sorted (l : List α) : Prop := (l.map key).Pairwise fun a b => isBefore a b

theorem sortOn_perm (l : List α) : (sortOn key l).Perm l := List.mergeSort_perm l _

theorem sortOn_sorted (l : List α) : Sorted key (sortOn key l) := by
  unfold Sorted
  rw [List.pairwise_map]
  exact List.pairwise_mergeSort (fun a b c => isBefore_trans (key a) (key b) (key c))
    (fun a b => isBefore_total (key a) (key b)) l

@[simp] theorem sortOn_nil : sortOn key [] = [] := by simp [sortOn]

@[simp] theorem sortOn_singleton (a : α) : sortOn key [a] = [a] := by simp [sortOn]

@[simp] theorem length_sortOn (l : List α) : (sortOn key l).length = l.length := (sortOn_perm key l).length_eq

/-- Values in order with texts of their own are given by what they are. -/
theorem eq_of_perm_of_sorted {l l' : List α} (hp : l.Perm l') (hd : (l.map key).Nodup) (h : Sorted key l)
    (h' : Sorted key l') : l = l' := by
  unfold Sorted at h h'
  rw [List.pairwise_map] at h h'
  refine List.Perm.eq_of_pairwise ?_ h h' hp
  intro a b ha hb hab hba
  exact List.inj_on_of_nodup_map hd ha (hp.mem_iff.mpr hb) (isBefore_antisymm _ _ hab hba)

/-- **Values with texts of their own come in one order only.** -/
theorem sortOn_eq_of_perm {l l' : List α} (hp : l.Perm l') (hd : (l.map key).Nodup) : sortOn key l = sortOn key l' := by
  refine eq_of_perm_of_sorted key ?_ ?_ (sortOn_sorted key l) (sortOn_sorted key l')
  · exact ((sortOn_perm key l).trans hp).trans (sortOn_perm key l').symm
  · exact (((sortOn_perm key l).map key).nodup_iff).mpr hd

/-- Values may be exchanged for others with the same texts before they are sorted or after that. -/
theorem map_sortOn (f : β → α) (l : List β) : (sortOn (fun b => key (f b)) l).map f = sortOn key (l.map f) :=
  List.map_mergeSort fun _ _ _ _ => rfl

end

/-! ## Each text once -/

/-- A text comes before another one. -/
def IsStrictlyBefore (a b : Text) : Prop := isBefore a b = true ∧ a ≠ b

/-- Repetitions are left out of texts in order; `done` are the texts before them, the last first. -/
theorem eraseRepsBy_loop_spec (a : Text) (ts done : List Text) (h : (a :: ts).Pairwise fun a b => isBefore a b = true) :
    ∃ kept, List.eraseRepsBy.loop (· == ·) a ts done = done.reverse ++ kept ∧ kept.Pairwise IsStrictlyBefore ∧
      ∀ x, x ∈ kept ↔ x ∈ a :: ts := by
  induction ts generalizing a done with
  | nil =>
    refine ⟨[a], ?_, List.pairwise_singleton _ _, fun x => Iff.rfl⟩
    show (a :: done).reverse = _
    exact List.reverse_cons
  | cons b ts ih =>
    obtain ⟨hfirst, hrest⟩ := List.pairwise_cons.mp h
    rw [List.eraseRepsBy.loop]
    by_cases hab : a = b
    · subst hab
      obtain ⟨kept, hkept, hstrict, hmem⟩ := ih a done hrest
      refine ⟨kept, by simpa using hkept, hstrict, ?_⟩
      intro x
      rw [hmem, List.mem_cons, List.mem_cons, List.mem_cons]
      exact or_self_left.symm
    · obtain ⟨kept, hkept, hstrict, hmem⟩ := ih b (a :: done) hrest
      refine ⟨a :: kept, ?_, ?_, ?_⟩
      · have hne : (a == b) = false := by simpa using hab
        rw [hne]
        rw [List.reverse_cons, List.append_assoc, List.singleton_append] at hkept
        exact hkept
      · refine List.pairwise_cons.mpr ⟨?_, hstrict⟩
        intro x hx
        have hx := (hmem x).mp hx
        refine ⟨hfirst x hx, ?_⟩
        rintro rfl
        -- the text would stand before and after its neighbour
        rcases List.mem_cons.mp hx with hxb | hx
        · exact hab hxb
        · have hba := (List.pairwise_cons.mp hrest).1 _ hx
          exact hab (isBefore_antisymm _ _ (hfirst b List.mem_cons_self) hba)
      · intro x
        rw [List.mem_cons, List.mem_cons, hmem]

theorem sortedUnique_spec (ts : List Text) :
    (sortedUnique ts).Pairwise IsStrictlyBefore ∧ ∀ x, x ∈ sortedUnique ts ↔ x ∈ ts := by
  have hsorted : (sorted ts).Pairwise fun a b => isBefore a b = true :=
    List.pairwise_mergeSort isBefore_trans isBefore_total ts
  have hmem : ∀ x, x ∈ sorted ts ↔ x ∈ ts := fun x => (List.mergeSort_perm ts isBefore).mem_iff
  unfold sortedUnique List.eraseReps
  cases hs : sorted ts with
  | nil =>
    refine ⟨.nil, ?_⟩
    intro x
    rw [← hmem x, hs]
    rfl
  | cons a rest =>
    rw [hs] at hsorted
    obtain ⟨kept, hkept, hstrict, hin⟩ := eraseRepsBy_loop_spec a rest [] hsorted
    rw [List.eraseRepsBy, hkept]
    refine ⟨hstrict, ?_⟩
    intro x
    rw [← hmem x, hs]
    exact hin x

/-- Texts in order, each once, are strictly in order. -/
theorem sortedUnique_increasing (ts : List Text) : (sortedUnique ts).Pairwise IsStrictlyBefore :=
  (sortedUnique_spec ts).1

/-- No text is lost or new. -/
theorem mem_sortedUnique {ts : List Text} {x : Text} : x ∈ sortedUnique ts ↔ x ∈ ts := (sortedUnique_spec ts).2 x

end SourceDoc.Text
