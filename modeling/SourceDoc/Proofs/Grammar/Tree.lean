import SourceDoc.Grammar.Tree

/-!
# Trees whose rows are in order

In a tree that `Tree.IsOrdered` accepts, every node stands within the rows of its parent and no higher than its earlier
siblings have ended.  `Between` says the same of a list of trees and the two rows that they stand between: such lists
are closed under appending (`Between.append`), leaving trees out (`Between.sublist`) and making a node of neighbours
(`Between.group`).
-/

namespace SourceDoc.Grammar

variable {κ φ : Type}

/-! ## Places -/

theorem Place.after_append (p : Place) (a b : Text) : p.after (a ++ b) = (p.after a).after b := List.foldl_append

/-- A row for each newline character. -/
theorem Place.row_after (p : Place) (t : Text) : (p.after t).row = p.row + t.count '\n' := by
  induction t generalizing p with
  | nil => rfl
  | cons c t ih =>
    have hstep : p.after (c :: t) = (p.next c).after t := rfl
    rw [hstep, ih, List.count_cons, Place.next]
    by_cases hc : c = '\n'
    · simp [hc]
      omega
    · simp [hc]

theorem Place.row_le_after (p : Place) (t : Text) : p.row ≤ (p.after t).row := by
  rw [p.row_after]
  omega

/-! ## Trees -/

/-- No node ends above its start, the children of a node stand within its rows, and none of them starts above the end
of an earlier one. -/
inductive Tree.IsOrdered : Tree κ φ → Prop
  | node {kind : κ} {field : Option φ} {start stop : Place} {children : List (Tree κ φ)} (rows : start.row ≤ stop.row)
      (within : ∀ t ∈ children, start.row ≤ t.start.row ∧ t.stop.row ≤ stop.row)
      (order : children.Pairwise fun a b => a.stop.row ≤ b.start.row) (ordered : ∀ t ∈ children, t.IsOrdered) :
      IsOrdered (.node kind field start stop children)

/-- Trees in order that stand between two rows. -/
structure Between (top bottom : Nat) (trees : List (Tree κ φ)) : Prop where
  rows : top ≤ bottom
  within : ∀ t ∈ trees, top ≤ t.start.row ∧ t.stop.row ≤ bottom
  order : trees.Pairwise fun a b => a.stop.row ≤ b.start.row
  ordered : ∀ t ∈ trees, t.IsOrdered

theorem Tree.isOrdered_iff {t : Tree κ φ} : t.IsOrdered ↔ Between t.start.row t.stop.row t.children := by
  constructor
  · rintro ⟨rows, within, order, ordered⟩
    exact ⟨rows, within, order, ordered⟩
  · rintro ⟨rows, within, order, ordered⟩
    cases t
    exact .node rows within order ordered

theorem Tree.IsOrdered.rows {t : Tree κ φ} (h : t.IsOrdered) : t.start.row ≤ t.stop.row :=
  (isOrdered_iff.mp h).rows

/-- The rows of a tree are among those of another. -/
structure Tree.IsIn (t outer : Tree κ φ) : Prop where
  start : outer.start.row ≤ t.start.row
  stop : t.stop.row ≤ outer.stop.row

theorem Tree.IsIn.refl (t : Tree κ φ) : t.IsIn t := ⟨Nat.le_refl _, Nat.le_refl _⟩

theorem Tree.IsIn.trans {t u v : Tree κ φ} (h : t.IsIn u) (h' : u.IsIn v) : t.IsIn v :=
  ⟨Nat.le_trans h'.start h.start, Nat.le_trans h.stop h'.stop⟩

theorem Tree.IsOrdered.isIn_of_mem {t c : Tree κ φ} (h : t.IsOrdered) (hc : c ∈ t.children) : c.IsIn t :=
  ⟨((isOrdered_iff.mp h).within c hc).1, ((isOrdered_iff.mp h).within c hc).2⟩

theorem Tree.IsOrdered.of_mem {t c : Tree κ φ} (h : t.IsOrdered) (hc : c ∈ t.children) : c.IsOrdered :=
  (isOrdered_iff.mp h).ordered c hc

namespace Between

variable {a b c : Nat} {xs ys zs : List (Tree κ φ)}

theorem nil (h : a ≤ b) : Between a b ([] : List (Tree κ φ)) := ⟨h, by simp, .nil, by simp⟩

theorem singleton {t : Tree κ φ} (h : t.IsOrdered) : Between t.start.row t.stop.row [t] :=
  ⟨h.rows, by simp, List.pairwise_singleton _ t, by simpa using h⟩

theorem leaf {s e : Place} (kind : κ) (h : s.row ≤ e.row) :
    Between s.row e.row [(.node kind none s e [] : Tree κ φ)] :=
  singleton (t := .node kind none s e []) (Tree.isOrdered_iff.mpr (nil h))

theorem append (hx : Between a b xs) (hy : Between b c ys) : Between a c (xs ++ ys) where
  rows := Nat.le_trans hx.rows hy.rows
  within t ht := by
    rcases List.mem_append.mp ht with ht | ht
    · exact ⟨(hx.within t ht).1, Nat.le_trans (hx.within t ht).2 hy.rows⟩
    · exact ⟨Nat.le_trans hx.rows (hy.within t ht).1, (hy.within t ht).2⟩
  order := List.pairwise_append.mpr
    ⟨hx.order, hy.order, fun x hmx y hmy => Nat.le_trans (hx.within x hmx).2 (hy.within y hmy).1⟩
  ordered t ht := (List.mem_append.mp ht).elim (hx.ordered t) (hy.ordered t)

theorem sublist (h : Between a b xs) (hs : ys.Sublist xs) : Between a b ys :=
  ⟨h.rows, fun t ht => h.within t (hs.subset ht), h.order.sublist hs, fun t ht => h.ordered t (hs.subset ht)⟩

theorem lower (h : Between a b xs) (hc : b ≤ c) : Between a c xs :=
  ⟨Nat.le_trans h.rows hc, fun t ht => ⟨(h.within t ht).1, Nat.le_trans (h.within t ht).2 hc⟩, h.order, h.ordered⟩

/-- Trees that stand where others do. -/
theorem map {f : Tree κ φ → Tree κ φ} (hstart : ∀ t, (f t).start = t.start) (hstop : ∀ t, (f t).stop = t.stop)
    (hchildren : ∀ t, (f t).children = t.children) (h : Between a b xs) : Between a b (xs.map f) where
  rows := h.rows
  within := by simpa [hstart, hstop] using h.within
  order := by simpa [List.pairwise_map, hstart, hstop] using h.order
  ordered := by
    simp only [List.mem_map, forall_exists_index, and_imp, forall_apply_eq_imp_iff₂, Tree.isOrdered_iff, hstart, hstop,
      hchildren]
    exact fun t ht => Tree.isOrdered_iff.mp (h.ordered t ht)

/-- Neighbours stand between the start of the first and the end of the last. -/
theorem hull {first last : Tree κ φ} (h : Between a b xs) (hfirst : xs.head? = some first)
    (hlast : xs.getLast? = some last) : Between first.start.row last.stop.row xs := by
  have hstart : ∀ t ∈ xs, first.start.row ≤ t.start.row := by
    obtain ⟨rest, rfl⟩ := List.head?_eq_some_iff.mp hfirst
    intro t ht
    rcases List.mem_cons.mp ht with rfl | ht
    · exact Nat.le_refl _
    · exact Nat.le_trans (h.ordered first List.mem_cons_self).rows (List.rel_of_pairwise_cons h.order ht)
  have hstop : ∀ t ∈ xs, t.stop.row ≤ last.stop.row := by
    obtain ⟨front, rfl⟩ := List.getLast?_eq_some_iff.mp hlast
    intro t ht
    rcases List.mem_append.mp ht with hm | hm
    · have hle := (List.pairwise_append.mp h.order).2.2 t hm last (by simp)
      exact Nat.le_trans hle (h.ordered last (by simp)).rows
    · exact Nat.le_of_eq (by rw [List.mem_singleton.mp hm])
  refine ⟨?_, fun t ht => ⟨hstart t ht, hstop t ht⟩, h.order, h.ordered⟩
  have hm := List.mem_of_head? hfirst
  exact Nat.le_trans (h.ordered first hm).rows (hstop first hm)

/-- Some of the trees between others become the children of one node. -/
theorem group {first last : Tree κ φ} (h : Between a b (xs ++ ys ++ zs)) (hfirst : ys.head? = some first)
    (hlast : ys.getLast? = some last) {children : List (Tree κ φ)} (hs : children.Sublist ys) (kind : κ) :
    Between a b (xs ++ .node kind none first.start last.stop children :: zs) := by
  have hys : Between a b ys := h.sublist ((List.sublist_append_right xs ys).trans (List.sublist_append_left _ zs))
  have hchildren : Between first.start.row last.stop.row children := (hys.hull hfirst hlast).sublist hs
  have hf := List.mem_of_head? hfirst
  have hl := List.mem_of_getLast? hlast
  obtain ⟨hxy, hz, hcross⟩ := List.pairwise_append.mp h.order
  obtain ⟨hx, -, hbefore⟩ := List.pairwise_append.mp hxy
  refine ⟨h.rows, ?_, ?_, ?_⟩
  · intro t ht
    rcases List.mem_append.mp ht with ht | ht
    · exact h.within t (by simp [ht])
    · rcases List.mem_cons.mp ht with rfl | ht
      · exact ⟨(hys.within first hf).1, (hys.within last hl).2⟩
      · exact h.within t (by simp [ht])
  · refine List.pairwise_append.mpr ⟨hx, List.pairwise_cons.mpr ⟨?_, hz⟩, ?_⟩
    · exact fun z hmz => hcross last (by simp [hl]) z hmz
    · intro x hmx t ht
      rcases List.mem_cons.mp ht with rfl | ht
      · exact hbefore x hmx first hf
      · exact hcross x (by simp [hmx]) t ht
  · intro t ht
    rcases List.mem_append.mp ht with ht | ht
    · exact h.ordered t (by simp [ht])
    · rcases List.mem_cons.mp ht with rfl | ht
      · exact Tree.isOrdered_iff.mpr hchildren
      · exact h.ordered t (by simp [ht])

end Between

end SourceDoc.Grammar
