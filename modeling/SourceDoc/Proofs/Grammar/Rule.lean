import SourceDoc.Proofs.Grammar.Step
import SourceDoc.Proofs.Grammar.Tree

/-!
# The trees of a reading

`Reads c c' trees` says that a reading goes from one cursor to another in the same text and gives trees that stand in
order between their rows.  Every step of a grammar reads so (`sound`), whatever its rules and scanners are, and so
the trees of a whole text stand in its rows (`parse?_between`).
-/

namespace SourceDoc.Grammar

variable {ν κ φ : Type} {c c' m : Cursor} {xs ys : List (Tree κ φ)}

/-- A reading from one cursor to another: it takes the text between the two, and the trees stand in order between their
rows. -/
structure Reads (c c' : Cursor) (trees : List (Tree κ φ)) : Prop where
  text : ∃ front, c.rest = front ++ c'.rest ∧ c'.place = c.place.after front
  trees : Between c.place.row c'.place.row trees

namespace Reads

theorem refl (c : Cursor) : Reads c c ([] : List (Tree κ φ)) := ⟨⟨[], rfl, rfl⟩, .nil (Nat.le_refl _)⟩

theorem append (hx : Reads c m xs) (hy : Reads m c' ys) : Reads c c' (xs ++ ys) where
  text := by
    obtain ⟨front, hrest, hplace⟩ := hx.text
    obtain ⟨front', hrest', hplace'⟩ := hy.text
    exact ⟨front ++ front', by rw [hrest, hrest', List.append_assoc], by rw [hplace', hplace, Place.after_append]⟩
  trees := hx.trees.append hy.trees

/-- Other trees that stand between the same cursors. -/
theorem of_trees (h : Reads c c' xs) (hy : Between c.place.row c'.place.row ys) : Reads c c' ys := ⟨h.text, hy⟩

theorem advance (c : Cursor) (n : Nat) : Reads c (c.advance n) ([] : List (Tree κ φ)) where
  text := ⟨c.rest.take n, (List.take_append_drop n c.rest).symm, rfl⟩
  trees := .nil (Place.row_le_after _ _)

theorem leaf (kind : κ) (c : Cursor) (n : Nat) :
    Reads c (c.advance n) [(.node kind none c.place (c.advance n).place [] : Tree κ φ)] :=
  ⟨(advance (κ := κ) (φ := φ) c n).text, .leaf kind (Place.row_le_after _ _)⟩

/-- An empty leaf takes no text. -/
theorem gap (kind : κ) (c : Cursor) : Reads c c [(.node kind none c.place c.place [] : Tree κ φ)] :=
  ⟨⟨[], rfl, rfl⟩, .leaf kind (Nat.le_refl _)⟩

end Reads

variable {g : Table ν κ φ} {bound : Nat}

/-! ## Filler and nodes -/

theorem skip_reads (h : g.skip bound c = (c', xs)) : Reads c c' xs := by
  induction bound generalizing c xs with
  | zero =>
    cases h
    exact .refl _
  | succ bound ih =>
    rw [Table.skip] at h
    split at h
    · cases h
      exact .refl _
    · exact (Reads.advance c _).append (ih h)
    · cases h
      exact (Reads.leaf g.comment c _).append (ih rfl)

theorem seek_reads {accept : Text → Bool} (h : g.seek accept bound c = some (c', xs)) :
    Reads c c' xs := by
  induction bound generalizing c xs with
  | zero => cases h
  | succ bound ih =>
    rw [Table.seek] at h
    split at h
    · cases h
      exact .gap g.empty _
    · extract_lets body at h
      -- The blanks before a comment leave no trace.
      have hblank : Reads c body ([] : List (Tree κ φ)) := by
        simp only [body]
        split
        · exact .advance c _
        · exact .refl c
      split at h
      · obtain ⟨⟨last, found⟩, hfound, he⟩ := Option.map_eq_some_iff.mp h
        cases he
        exact hblank.append ((Reads.leaf g.comment body _).append (ih hfound))
      · cases h

variable [DecidableEq κ]

theorem close_between {a b : Nat} (kind : κ) (h : Between a b xs) : Between a b (g.close kind xs) := by
  unfold Table.close
  extract_lets isComment lead rest trail inner
  split
  · rename_i first last hfirst hlast
    have hrest : inner ++ trail = rest := by
      have hs : trail <:+ rest := List.reverse_prefix.mp (by rw [List.reverse_reverse]; exact List.takeWhile_prefix _)
      rw [List.suffix_iff_eq_drop.mp hs]
      exact List.take_append_drop _ _
    have hxs : lead ++ inner ++ trail = xs := by
      rw [List.append_assoc, hrest]
      exact List.takeWhile_append_dropWhile
    exact Between.group (hxs ▸ h) hfirst hlast List.filter_sublist kind
  · exact h

theorem label_between {a b : Nat} (f : φ) (h : Between a b xs) : Between a b (g.label f xs) := by
  rw [Table.label]
  refine h.map ?_ ?_ ?_ <;>
  · rintro ⟨⟩
    simp only [Tree.withField]
    split <;> rfl

theorem leftPart_between {a b : Nat} (left : Option φ) (h : Between a b xs) : Between a b (g.leftPart left xs) := by
  cases left with
  | none => exact h
  | some f => exact label_between f h

/-! ## Rules -/

/-- What a rule reads at a bound stands in order, and so does what tails make of such a reading. -/
structure Sound (g : Table ν κ φ) (bound : Nat) : Prop where
  run : ∀ (r : Rule ν κ φ) (c c' : Cursor) (xs : List (Tree κ φ)), g.run bound r c = some (c', xs) → Reads c c' xs
  extend : ∀ (tails others : List (Tail ν κ φ)) (c m c' : Cursor) (xs ys : List (Tree κ φ)), Reads c m xs →
    g.extend bound tails others m xs = some (c', ys) → Reads c c' ys

theorem Sound.step (hg : Sound g bound) {r : Rule ν κ φ} (h : g.Step bound c r c' xs) : Reads c c' xs := by
  cases h with
  | done | check _ | stop _ | without _ => exact .refl c
  | leaf hskip _ => exact (skip_reads hskip).append (.leaf _ _ _)
  | tight _ => exact .leaf _ c _
  | gap hseek => exact seek_reads hseek
  | call hrule => exact hg.run _ _ _ _ hrule
  | seq hfirst hsecond => exact (hg.run _ _ _ _ hfirst).append (hg.run _ _ _ _ hsecond)
  | first hfirst => exact hg.run _ _ _ _ hfirst
  | second _ hsecond => exact hg.run _ _ _ _ hsecond
  | more hbody _ hrest => exact (hg.run _ _ _ _ hbody).append (hg.run _ _ _ _ hrest)
  | node hbody =>
    have hread := hg.run _ _ _ _ hbody
    exact hread.of_trees (close_between _ hread.trees)
  | field hbody =>
    have hread := hg.run _ _ _ _ hbody
    exact hread.of_trees (label_between _ hread.trees)
  | chain hbase htails => exact hg.extend _ _ _ _ _ _ _ (hg.run _ _ _ _ hbase) htails

theorem Sound.extension (hg : Sound g bound) {tails others : List (Tail ν κ φ)} (hx : Reads c m xs)
    (h : g.Extension bound tails m xs others c' ys) : Reads c c' ys := by
  cases h with
  | done => exact hx
  | other _ hothers => exact hg.extend _ _ _ _ _ _ _ hx hothers
  | more left _ hrest htails =>
    have hleft : Reads c m (g.leftPart left xs) := hx.of_trees (leftPart_between left hx.trees)
    have hall := hleft.append (hg.run _ _ _ _ hrest)
    exact hg.extend _ _ _ _ _ _ _ (hall.of_trees (close_between _ hall.trees)) htails

/-- **Every reading is in order.**  The induction is on the bound of the recursion, where rules and tails call each
other. -/
theorem sound (g : Table ν κ φ) (bound : Nat) : Sound g bound := by
  induction bound with
  | zero =>
    constructor
    · intro _ _ _ _ h
      cases h
    · intro _ _ _ _ _ _ _ _ h
      cases h
  | succ bound ih =>
    constructor
    · intro _ _ _ _ h
      exact ih.step (run_succ_iff.mp h)
    · intro _ _ _ _ _ _ _ hx h
      exact ih.extension hx (extend_succ_iff.mp h)

/-- The trees of a text stand in order in its rows. -/
theorem parse?_between {start : ν} {source : Text} (h : g.parse? start source = some xs) :
    Between 0 (source.count '\n') xs := by
  obtain ⟨⟨last, read⟩, hread, rfl⟩ := Option.map_eq_some_iff.mp h
  obtain ⟨⟨front, hsource, hplace⟩, htrees⟩ := (sound g _).run _ _ _ _ hread
  refine htrees.lower ?_
  have hrow : last.place.row = 0 + front.count '\n' := by rw [hplace, Place.row_after]
  have hcount : source.count '\n' = front.count '\n' + last.rest.count '\n' := by
    rw [← List.count_append, ← hsource]
  omega

end SourceDoc.Grammar
