import SourceDoc.Json.Parser

/-!
# What is read of a text

Every reader leaves the end of the text that it is given (`parseValue_extent`).  What is read of an object ends with its
closing brace, so nothing but blanks stands behind that in a text that is one object (`parse_object_extent`).
-/

namespace SourceDoc.Json

/-! ## Tokens -/

theorem drop_within (i : Input) (n : Nat) : (i.drop n).rest <:+ i.rest := List.drop_suffix n i.rest

theorem skip_within (i : Input) : i.skip.rest <:+ i.rest := drop_within i _

theorem parseTextFrom_within {opened bound : Nat} {read t : Text} {i after : Input}
    (h : parseTextFrom opened bound read i = .ok (t, after)) : after.rest <:+ i.rest := by
  induction bound generalizing read i with
  | zero => cases h
  | succ bound ih =>
    rw [parseTextFrom] at h
    split at h
    · cases h
    · cases h
      exact drop_within i 1
    · split at h
      · cases h
      · split at h
        · cases h
        · exact (ih h).trans (drop_within i _)
      · split at h
        · cases h
        · exact (ih h).trans (drop_within i 2)
    · split at h
      · cases h
      · exact (ih h).trans (drop_within i 1)

theorem parseText_within {t : Text} {i after : Input} (h : parseText i = .ok (t, after)) : after.rest <:+ i.rest :=
  (parseTextFrom_within h).trans (drop_within i 1)

theorem parseNumber_within {v : Json} {i after : Input} (h : parseNumber i = .ok (v, after)) :
    after.rest <:+ i.rest := by
  unfold parseNumber at h
  simp only at h
  split at h
  · cases h
  · split at h
    · split at h
      · cases h
      · cases h
        exact drop_within i _
    · cases h
      exact drop_within i _

theorem parseAtom_within {v : Json} {i after : Input} (h : parseAtom i = .ok (v, after)) : after.rest <:+ i.rest := by
  unfold parseAtom at h
  split at h
  · cases h
    exact drop_within i _
  · exact parseNumber_within h

/-! ## Values -/

/-- The input ends with what is left after a closing mark. -/
def EndsWith (mark : Char) (i after : Input) : Prop := ∃ front, i.rest = front ++ mark :: after.rest

theorem EndsWith.within {mark : Char} {i after : Input} (h : EndsWith mark i after) : after.rest <:+ i.rest := by
  obtain ⟨front, hrest⟩ := h
  exact ⟨front ++ [mark], by rw [hrest, List.append_assoc]; rfl⟩

theorem EndsWith.of_within {mark : Char} {i j after : Input} (h : EndsWith mark j after) (hj : j.rest <:+ i.rest) :
    EndsWith mark i after := by
  obtain ⟨front, hrest⟩ := h
  obtain ⟨before, hbefore⟩ := hj
  exact ⟨before ++ front, by rw [← hbefore, hrest, List.append_assoc]⟩

theorem endsWith_drop {mark : Char} {i : Input} {t : Text} (h : i.rest = mark :: t) : EndsWith mark i (i.drop 1) :=
  ⟨[], by rw [Input.drop, h]; rfl⟩

/-- What the readers of values, items and members leave under a bound. -/
structure Extent (bound : Nat) : Prop where
  value : ∀ {i v after}, parseValue bound i = .ok (v, after) →
    after.rest <:+ i.rest ∧ ∀ t, i.rest = '\x7b' :: t → EndsWith '\x7d' i after
  items : ∀ {read i v after}, parseItems bound read i = .ok (v, after) → after.rest <:+ i.rest
  members : ∀ {read i v after}, parseMembers bound read i = .ok (v, after) → EndsWith '\x7d' i after

section

variable {bound : Nat} {i after : Input} {v : Json}

theorem Extent.value_succ (h : Extent bound) (hv : parseValue (bound + 1) i = .ok (v, after)) :
    after.rest <:+ i.rest ∧ ∀ t, i.rest = '\x7b' :: t → EndsWith '\x7d' i after := by
  have hinner : (i.drop 1).skip.rest <:+ i.rest := (skip_within _).trans (drop_within i 1)
  rw [parseValue] at hv
  split at hv
  · rename_i hquote
    refine ⟨?_, fun t ht => by rw [hquote] at ht; cases ht⟩
    split at hv
    · cases hv
    · rename_i htext
      cases hv
      exact parseText_within htext
  · rename_i hbracket
    refine ⟨?_, fun t ht => by rw [hbracket] at ht; cases ht⟩
    simp only at hv
    split at hv
    · cases hv
      exact (drop_within _ 1).trans hinner
    · exact (h.items hv).trans hinner
  · have hends : EndsWith '\x7d' i after := by
      simp only at hv
      split at hv
      · rename_i hclose
        cases hv
        exact (endsWith_drop hclose).of_within hinner
      · exact (h.members hv).of_within hinner
    exact ⟨hends.within, fun _ _ => hends⟩
  · rename_i hother
    exact ⟨parseAtom_within hv, fun t ht => absurd ht (hother t)⟩

theorem Extent.items_succ {read : List Json} (h : Extent bound)
    (hv : parseItems (bound + 1) read i = .ok (v, after)) : after.rest <:+ i.rest := by
  rw [parseItems] at hv
  split at hv
  · cases hv
  · rename_i item next hitem
    have hnext : next.skip.rest <:+ i.rest := (skip_within next).trans (h.value hitem).1
    simp only at hv
    split at hv
    · cases hv
      exact (drop_within _ 1).trans hnext
    · exact (h.items hv).trans (((skip_within _).trans (drop_within _ 1)).trans hnext)
    · cases hv

theorem Extent.members_succ {read : Members} (h : Extent bound)
    (hv : parseMembers (bound + 1) read i = .ok (v, after)) : EndsWith '\x7d' i after := by
  rw [parseMembers] at hv
  split at hv
  · split at hv
    · cases hv
    · rename_i name afterName hname
      simp only at hv
      split at hv
      · split at hv
        · cases hv
        · rename_i value afterValue hvalue
          have hnext : afterValue.skip.rest <:+ i.rest := (skip_within _).trans <| (h.value hvalue).1.trans <|
            (skip_within _).trans <| (drop_within _ 1).trans <| (skip_within _).trans (parseText_within hname)
          split at hv
          · rename_i hclose
            cases hv
            exact (endsWith_drop hclose).of_within hnext
          · exact (h.members hv).of_within (((skip_within _).trans (drop_within _ 1)).trans hnext)
          · cases hv
      · cases hv
  · cases hv

/-- **Every reader leaves the end of its text, and an object ends with its brace.** -/
theorem extent (bound : Nat) : Extent bound := by
  induction bound with
  | zero =>
    constructor <;> intros
    all_goals
      rename_i hv
      cases hv
  | succ bound ih => exact ⟨ih.value_succ, ih.items_succ, ih.members_succ⟩

end

theorem skip_eq_nil {i : Input} (h : i.skip.rest = []) : ∀ c ∈ i.rest, isSpace c = true := by
  have hlen := congrArg List.length h
  rw [Input.skip, Input.drop, List.length_drop, List.length_nil] at hlen
  have htake : i.rest.takeWhile isSpace = i.rest :=
    (List.takeWhile_prefix isSpace).eq_of_length_le (Nat.le_of_sub_eq_zero hlen)
  exact fun c hc => List.all_eq_true.mp List.all_takeWhile c (htake.symm ▸ hc)

/-- **Behind an object that is a whole text stand blanks only.** -/
theorem parse_object_extent {t : Text} {v : Json} (h : parse ('\x7b' :: t) = .ok v) :
    ∃ front gap, '\x7b' :: t = front ++ '\x7d' :: gap ∧ ∀ c ∈ gap, isSpace c = true := by
  unfold parse at h
  split at h
  · cases h
  · split at h
    · cases h
    · rename_i v' after hv
      have hskip : Input.skip ⟨'\x7b' :: t, 0⟩ = ⟨'\x7b' :: t, 0⟩ := rfl
      rw [hskip] at hv
      obtain ⟨front, hfront⟩ := ((extent _).value hv).2 t rfl
      simp only at h
      split at h
      · rename_i hlast
        exact ⟨front, after.rest, hfront, skip_eq_nil hlast⟩
      · cases h

end SourceDoc.Json
