import SourceDoc.Proofs.Text.Line
import SourceDoc.Text.Pattern
import Mathlib.Data.List.Forall2

/-!
# Line endings

A line may end in a carriage return and a newline instead of a newline alone.  A text that is written so has the same
lines as before but for carriage returns at their ends (`lines_withReturns`), and as many of them
(`length_boundaryLines_withReturns`).  The carriage return is a blank, so it is lost where blanks are stripped, and what
is searched for in a line does not hold one.
-/

namespace SourceDoc.Text

/-- The text with a carriage return before every newline. -/
def withReturns (t : Text) : Text := t.flatMap fun c => if c = '\n' then ['\r', '\n'] else [c]

/-- The second line is the first, or the first with a carriage return at its end. -/
def IsSameLine (line line' : Text) : Prop := line' = line ∨ line' = line ++ ['\r']

theorem withReturns_cons (c : Char) (t : Text) :
    withReturns (c :: t) = if c = '\n' then '\r' :: '\n' :: withReturns t else c :: withReturns t := by
  unfold withReturns
  rw [List.flatMap_cons]
  split <;> rfl

/-- The lines stay the same but for carriage returns at their ends. -/
theorem lines_withReturns (t : Text) : List.Forall₂ IsSameLine (lines t) (lines (withReturns t)) := by
  induction t with
  | nil => exact .cons (.inl rfl) .nil
  | cons c t ih =>
    rw [withReturns_cons]
    by_cases hc : c = '\n'
    · have hreturn : lines (['\r'] ++ '\n' :: withReturns t) = ['\r'] :: lines (withReturns t) :=
        lines_line (by decide) (withReturns t)
      rw [if_pos hc, hc, lines_newline]
      exact hreturn ▸ .cons (.inr rfl) ih
    · obtain ⟨line, rest, hlines, hcons⟩ := lines_cons_of_ne hc t
      obtain ⟨line', rest', hlines', hcons'⟩ := lines_cons_of_ne hc (withReturns t)
      rw [if_neg hc, hcons, hcons']
      rw [hlines, hlines'] at ih
      cases ih with
      | cons hline hrest =>
        refine .cons ?_ hrest
        rcases hline with rfl | rfl
        · exact .inl rfl
        · exact .inr rfl

/-- A carriage return and the newline after it are one boundary. -/
theorem length_boundaryLinesFrom_withReturns {t : Text} (h : '\r' ∉ t) {current current' : Text}
    (hcurrent : current = [] ↔ current' = []) :
    (boundaryLinesFrom current' (withReturns t)).length = (boundaryLinesFrom current t).length := by
  induction t generalizing current current' with
  | nil =>
    unfold withReturns
    rw [List.flatMap_nil, boundaryLinesFrom_nil, boundaryLinesFrom_nil]
    by_cases hc : current = []
    · rw [if_pos hc, if_pos (hcurrent.mp hc)]
    · rw [if_neg hc, if_neg (mt hcurrent.mpr hc)]
      rfl
  | cons c t ih =>
    rw [List.mem_cons, not_or] at h
    rw [withReturns_cons, boundaryLinesFrom_cons current (Ne.symm h.1)]
    by_cases hc : c = '\n'
    · rw [if_pos hc, hc, if_pos (by decide), boundaryLinesFrom_return, List.length_cons, List.length_cons, ih h.2 Iff.rfl]
    · rw [if_neg hc, boundaryLinesFrom_cons current' (Ne.symm h.1)]
      split
      · rw [List.length_cons, List.length_cons, ih h.2 Iff.rfl]
      · exact ih h.2 (by simp)

theorem length_boundaryLines_withReturns {t : Text} (h : '\r' ∉ t) :
    (boundaryLines (withReturns t)).length = (boundaryLines t).length :=
  length_boundaryLinesFrom_withReturns h Iff.rfl

/-! ## What does not see the end of a line -/

section

variable {line line' : Text}

theorem IsSameLine.strip_eq (h : IsSameLine line line') : strip line' = strip line := by
  rcases h with rfl | rfl
  · rfl
  · exact strip_append_blank line (by decide)

theorem IsSameLine.stripRight_eq (h : IsSameLine line line') : stripRight line' = stripRight line := by
  rcases h with rfl | rfl
  · rfl
  · exact stripRight_append_blank line (by decide)

theorem IsSameLine.isBlankText_eq (h : IsSameLine line line') : isBlankText line' = isBlankText line := by
  rcases h with rfl | rfl
  · rfl
  · rw [isBlankText_append, show isBlankText ['\r'] = true by decide, Bool.and_true]

theorem IsSameLine.indentation_eq (h : IsSameLine line line') (hline : isBlankText line = false) :
    indentation line' = indentation line := by
  rcases h with rfl | rfl
  · rfl
  · exact indentation_append _ hline

theorem IsSameLine.drop (h : IsSameLine line line') (n : Nat) : IsSameLine (line.drop n) (line'.drop n) := by
  rcases h with rfl | rfl
  · exact .inl rfl
  · rw [List.drop_append]
    cases n - line.length with
    | zero => exact .inr rfl
    | succ k => exact .inl (by simp)

theorem IsSameLine.take (h : IsSameLine line line') (n : Nat) : IsSameLine (line.take n) (line'.take n) := by
  rcases h with rfl | rfl
  · exact .inl rfl
  · rw [List.take_append]
    cases n - line.length with
    | zero => exact .inl (by simp)
    | succ k => exact .inr (by simp)

theorem isPrefixOf_append_return {head : Text} (hh : '\r' ∉ head) (line : Text) :
    head.isPrefixOf (line ++ ['\r']) = head.isPrefixOf line := by
  refine startsWith_append (fun c hc => ?_) line
  cases hc
  exact hh

theorem IsSameLine.startsWith_eq (h : IsSameLine line line') {head : Text} (hh : '\r' ∉ head) :
    startsWith line' head = startsWith line head := by
  rcases h with rfl | rfl
  · rfl
  · exact isPrefixOf_append_return hh line

theorem breakOn_append_return {mark : Text} (hm : '\r' ∉ mark) (hne : mark ≠ []) (line : Text) :
    breakOn? mark (line ++ ['\r']) = (breakOn? mark line).map fun (front, rest) => (front, rest ++ ['\r']) := by
  induction line with
  | nil =>
    have hp := isPrefixOf_append_return hm []
    rw [List.nil_append] at hp ⊢
    rw [breakOn?, breakOn?, hp, if_neg hne]
    cases mark with
    | nil => exact absurd rfl hne
    | cons c mark => rfl
  | cons c line ih =>
    have hp := isPrefixOf_append_return hm (c :: line)
    rw [List.cons_append] at hp ⊢
    rw [breakOn?, breakOn?, hp, ih]
    by_cases hpre : mark.isPrefixOf (c :: line) = true
    · have hlen : mark.length ≤ (c :: line).length := (List.isPrefixOf_iff_prefix.mp hpre).length_le
      rw [if_pos hpre, if_pos hpre, Option.map_some, ← List.cons_append, List.drop_append_of_le_length hlen]
    · rw [if_neg hpre, if_neg hpre]
      cases breakOn? mark line <;> rfl

theorem IsSameLine.breakOn_fst_eq (h : IsSameLine line line') {mark : Text} (hm : '\r' ∉ mark) (hne : mark ≠ []) :
    (breakOn? mark line').map Prod.fst = (breakOn? mark line).map Prod.fst := by
  rcases h with rfl | rfl
  · rfl
  · rw [breakOn_append_return hm hne]
    cases breakOn? mark line <;> rfl

theorem IsSameLine.contains_eq (h : IsSameLine line line') {mark : Text} (hm : '\r' ∉ mark) (hne : mark ≠ []) :
    contains line' mark = contains line mark := by
  have := congrArg Option.isSome (h.breakOn_fst_eq hm hne)
  rwa [Option.isSome_map, Option.isSome_map] at this

theorem IsSameLine.stripLeft (h : IsSameLine line line') : IsSameLine (stripLeft line) (stripLeft line') := by
  rcases h with rfl | rfl
  · exact .inl rfl
  · cases hline : isBlankText line with
    | true =>
      have hnil := (dropLeft_eq_nil_iff isBlank line).mpr hline
      have hnil' : Text.stripLeft (line ++ ['\r']) = [] := by
        rw [stripLeft_blank_append _ hline]
        rfl
      exact .inl (hnil'.trans hnil.symm)
    | false => exact .inr (stripLeft_append _ hline)

/-- What follows a head is the same. -/
theorem IsSameLine.after (h : IsSameLine line line') {head : Text} (hh : '\r' ∉ head) :
    after? head line = none ∧ after? head line' = none ∨
      ∃ rest rest', after? head line = some rest ∧ after? head line' = some rest' ∧ IsSameLine rest rest' := by
  have hs : head.isPrefixOf line' = head.isPrefixOf line := h.startsWith_eq hh
  unfold after?
  rw [hs]
  split
  · exact .inr ⟨_, _, rfl, rfl, h.drop _⟩
  · exact .inl ⟨rfl, rfl⟩

theorem IsSameLine.dropHead (h : IsSameLine line line') {head : Text} (hh : '\r' ∉ head) :
    IsSameLine (dropHead head line) (dropHead head line') := by
  have hs : head.isPrefixOf line' = head.isPrefixOf line := h.startsWith_eq hh
  unfold Text.dropHead
  rw [hs]
  split
  · exact h.drop _
  · exact h

theorem IsSameLine.before (h : IsSameLine line line') (sep : Char) :
    IsSameLine (before sep line) (before sep line') := by
  rcases h with rfl | rfl
  · exact .inl rfl
  · unfold Text.before
    rw [List.takeWhile_append]
    split
    · rename_i hall
      rw [(List.takeWhile_prefix _).eq_of_length hall, List.takeWhile_cons]
      split
      · exact .inr rfl
      · exact .inl (List.append_nil line)
    · exact .inl rfl

end

/-! ## Files with the same lines -/

/-- The files have the same lines but for carriage returns at their ends. -/
abbrev SameLines (lines lines' : List Text) : Prop := List.Forall₂ IsSameLine lines lines'

namespace SameLines

variable {lines lines' : List Text}

theorem getD (h : SameLines lines lines') (i : Nat) : IsSameLine ((lines[i]?).getD []) ((lines'[i]?).getD []) := by
  induction h generalizing i with
  | nil => exact .inl rfl
  | cons hline _ ih =>
    cases i with
    | zero => exact hline
    | succ i => exact ih i

theorem map_eq {β : Type} {f : Text → β} (h : SameLines lines lines')
    (hf : ∀ line line', IsSameLine line line' → f line' = f line) : lines'.map f = lines.map f := by
  induction h with
  | nil => rfl
  | cons hline _ ih => rw [List.map_cons, List.map_cons, hf _ _ hline, ih]

theorem filterMap_eq {β : Type} {f : Text → Option β} (h : SameLines lines lines')
    (hf : ∀ line line', IsSameLine line line' → f line' = f line) : lines'.filterMap f = lines.filterMap f := by
  have := congrArg (List.filterMap id) (h.map_eq hf)
  rwa [List.filterMap_map, List.filterMap_map] at this

theorem findIdx_eq {p : Text → Bool} (h : SameLines lines lines')
    (hp : ∀ line line', IsSameLine line line' → p line' = p line) : lines'.findIdx? p = lines.findIdx? p := by
  have := congrArg (List.findIdx? id) (h.map_eq hp)
  rwa [List.findIdx?_map, List.findIdx?_map] at this

theorem drop (h : SameLines lines lines') (n : Nat) : SameLines (lines.drop n) (lines'.drop n) :=
  List.forall₂_drop n h

theorem take (h : SameLines lines lines') (n : Nat) : SameLines (lines.take n) (lines'.take n) :=
  List.forall₂_take n h

end SameLines

end SourceDoc.Text
