import SourceDoc.Grammar.Rule

/-!
# What a rule can read

`Table.Step` says what a rule can read at one more than some bound, given what its parts read at that bound, and
`Table.Extension` says the same of the tails after what was read so far.  Both say all of it (`run_succ_iff`,
`extend_succ_iff`), so what every reading keeps is shown by a case for each way to read.
-/

namespace SourceDoc.Grammar

variable {ν κ φ : Type} {c c' m : Cursor} {xs ys : List (Tree κ φ)} {bound : Nat}

/-- The ways to read a rule from a cursor to another. -/
inductive Table.Step [DecidableEq κ] (g : Table ν κ φ) (bound : Nat) (c : Cursor) :
    Rule ν κ φ → Cursor → List (Tree κ φ) → Prop
  | done : g.Step bound c .done c []
  | leaf {kind : κ} {scan : Text → Option Nat} {start : Cursor} {comments : List (Tree κ φ)} {n : Nat}
      (hskip : g.skip (c.rest.length + 1) c = (start, comments)) (hscan : scan start.rest = some n) :
      g.Step bound c (.leaf kind scan) (start.advance n)
        (comments ++ [.node kind none start.place (start.advance n).place []])
  | tight {kind : κ} {scan : Text → Option Nat} {n : Nat} (hscan : scan c.rest = some n) :
      g.Step bound c (.tight kind scan) (c.advance n) [.node kind none c.place (c.advance n).place []]
  | gap {accept : Text → Bool} {c' : Cursor} {xs : List (Tree κ φ)}
      (hseek : g.seek accept (c.rest.length + 1) c = some (c', xs)) : g.Step bound c (.gap accept) c' xs
  | check {accept : Text → Bool} (haccept : accept c.rest = true) : g.Step bound c (.check accept) c []
  | call {symbol : ν} {c' : Cursor} {xs : List (Tree κ φ)} (hrule : g.run bound (g.rule symbol) c = some (c', xs)) :
      g.Step bound c (.call symbol) c' xs
  | seq {first second : Rule ν κ φ} {m c' : Cursor} {xs ys : List (Tree κ φ)}
      (hfirst : g.run bound first c = some (m, xs)) (hsecond : g.run bound second m = some (c', ys)) :
      g.Step bound c (.seq first second) c' (xs ++ ys)
  | first {first second : Rule ν κ φ} {c' : Cursor} {xs : List (Tree κ φ)}
      (hfirst : g.run bound first c = some (c', xs)) : g.Step bound c (.alt first second) c' xs
  | second {first second : Rule ν κ φ} {c' : Cursor} {xs : List (Tree κ φ)} (hfirst : g.run bound first c = none)
      (hsecond : g.run bound second c = some (c', xs)) : g.Step bound c (.alt first second) c' xs
  /-- A repetition ends where the rule does not match or takes no text. -/
  | stop {body : Rule ν κ φ} (hbody : ∀ m xs, g.run bound body c = some (m, xs) → m.place.offset = c.place.offset) :
      g.Step bound c (.many body) c []
  | more {body : Rule ν κ φ} {m c' : Cursor} {xs ys : List (Tree κ φ)} (hbody : g.run bound body c = some (m, xs))
      (hmoved : m.place.offset ≠ c.place.offset) (hrest : g.run bound (.many body) m = some (c', ys)) :
      g.Step bound c (.many body) c' (xs ++ ys)
  | without {body : Rule ν κ φ} (hbody : g.run bound body c = none) : g.Step bound c (.without body) c []
  | node {kind : κ} {body : Rule ν κ φ} {c' : Cursor} {xs : List (Tree κ φ)}
      (hbody : g.run bound body c = some (c', xs)) : g.Step bound c (.node kind body) c' (g.close kind xs)
  | field {name : φ} {body : Rule ν κ φ} {c' : Cursor} {xs : List (Tree κ φ)}
      (hbody : g.run bound body c = some (c', xs)) : g.Step bound c (.field name body) c' (g.label name xs)
  | chain {base : Rule ν κ φ} {tails : List (Tail ν κ φ)} {m c' : Cursor} {xs ys : List (Tree κ φ)}
      (hbase : g.run bound base c = some (m, xs)) (htails : g.extend bound tails tails m xs = some (c', ys)) :
      g.Step bound c (.chain base tails) c' ys

/-- The left part of a left-nested node, in its field if it has one there. -/
def Table.leftPart [DecidableEq κ] (g : Table ν κ φ) (left : Option φ) (read : List (Tree κ φ)) : List (Tree κ φ) :=
  match left with
  | some f => g.label f read
  | none => read

/-- The ways to go on after what was read so far, with the tails that are left to try. -/
inductive Table.Extension [DecidableEq κ] (g : Table ν κ φ) (bound : Nat) (tails : List (Tail ν κ φ)) (c : Cursor)
    (xs : List (Tree κ φ)) : List (Tail ν κ φ) → Cursor → List (Tree κ φ) → Prop
  | done : g.Extension bound tails c xs [] c xs
  | other {follows : κ → Bool} {kind : κ} {left : Option φ} {rest : Rule ν κ φ} {others : List (Tail ν κ φ)} {c' : Cursor}
      {ys : List (Tree κ φ)} (hrest : (g.lastKind? xs).any follows = true → g.run bound rest c = none)
      (hothers : g.extend bound tails others c xs = some (c', ys)) :
      g.Extension bound tails c xs (.tail follows kind left rest :: others) c' ys
  | more {follows : κ → Bool} {kind : κ} {rest : Rule ν κ φ} {others : List (Tail ν κ φ)} {m c' : Cursor}
      {right ys : List (Tree κ φ)} (left : Option φ) (hfollows : (g.lastKind? xs).any follows = true)
      (hrest : g.run bound rest c = some (m, right))
      (htails : g.extend bound tails tails m (g.close kind (g.leftPart left xs ++ right)) = some (c', ys)) :
      g.Extension bound tails c xs (.tail follows kind left rest :: others) c' ys

variable [DecidableEq κ] {g : Table ν κ φ} {r : Rule ν κ φ} {tails others : List (Tail ν κ φ)}

theorem step_of_run (h : g.run (bound + 1) r c = some (c', xs)) : g.Step bound c r c' xs := by
  cases r with
  | done =>
    cases h
    exact .done
  | fail => cases h
  | leaf kind scan =>
    rw [Table.run] at h
    obtain ⟨n, hn, he⟩ := Option.map_eq_some_iff.mp h
    obtain ⟨rfl, rfl⟩ := Prod.mk.inj he
    exact .leaf rfl hn
  | tight kind scan =>
    obtain ⟨n, hn, he⟩ := Option.map_eq_some_iff.mp h
    cases he
    exact .tight hn
  | gap accept => exact .gap h
  | check accept =>
    rw [Table.run] at h
    split at h
    · rename_i haccept
      cases h
      exact .check haccept
    · cases h
  | call symbol => exact .call h
  | seq first second =>
    rw [Table.run] at h
    split at h
    · cases h
    · rename_i mid left hleft
      split at h
      · cases h
      · rename_i last right hright
        cases h
        exact .seq hleft hright
  | alt first second =>
    rw [Table.run] at h
    split at h
    · rename_i found hfound
      cases h
      exact .first hfound
    · rename_i hnone
      exact .second hnone h
  | many body =>
    rw [Table.run] at h
    split at h
    · rename_i hnone
      cases h
      exact .stop fun _ _ hsome => nomatch hnone.symm.trans hsome
    · rename_i mid left hleft
      split at h
      · rename_i hstuck
        cases h
        refine .stop fun _ _ hsome => ?_
        cases hleft.symm.trans hsome
        exact hstuck
      · rename_i hmoved
        split at h
        · cases h
        · rename_i last right hright
          cases h
          exact .more hleft hmoved hright
  | without body =>
    rw [Table.run] at h
    split at h
    · cases h
    · rename_i hnone
      cases h
      exact .without hnone
  | node kind body =>
    obtain ⟨⟨last, read⟩, hread, he⟩ := Option.map_eq_some_iff.mp h
    cases he
    exact .node hread
  | field name body =>
    obtain ⟨⟨last, read⟩, hread, he⟩ := Option.map_eq_some_iff.mp h
    cases he
    exact .field hread
  | chain base tails =>
    rw [Table.run] at h
    split at h
    · cases h
    · rename_i mid read hread
      exact .chain hread h

theorem run_of_step (h : g.Step bound c r c' xs) : g.run (bound + 1) r c = some (c', xs) := by
  cases h with
  | done => rfl
  | leaf hskip hscan => simp [Table.run, hskip, hscan]
  | tight hscan => simp [Table.run, hscan]
  | gap hseek => exact hseek
  | check haccept => simp [Table.run, haccept]
  | call hrule => exact hrule
  | seq hfirst hsecond => simp [Table.run, hfirst, hsecond]
  | first hfirst => simp [Table.run, hfirst]
  | second hfirst hsecond => simp [Table.run, hfirst, hsecond]
  | stop hbody =>
    rw [Table.run]
    split
    · rfl
    · rename_i hsome
      rw [if_pos (hbody _ _ hsome)]
  | more hbody hmoved hrest => simp [Table.run, hbody, hmoved, hrest]
  | without hbody => simp [Table.run, hbody]
  | node hbody => simp [Table.run, hbody]
  | field hbody => simp [Table.run, hbody]
  | chain hbase htails => simp [Table.run, hbase, htails]

/-- **What a rule reads** at a bound above zero. -/
theorem run_succ_iff : g.run (bound + 1) r c = some (c', xs) ↔ g.Step bound c r c' xs := ⟨step_of_run, run_of_step⟩

/-- **What tails make** of what was read so far, at a bound above zero. -/
theorem extend_succ_iff :
    g.extend (bound + 1) tails others c xs = some (c', ys) ↔ g.Extension bound tails c xs others c' ys := by
  constructor
  · intro h
    cases others with
    | nil =>
      cases h
      exact .done
    | cons tail others =>
      obtain ⟨follows, kind, left, rest⟩ := tail
      unfold Table.extend at h
      split at h
      · rename_i hnone
        exact .other (fun hfollows => by rwa [if_pos hfollows] at hnone) h
      · rename_i mid right hright
        split at hright
        · rename_i hfollows
          exact .more left hfollows hright h
        · cases hright
  · intro h
    cases h with
    | done => rfl
    | other hrest hothers =>
      unfold Table.extend
      rw [ite_eq_right_iff.mpr hrest]
      exact hothers
    | more left hfollows hrest htails =>
      unfold Table.extend
      rw [if_pos hfollows, hrest]
      exact htails

end SourceDoc.Grammar
