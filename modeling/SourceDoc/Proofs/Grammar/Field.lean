import Mathlib.Data.List.TakeWhile
import SourceDoc.Proofs.Grammar.Rule

/-!
# The form of what fills a field

A `FieldForm` says of nodes of some kinds that what fills a field of theirs has a text of some form.  Whether all trees
that a grammar reads are so can be seen from its rules one by one: in the rules of such nodes, what is read for the field
has to have the form (`Gives`), and all other rules are free (`Keep`, `fits_of_parse`).
-/

namespace SourceDoc.Grammar

variable {ν κ φ : Type} {g : Table ν κ φ} {source : Text} {c c' m : Cursor} {xs ys : List (Tree κ φ)}
  {r r' : Rule ν κ φ} {bound : Nat}

/-! ## The text of leaves -/

theorem Place.offset_after (p : Place) (t : Text) : (p.after t).offset = p.offset + t.length := by
  induction t generalizing p with
  | nil => rfl
  | cons c t ih =>
    have hstep : p.after (c :: t) = (p.next c).after t := rfl
    have hnext : (p.next c).offset = p.offset + 1 := rfl
    rw [hstep, ih, hnext, List.length_cons]
    omega

/-- The text before a cursor is the rest of the source from its place on. -/
def Cursor.IsAt (source : Text) (c : Cursor) : Prop := c.rest = source.drop c.place.offset

theorem Reads.isAt (h : Reads c c' xs) (hc : c.IsAt source) : c'.IsAt source := by
  obtain ⟨front, hrest, hplace⟩ := h.text
  have hdrop : c'.rest = c.rest.drop front.length := by rw [hrest, List.drop_left]
  rw [Cursor.IsAt, hdrop, hplace, Place.offset_after, show c.rest = _ from hc, List.drop_drop]

theorem text_leaf (hc : c.IsAt source) (kind : κ) (n : Nat) :
    (.node kind none c.place (c.advance n).place [] : Tree κ φ).text source = c.rest.take n := by
  have hstop : (c.advance n).place.offset = c.place.offset + (c.rest.take n).length := Place.offset_after _ _
  rw [Tree.text, Tree.start, Tree.stop, hstop, Nat.add_sub_cancel_left, ← show c.rest = _ from hc, List.length_take,
    List.take_eq_take_iff]
  omega

/-! ## Comments and empty tokens -/

/-- The tree is a comment or an empty token. -/
def Table.IsFiller (g : Table ν κ φ) (t : Tree κ φ) : Prop := t.kind = g.comment ∨ t.kind = g.empty

/-- A tree without children and without a field. -/
def Tree.IsLeaf (t : Tree κ φ) : Prop := ∃ kind start stop, t = .node kind none start stop []

theorem skip_fillers (h : g.skip bound c = (c', xs)) : ∀ t ∈ xs, t.IsLeaf ∧ g.IsFiller t := by
  induction bound generalizing c xs with
  | zero =>
    cases h
    exact List.forall_mem_nil _
  | succ bound ih =>
    rw [Table.skip] at h
    split at h
    · cases h
      exact List.forall_mem_nil _
    · exact ih h
    · cases h
      exact List.forall_mem_cons.mpr ⟨⟨⟨_, _, _, rfl⟩, .inl rfl⟩, ih rfl⟩

theorem seek_fillers {accept : Text → Bool} (h : g.seek accept bound c = some (c', xs)) :
    ∀ t ∈ xs, t.IsLeaf ∧ g.IsFiller t := by
  induction bound generalizing c xs with
  | zero => cases h
  | succ bound ih =>
    rw [Table.seek] at h
    split at h
    · cases h
      exact List.forall_mem_singleton.mpr ⟨⟨_, _, _, rfl⟩, .inr rfl⟩
    · extract_lets body at h
      split at h
      · obtain ⟨⟨last, found⟩, hfound, he⟩ := Option.map_eq_some_iff.mp h
        cases he
        exact List.forall_mem_cons.mpr ⟨⟨⟨_, _, _, rfl⟩, .inl rfl⟩, ih hfound⟩
      · cases h

/-! ## Forms of fields -/

/-- In nodes of some kinds, a field has a text of some form. -/
structure FieldForm (κ φ : Type) where
  owns : κ → Bool
  field : φ
  form : Text → Prop

variable {w : FieldForm κ φ}

/-- Where a tree fills the field, it has the form. -/
def FieldForm.Holds (w : FieldForm κ φ) (source : Text) (t : Tree κ φ) : Prop :=
  t.field = some w.field → w.form (t.text source)

/-- In a tree, comments and empty tokens fill no field, and what fills the field in the nodes that own it has the form. -/
inductive Tree.Fits (g : Table ν κ φ) (w : FieldForm κ φ) (source : Text) : Tree κ φ → Prop
  | node {kind : κ} {field : Option φ} {start stop : Place} {children : List (Tree κ φ)}
      (bare : kind = g.comment ∨ kind = g.empty → field = none)
      (owned : w.owns kind = true → ∀ t ∈ children, w.Holds source t)
      (below : ∀ t ∈ children, t.Fits g w source) : Fits g w source (.node kind field start stop children)

namespace Tree.Fits

variable {t : Tree κ φ}

theorem leaf (h : t.IsLeaf) : t.Fits g w source := by
  obtain ⟨kind, start, stop, rfl⟩ := h
  exact .node (fun _ => rfl) (fun _ u hu => nomatch hu) fun u hu => nomatch hu

theorem withField {f : φ} (h : t.Fits g w source) (hnot : ¬ g.IsFiller t) : (t.withField f).Fits g w source := by
  obtain ⟨-, howned, hbelow⟩ := h
  exact .node (fun hfiller => absurd hfiller hnot) howned hbelow

/-- Comments and empty tokens fill no field, so it is enough to look at all others. -/
theorem holds (h : t.Fits g w source) (hw : ¬ g.IsFiller t → w.Holds source t) : w.Holds source t := by
  by_cases hfiller : g.IsFiller t
  · intro hfield
    cases h with
    | node hbare _ _ => cases (hbare hfiller).symm.trans hfield
  · exact hw hfiller

end Tree.Fits

variable [DecidableEq κ]

/-- A rule leads from a place of the source to another. -/
theorem isAt_of_run (h : g.run bound r c = some (c', xs)) (hc : c.IsAt source) : c'.IsAt source :=
  ((sound g bound).run _ _ _ _ h).isAt hc

/-! ## Reading nodes and fields -/

/-- A node is made of what was read; beside it stand comments. -/
theorem mem_close {kind : κ} {t : Tree κ φ} (h : t ∈ g.close kind xs) :
    (t ∈ xs ∧ t.kind = g.comment) ∨ ∃ start stop children, t = .node kind none start stop children ∧ children ⊆ xs := by
  unfold Table.close at h
  extract_lets isComment lead rest trail inner at h
  have hcomments : ∀ l : List (Tree κ φ), ∀ x ∈ l.takeWhile isComment, x ∈ l ∧ x.kind = g.comment := fun l x hx => by
    have hkind : isComment x = true := List.mem_takeWhile_imp hx
    exact ⟨(List.takeWhile_sublist _).subset hx, of_decide_eq_true hkind⟩
  have hrest : ∀ x ∈ rest, x ∈ xs := fun x hx => (List.dropWhile_sublist _).subset hx
  have htrail : ∀ x ∈ trail, x ∈ xs ∧ x.kind = g.comment := fun x hx => by
    obtain ⟨hmem, hkind⟩ := hcomments _ x (List.mem_reverse.mp hx)
    exact ⟨hrest x (List.mem_reverse.mp hmem), hkind⟩
  split at h
  · rename_i first last hfirst hlast
    rcases List.mem_append.mp h with h | h
    · exact .inl (hcomments xs t h)
    · rcases List.mem_cons.mp h with rfl | h
      · refine .inr ⟨_, _, _, rfl, fun x hx => ?_⟩
        exact hrest x (List.mem_of_mem_take (List.mem_filter.mp hx).1)
      · exact .inl (htrail t h)
  · rename_i hnone
    -- all that was read are comments
    have hinner : inner = [] := by
      by_contra hne
      exact hnone _ _ (List.head?_eq_some_head hne) (List.getLast?_eq_some_getLast hne)
    have hall : rest = trail := by
      have hlength : rest.length ≤ trail.length := by
        have := congrArg List.length hinner
        simp only [inner, List.length_take, List.length_nil] at this
        omega
      have hsuffix : trail <:+ rest :=
        List.reverse_prefix.mp (by rw [List.reverse_reverse]; exact List.takeWhile_prefix _)
      exact (hsuffix.eq_of_length_le hlength).symm
    have hxs : xs = lead ++ trail := by
      rw [← hall]
      exact (List.takeWhile_append_dropWhile).symm
    rw [hxs] at h
    exact .inl ((List.mem_append.mp h).elim (hcomments xs t) (htrail t))

theorem mem_label {f : φ} {t : Tree κ φ} (h : t ∈ g.label f xs) :
    (t ∈ xs ∧ g.IsFiller t) ∨ ∃ u ∈ xs, ¬ g.IsFiller u ∧ t = u.withField f := by
  obtain ⟨u, hu, rfl⟩ := List.mem_map.mp h
  by_cases hfiller : g.IsFiller u
  · have hkind : (decide (u.kind = g.comment) || decide (u.kind = g.empty)) = true := by simpa [Table.IsFiller] using hfiller
    rw [if_pos hkind]
    exact .inl ⟨hu, hfiller⟩
  · have hkind : ¬ (decide (u.kind = g.comment) || decide (u.kind = g.empty)) = true := by
      simpa [Table.IsFiller] using hfiller
    rw [if_neg hkind]
    exact .inr ⟨u, hu, hfiller, rfl⟩

/-! ## Rules that give trees of some kind -/

/-- Each of the trees that a rule reads in a source is a comment, an empty token, or as given. -/
def Gives (g : Table ν κ φ) (source : Text) (q : Tree κ φ → Prop) (r : Rule ν κ φ) : Prop :=
  ∀ bound c c' xs, c.IsAt source → g.run bound r c = some (c', xs) → ∀ t ∈ xs, ¬ g.IsFiller t → q t

namespace Gives

variable {q q' : Tree κ φ → Prop} {kind : κ} {f : φ} {scan : Text → Option Nat}

/-- It is enough to look at one step of the rule. -/
theorem of_step (h : ∀ bound c c' xs, c.IsAt source → g.Step bound c r c' xs → ∀ t ∈ xs, ¬ g.IsFiller t → q t) :
    Gives g source q r := by
  intro bound c c' xs hc hrun
  cases bound with
  | zero => cases hrun
  | succ bound => exact h bound c c' xs hc (run_succ_iff.mp hrun)

theorem done : Gives g source q .done := by
  refine of_step fun bound c c' xs hc hstep => ?_
  cases hstep
  exact List.forall_mem_nil _

theorem without : Gives g source q (.without r) := by
  refine of_step fun bound c c' xs hc hstep => ?_
  cases hstep
  exact List.forall_mem_nil _

theorem gap {accept : Text → Bool} : Gives g source q (.gap accept) := by
  refine of_step fun bound c c' xs hc hstep t ht hfiller => ?_
  cases hstep with
  | gap hseek => exact absurd (seek_fillers hseek t ht).2 hfiller

theorem leaf (h : ∀ c : Cursor, ∀ n, c.IsAt source → scan c.rest = some n →
    q (.node kind none c.place (c.advance n).place [])) : Gives g source q (.leaf kind scan) := by
  refine of_step fun bound c c' xs hc hstep t ht hfiller => ?_
  cases hstep with
  | leaf hskip hscan =>
    rcases List.mem_append.mp ht with ht | ht
    · exact absurd (skip_fillers hskip t ht).2 hfiller
    · rw [List.mem_singleton.mp ht]
      exact h _ _ ((skip_reads hskip).isAt hc) hscan

theorem call {symbol : ν} (h : Gives g source q (g.rule symbol)) : Gives g source q (.call symbol) := by
  refine of_step fun bound c c' xs hc hstep => ?_
  cases hstep with
  | call hrule => exact h bound _ _ _ hc hrule

theorem seq (h : Gives g source q r) (h' : Gives g source q r') : Gives g source q (.seq r r') := by
  refine of_step fun bound c c' xs hc hstep t ht => ?_
  cases hstep with
  | seq hfirst hsecond =>
    have hmid := isAt_of_run hfirst hc
    exact (List.mem_append.mp ht).elim (h bound _ _ _ hc hfirst t) (h' bound _ _ _ hmid hsecond t)

theorem alt (h : Gives g source q r) (h' : Gives g source q r') : Gives g source q (.alt r r') := by
  refine of_step fun bound c c' xs hc hstep => ?_
  cases hstep with
  | first hfirst => exact h bound _ _ _ hc hfirst
  | second _ hsecond => exact h' bound _ _ _ hc hsecond

/-- The induction is on the bound of the recursion, which the rest of the repetition is read with. -/
theorem many (h : Gives g source q r) : Gives g source q (.many r) := by
  intro bound
  induction bound with
  | zero =>
    intro c c' xs hc hrun
    cases hrun
  | succ bound ih =>
    intro c c' xs hc hrun t ht
    cases run_succ_iff.mp hrun with
    | stop _ => cases ht
    | more hbody _ hrest =>
      have hmid := isAt_of_run hbody hc
      exact (List.mem_append.mp ht).elim (h bound _ _ _ hc hbody t) (ih _ _ _ hmid hrest t)

/-- A node fills no field before it is given one. -/
theorem node (h : ∀ start stop children, q (.node kind none start stop children)) : Gives g source q (.node kind r) := by
  refine of_step fun bound c c' xs hc hstep t ht hfiller => ?_
  cases hstep with
  | node _ =>
    rcases mem_close ht with ⟨-, hcomment⟩ | ⟨start, stop, children, rfl, -⟩
    · exact absurd (.inl hcomment) hfiller
    · exact h start stop children

/-- What is read for a field. -/
theorem field (h : Gives g source q' r) (hq : ∀ t, q' t → q (t.withField f)) : Gives g source q (.field f r) := by
  refine of_step fun bound c c' xs hc hstep t ht hfiller => ?_
  cases hstep with
  | field hbody =>
    rcases mem_label ht with ⟨-, hnot⟩ | ⟨u, hu, hnot, rfl⟩
    · exact absurd hnot hfiller
    · exact hq u (h bound _ _ _ hc hbody u hu hnot)

end Gives

/-! ## Rules that keep a form -/

mutual

/-- The nodes that a rule makes: their kinds, and the rules for what is in them, which left-nested nodes do not have. -/
def Rule.nodes : Rule ν κ φ → List (κ × Option (Rule ν κ φ))
  | .seq first second => first.nodes ++ second.nodes
  | .alt first second => first.nodes ++ second.nodes
  | .many body => body.nodes
  | .node kind body => (kind, some body) :: body.nodes
  | .field _ body => body.nodes
  | .chain base tails => base.nodes ++ Tail.nodesOf tails
  | _ => []

/-- The nodes that some tails make. -/
def Tail.nodesOf : List (Tail ν κ φ) → List (κ × Option (Rule ν κ φ))
  | [] => []
  | .tail _ kind _ rest :: others => (kind, none) :: (rest.nodes ++ Tail.nodesOf others)

end

/-- Of some nodes, none of those that own the field is left-nested, and what is read for the field in one of them has the
form. -/
def Keep (g : Table ν κ φ) (w : FieldForm κ φ) (source : Text) (nodes : List (κ × Option (Rule ν κ φ))) : Prop :=
  ∀ n ∈ nodes, w.owns n.1 = true → ∃ body, n.2 = some body ∧ Gives g source (w.Holds source) body

theorem keep_append {ns ns' : List (κ × Option (Rule ν κ φ))} :
    Keep g w source (ns ++ ns') ↔ Keep g w source ns ∧ Keep g w source ns' := List.forall_mem_append

theorem keep_cons {n : κ × Option (Rule ν κ φ)} {ns : List (κ × Option (Rule ν κ φ))} :
    Keep g w source (n :: ns) ↔
      (w.owns n.1 = true → ∃ body, n.2 = some body ∧ Gives g source (w.Holds source) body) ∧ Keep g w source ns :=
  List.forall_mem_cons

/-- It is enough to look at the nodes that own the field. -/
theorem keep_of_filter {ns : List (κ × Option (Rule ν κ φ))} (h : Keep g w source (ns.filter (w.owns ·.1))) :
    Keep g w source ns :=
  fun n hn ho => h n (List.mem_filter.mpr ⟨hn, ho⟩) ho

/-- What rules read at a bound fits, and so does what tails make of trees that do. -/
structure Fitting (g : Table ν κ φ) (w : FieldForm κ φ) (source : Text) (bound : Nat) : Prop where
  run : ∀ (r : Rule ν κ φ) (c c' : Cursor) (xs : List (Tree κ φ)), Keep g w source r.nodes → c.IsAt source →
    g.run bound r c = some (c', xs) → ∀ t ∈ xs, t.Fits g w source
  extend : ∀ (tails others : List (Tail ν κ φ)) (m c' : Cursor) (xs ys : List (Tree κ φ)),
    Keep g w source (Tail.nodesOf tails) → Keep g w source (Tail.nodesOf others) → m.IsAt source → (∀ t ∈ xs, t.Fits g w source) →
    g.extend bound tails others m xs = some (c', ys) → ∀ t ∈ ys, t.Fits g w source

theorem fits_of_mem_label {f : φ} (h : ∀ t ∈ xs, t.Fits g w source) : ∀ t ∈ g.label f xs, t.Fits g w source := by
  intro t ht
  rcases mem_label ht with ⟨ht, -⟩ | ⟨u, hu, hnot, rfl⟩
  · exact h t ht
  · exact (h u hu).withField hnot

/-- A node fits if it does not own the field, or if what it is made of has the form there. -/
theorem fits_of_mem_close {kind : κ} (h : ∀ t ∈ xs, t.Fits g w source)
    (howned : w.owns kind = true → ∀ t ∈ xs, ¬ g.IsFiller t → w.Holds source t) :
    ∀ t ∈ g.close kind xs, t.Fits g w source := by
  intro t ht
  rcases mem_close ht with ⟨ht, -⟩ | ⟨start, stop, children, rfl, hsub⟩
  · exact h t ht
  · exact .node (fun _ => rfl) (fun ho u hu => (h u (hsub hu)).holds (howned ho u (hsub hu))) fun u hu => h u (hsub hu)

theorem fits_of_mem_leftPart (left : Option φ) (h : ∀ t ∈ xs, t.Fits g w source) :
    ∀ t ∈ g.leftPart left xs, t.Fits g w source := by
  cases left with
  | none => exact h
  | some f => exact fits_of_mem_label h

theorem Fitting.step (hg : Fitting g w source bound) (hrules : ∀ s, Keep g w source (g.rule s).nodes)
    (hr : Keep g w source r.nodes) (hc : c.IsAt source) (h : g.Step bound c r c' xs) : ∀ t ∈ xs, t.Fits g w source := by
  cases h with
  | done | check _ | stop _ | without _ => exact List.forall_mem_nil _
  | leaf hskip _ =>
    refine List.forall_mem_append.mpr ⟨fun t ht => .leaf (skip_fillers hskip t ht).1, ?_⟩
    exact List.forall_mem_singleton.mpr (.leaf ⟨_, _, _, rfl⟩)
  | tight _ => exact List.forall_mem_singleton.mpr (.leaf ⟨_, _, _, rfl⟩)
  | gap hseek => exact fun t ht => .leaf (seek_fillers hseek t ht).1
  | call hrule => exact hg.run _ _ _ _ (hrules _) hc hrule
  | seq hfirst hsecond =>
    obtain ⟨hkeep, hkeep'⟩ := keep_append.mp hr
    have hmid := isAt_of_run hfirst hc
    exact List.forall_mem_append.mpr ⟨hg.run _ _ _ _ hkeep hc hfirst, hg.run _ _ _ _ hkeep' hmid hsecond⟩
  | first hfirst => exact hg.run _ _ _ _ (keep_append.mp hr).1 hc hfirst
  | second _ hsecond => exact hg.run _ _ _ _ (keep_append.mp hr).2 hc hsecond
  | @more body _ _ _ _ hbody _ hrest =>
    have hmid := isAt_of_run hbody hc
    exact List.forall_mem_append.mpr ⟨hg.run body _ _ _ hr hc hbody, hg.run (.many body) _ _ _ hr hmid hrest⟩
  | node hbody =>
    obtain ⟨howned, hkeep⟩ := keep_cons.mp hr
    refine fits_of_mem_close (hg.run _ _ _ _ hkeep hc hbody) fun ho => ?_
    obtain ⟨body, hsome, hgives⟩ := howned ho
    cases hsome
    exact hgives _ _ _ _ hc hbody
  | @field _ body _ _ hbody => exact fits_of_mem_label (hg.run body _ _ _ hr hc hbody)
  | chain hbase htails =>
    obtain ⟨hkeep, hkeep'⟩ := keep_append.mp hr
    exact hg.extend _ _ _ _ _ _ hkeep' hkeep' (isAt_of_run hbase hc) (hg.run _ _ _ _ hkeep hc hbase) htails

theorem Fitting.extension (hg : Fitting g w source bound) {tails others : List (Tail ν κ φ)}
    (htails : Keep g w source (Tail.nodesOf tails)) (hothers : Keep g w source (Tail.nodesOf others)) (hm : m.IsAt source)
    (hx : ∀ t ∈ xs, t.Fits g w source) (h : g.Extension bound tails m xs others c' ys) :
    ∀ t ∈ ys, t.Fits g w source := by
  cases h with
  | done => exact hx
  | other _ hmore =>
    have hkeep := (keep_append.mp (keep_cons.mp hothers).2).2
    exact hg.extend _ _ _ _ _ _ htails hkeep hm hx hmore
  | more left _ hrest hmore =>
    obtain ⟨howned, hkeep⟩ := keep_cons.mp hothers
    have hright := hg.run _ _ _ _ (keep_append.mp hkeep).1 hm hrest
    have hall := List.forall_mem_append.mpr ⟨fits_of_mem_leftPart left hx, hright⟩
    -- A left-nested node owns no field.
    have hclose := fits_of_mem_close hall fun ho => by
      obtain ⟨_, hnone, -⟩ := howned ho
      cases hnone
    exact hg.extend _ _ _ _ _ _ htails htails (isAt_of_run hrest hm) hclose hmore

/-- **What fills a field has its form** if the rules of all symbols keep it. -/
theorem fitting (hrules : ∀ s, Keep g w source (g.rule s).nodes) (bound : Nat) : Fitting g w source bound := by
  induction bound with
  | zero =>
    constructor
    · intro _ _ _ _ _ _ h
      cases h
    · intro _ _ _ _ _ _ _ _ _ _ h
      cases h
  | succ bound ih =>
    constructor
    · intro _ _ _ _ hr hc h
      exact ih.step hrules hr hc (run_succ_iff.mp h)
    · intro _ _ _ _ _ _ htails hothers hm hx h
      exact ih.extension htails hothers hm hx (extend_succ_iff.mp h)

/-- The trees of a text fit. -/
theorem fits_of_parse {start : ν} (hrules : ∀ s, Keep g w source (g.rule s).nodes) (h : g.parse? start source = some xs) :
    ∀ t ∈ xs, t.Fits g w source := by
  obtain ⟨⟨last, read⟩, hread, rfl⟩ := Option.map_eq_some_iff.mp h
  have hstart : Cursor.IsAt source ⟨source, {}⟩ := rfl
  exact (fitting hrules _).run _ _ _ _ (hrules start) hstart hread

end SourceDoc.Grammar
