import SourceDoc.Page.Markdown
import SourceDoc.Proofs.Page.Lint
import SourceDoc.Proofs.Table
import SourceDoc.Proofs.Text.Decimal
import SourceDoc.Proofs.Text.Pattern

/-!
# The links of a table of contents

A heading is read off its own line, and off the number of fences above it (`headings_eq`).  Its anchor is its slug,
numbered by the headings with the same slug above it (`anchors_eq`):

    a, a, b, a   ↦   a, a-1, b, a-2

Numbers tell the headings with one slug apart, and from the headings with another slug, unless that is itself the first
slug with one of the numbers: of the headings a, a and a-1 the last two have one anchor (`nodup_anchors_iff`).
-/

namespace SourceDoc.Markdown

open Text

/-! ## Headings -/

/-- The heading on a line of some lines, if it is not between fences. -/
def headingAt? (ls : List Text) (i : Nat) : Option Heading :=
  if endsInCode ((ls.take i).map strip) then none else ls[i]?.bind fun line => heading? (strip line)

/-- Two or three marks, blanks and the title. -/
theorem heading_eq_some_iff (line : Text) (h : Heading) : heading? line = some h ↔ (h.level = 2 ∨ h.level = 3) ∧
    ∃ gap rest, gap ≠ [] ∧ isBlankText gap = true ∧ line = List.replicate h.level '#' ++ (gap ++ rest) ∧
      h.title = strip rest := by
  constructor
  · intro hline
    simp only [heading?] at hline
    split at hline
    · next hlevel =>
      obtain ⟨rest, hrest, rfl⟩ := Option.map_eq_some_iff.mp hline
      refine ⟨hlevel, ?_⟩
      have hmarks : line.takeWhile (· = '#') = List.replicate (line.takeWhile (· = '#')).length '#' :=
        List.eq_replicate_of_mem fun c hc => by simpa using List.mem_takeWhile_imp hc
      have hfront : line.take (line.takeWhile (· = '#')).length = line.takeWhile (· = '#') :=
        (List.prefix_iff_eq_take.mp (List.takeWhile_prefix _)).symm
      have hsplit := List.take_append_drop (line.takeWhile (· = '#')).length line
      rw [hfront] at hsplit
      generalize line.drop (line.takeWhile (· = '#')).length = back at hrest hsplit
      cases back with
      | nil => cases hrest
      | cons c back =>
        rw [afterBlanks?] at hrest
        split at hrest
        · next hc =>
          cases hrest
          have hback : back.takeWhile isBlank ++ stripLeft back = back := List.takeWhile_append_dropWhile
          refine ⟨c :: back.takeWhile isBlank, stripLeft back, List.cons_ne_nil _ _, ?_, ?_, rfl⟩
          · exact List.all_cons.trans (by rw [hc, Bool.true_and]; exact List.all_takeWhile)
          · rw [← hmarks, List.cons_append, hback, hsplit]
        · cases hrest
    · cases hline
  · rintro ⟨hlevel, gap, rest, hne, hgap, rfl, htitle⟩
    obtain ⟨c, gap, rfl⟩ := List.exists_cons_of_ne_nil hne
    obtain ⟨hc, hgap⟩ : isBlank c = true ∧ isBlankText gap = true := by
      simpa [isBlankText] using hgap
    have hmark : c ≠ '#' := by
      rintro rfl
      cases hc
    have htake : (List.replicate h.level '#' ++ (c :: gap ++ rest)).takeWhile (· = '#') =
        List.replicate h.level '#' := by
      rw [List.takeWhile_append_of_pos (by simp), List.cons_append, List.takeWhile_cons_of_neg (by simpa using hmark),
        List.append_nil]
    have hleft : stripLeft (stripLeft rest) = stripLeft rest :=
      (dropLeft_eq_self_iff isBlank _).mpr (head_dropLeft isBlank rest)
    have hstrip : strip (stripLeft rest) = strip rest := congrArg stripRight hleft
    simp only [heading?]
    rw [htake, List.length_replicate, if_pos hlevel, List.drop_left' List.length_replicate, List.cons_append,
      afterBlanks?, if_pos hc, stripLeft_blank_append rest hgap, Option.map_some, hstrip, ← htitle]

theorem heading_of_not_mark {line : Text} (h : ∀ c ∈ line.head?, c ≠ '#') : heading? line = none := by
  refine Option.eq_none_iff_forall_ne_some.mpr fun heading hline => ?_
  obtain ⟨hlevel, gap, rest, -, -, rfl, -⟩ := (heading_eq_some_iff line heading).mp hline
  refine h '#' ?_ rfl
  rcases hlevel with hlevel | hlevel <;> rw [hlevel] <;> rfl

/-- Marks, a space and a title make a heading of the table if there are two or three of them. -/
theorem heading_marks (n : Nat) (title : Text) : heading? (List.replicate n '#' ++ ' ' :: title) =
    if n = 2 ∨ n = 3 then some ⟨n, strip title⟩ else none := by
  split
  · next hn =>
    exact (heading_eq_some_iff _ ⟨n, strip title⟩).mpr ⟨hn, [' '], title, List.cons_ne_nil _ _, rfl, rfl, rfl⟩
  · next hn =>
    have htake : (List.replicate n '#' ++ ' ' :: title).takeWhile (· = '#') = List.replicate n '#' := by
      rw [List.takeWhile_append_of_pos (by simp), List.takeWhile_cons_of_neg (by decide), List.append_nil]
    simp only [heading?]
    rw [htake, List.length_replicate, if_neg hn]

/-- Between fences there are no headings, and a fence is none. -/
theorem headingsFrom_eq (before ls : List Text) : headingsFrom (endsInCode (before.map strip)) ls =
    (List.range' before.length ls.length).filterMap (headingAt? (before ++ ls)) := by
  induction ls generalizing before with
  | nil => rfl
  | cons line ls ih =>
    have ih := ih (before ++ [line])
    rw [List.map_append, List.map_singleton, endsInCode_concat, List.append_assoc, List.singleton_append,
      List.length_append, List.length_singleton] at ih
    have hat : headingAt? (before ++ line :: ls) before.length =
        if endsInCode (before.map strip) then none else heading? (strip line) := by
      unfold headingAt?
      rw [List.take_left' rfl, List.getElem?_append_right (Nat.le_refl _), Nat.sub_self]
      rfl
    rw [List.length_cons, List.range'_succ, List.filterMap_cons, hat, ← ih, headingsFrom]
    cases hfence : startsWith (strip line) fence with
    | true =>
      have hnone : heading? (strip line) = none := by
        obtain ⟨rest, hrest⟩ := List.isPrefixOf_iff_prefix.mp hfence
        rw [← hrest]
        exact heading_of_not_mark (by simp [fence])
      rw [if_pos rfl, hnone, ite_self, show isFence (strip line) = true from hfence, Bool.xor_true]
    | false =>
      rw [if_neg Bool.false_ne_true, show isFence (strip line) = false from hfence, Bool.xor_false]
      cases hcode : endsInCode (before.map strip) with
      | true => rfl
      | false => cases heading? (strip line) <;> rfl

/-- **The headings of a page stand on lines of their own outside code.** -/
theorem headings_eq (page : Text) : headings page =
    (List.range (boundaryLines page).length).filterMap (headingAt? (boundaryLines page)) := by
  rw [List.range_eq_range']
  exact headingsFrom_eq [] (boundaryLines page)

/-! ## Headings among lines -/

/-- A line that is no heading of the table and no fence. -/
structure IsPlain (line : Text) : Prop where
  heading : heading? (strip line) = none
  fence : startsWith (strip line) fence = false

/-- A text that is no heading. -/
def IsParagraph (t : Text) : Prop := ∀ c ∈ (strip t).head?, c ≠ '#'

/-- A text that can be the title of a heading as it is. -/
structure IsTitle (t : Text) : Prop where
  isLine : IsLine t
  stripped : strip t = t
  ne_nil : t ≠ []

instance (t : Text) : Decidable (IsTitle t) :=
  decidable_of_iff (IsLine t ∧ strip t = t ∧ t ≠ [])
    ⟨fun ⟨hline, hstrip, hne⟩ => ⟨hline, hstrip, hne⟩, fun h => ⟨h.isLine, h.stripped, h.ne_nil⟩⟩

/-- Some lines have some headings where they stand outside code. -/
structure Lists (ls : List Text) (hs : List Heading) : Prop where
  isLine : ∀ line ∈ ls, IsLine line
  headings : ∀ rest, headingsFrom false (ls ++ rest) = hs ++ headingsFrom false rest

section

variable {ls ls' : List Text} {hs hs' : List Heading} {line t language : Text} {c : Char}

theorem Lists.nil : Lists [] [] := ⟨List.forall_mem_nil _, fun _ => rfl⟩

theorem Lists.append (h : Lists ls hs) (h' : Lists ls' hs') : Lists (ls ++ ls') (hs ++ hs') where
  isLine := List.forall_mem_append.mpr ⟨h.isLine, h'.isLine⟩
  headings rest := by rw [List.append_assoc, h.headings, h'.headings, List.append_assoc]

/-- Lines without headings. -/
theorem Lists.then (h : Lists ls hs) (h' : Lists ls' []) : Lists (ls ++ ls') hs := by
  have := h.append h'
  rwa [List.append_nil] at this

theorem Lists.cons (hline : IsLine line) (hplain : IsPlain line) (h : Lists ls hs) : Lists (line :: ls) hs where
  isLine := List.forall_mem_cons.mpr ⟨hline, h.isLine⟩
  headings rest := by
    rw [List.cons_append, headingsFrom, hplain.fence, hplain.heading, h.headings]
    rfl

theorem Lists.singleton (hline : IsLine line) (hplain : IsPlain line) : Lists [line] [] := .cons hline hplain .nil

theorem Lists.of_plain (h : ∀ line ∈ ls, IsLine line ∧ IsPlain line) : Lists ls [] := by
  induction ls with
  | nil => exact .nil
  | cons line ls ih =>
    obtain ⟨⟨hline, hplain⟩, hls⟩ := List.forall_mem_cons.mp h
    exact .cons hline hplain (ih hls)

theorem Lists.flatMap {α : Type} {f : α → List Text} {g : α → List Heading} {l : List α}
    (h : ∀ a ∈ l, Lists (f a) (g a)) : Lists (l.flatMap f) (l.flatMap g) := by
  induction l with
  | nil => exact .nil
  | cons a l ih =>
    obtain ⟨ha, hl⟩ := List.forall_mem_cons.mp h
    exact ha.append (ih hl)

theorem Lists.flatMap_silent {α : Type} {f : α → List Text} {l : List α} (h : ∀ a ∈ l, Lists (f a) []) :
    Lists (l.flatMap f) [] := by
  have := Lists.flatMap h
  rwa [List.flatMap_eq_nil_iff.mpr fun _ _ => rfl] at this

theorem Lists.heading {n : Nat} {title : Text} (hn : n ≠ 0) (htitle : IsTitle title) (h : Lists ls hs) :
    Lists ((List.replicate n '#' ++ ' ' :: title) :: ls)
      ((if n = 2 ∨ n = 3 then [⟨n, title⟩] else []) ++ hs) where
  isLine := by
    refine List.forall_mem_cons.mpr ⟨?_, h.isLine⟩
    exact isLine_append.mpr ⟨fun c hc => by rw [List.eq_of_mem_replicate hc]; rfl, isLine_cons.mpr ⟨rfl, htitle.isLine⟩⟩
  headings rest := by
    have hstrip : strip (List.replicate n '#' ++ ' ' :: title) = List.replicate n '#' ++ ' ' :: title := by
      have hmarks : strip (List.replicate n '#') = List.replicate n '#' := by
        refine (strip_eq_self_iff _).mpr ⟨fun c hc => ?_, fun c hc => ?_⟩
        · rw [List.eq_of_mem_replicate (List.mem_of_head? hc)]
          rfl
        · rw [List.eq_of_mem_replicate (List.mem_of_getLast? hc)]
          rfl
      have := strip_append_self hmarks (by simpa using hn) htitle.stripped htitle.ne_nil [' ']
      rwa [List.append_assoc] at this
    have hfence : startsWith (List.replicate n '#' ++ ' ' :: title) fence = false := by
      obtain ⟨m, rfl⟩ := Nat.exists_eq_succ_of_ne_zero hn
      rfl
    rw [List.cons_append, headingsFrom, hstrip, hfence, heading_marks, h.headings, htitle.stripped]
    by_cases hlevel : n = 2 ∨ n = 3
    · rw [if_pos hlevel, if_pos hlevel]
      rfl
    · rw [if_neg hlevel, if_neg hlevel]
      rfl

/-! ## Plain lines -/

theorem IsPlain.of_head (h : ∀ c ∈ (strip line).head?, c ≠ '#' ∧ c ≠ '\x60') : IsPlain line where
  heading := heading_of_not_mark fun c hc => (h c hc).1
  fence := by
    rw [← Bool.not_eq_true]
    intro hfence
    obtain ⟨rest, hrest⟩ := List.isPrefixOf_iff_prefix.mp hfence
    rw [← hrest] at h
    exact (h '\x60' rfl).2 rfl

theorem isPlain_nil : IsPlain [] := ⟨rfl, rfl⟩

theorem IsPlain.blank_append {gap : Text} (hgap : isBlankText gap = true) (h : IsPlain line) :
    IsPlain (gap ++ line) where
  heading := by rw [strip_blank_append line hgap, h.heading]
  fence := by rw [strip_blank_append line hgap, h.fence]

/-- A line that starts with neither a mark nor a quote nor a blank is plain. -/
theorem isPlain_front {front : Text} (h : front.head?.any (fun c => !isBlank c && c ≠ '#' && c ≠ '\x60') = true)
    (rest : Text) : IsPlain (front ++ rest) := by
  cases front with
  | nil => cases h
  | cons c front =>
    obtain ⟨⟨hblank, hmark⟩, hquote⟩ : (isBlank c = false ∧ c ≠ '#') ∧ c ≠ '\x60' := by simpa using h
    have hc : strip [c] = [c] := (strip_eq_self_iff [c]).mpr (by simpa using hblank)
    have hstrip : strip ([c] ++ (front ++ rest)) = [c] ++ stripRight (front ++ rest) :=
      strip_append_right hc (List.cons_ne_nil _ _) _
    refine .of_head ?_
    rw [List.cons_append, ← List.singleton_append, hstrip]
    rintro d hd
    cases hd
    exact ⟨hmark, hquote⟩

theorem isPlain_paragraph (hquote : '\x60' ∉ t) (ht : IsParagraph t) : IsPlain t := by
  refine .of_head fun c hc => ⟨ht c hc, ?_⟩
  rintro rfl
  exact hquote ((strip_within t).subset (List.mem_of_head? hc))

theorem strip_code (t : Text) : strip (code t) = code t := by
  refine (strip_eq_self_iff _).mpr ⟨fun c hc => ?_, fun c hc => ?_⟩
  · cases hc
    rfl
  · rw [code, ← List.cons_append, List.getLast?_concat] at hc
    cases hc
    rfl

theorem isLine_code (h : IsLine t) : IsLine (code t) :=
  isLine_cons.mpr ⟨rfl, isLine_append.mpr ⟨h, by decide⟩⟩

theorem isTitle_code (h : IsLine t) : IsTitle (code t) := ⟨isLine_code h, strip_code t, List.cons_ne_nil _ _⟩

theorem isPlain_code_append {rest : Text} (ht : '\x60' ∉ t) (hrest : ∀ c ∈ rest.head?, c ≠ '\x60') :
    IsPlain (code t ++ rest) := by
  have hstrip : strip (code t ++ rest) = code t ++ stripRight rest :=
    strip_append_right (strip_code t) (List.cons_ne_nil _ _) rest
  refine ⟨heading_of_not_mark ?_, ?_⟩
  · rw [hstrip]
    rintro c hc
    cases hc
    decide
  · rw [hstrip, ← Bool.not_eq_true]
    intro hfence
    have hfence : fence <+: '\x60' :: (t ++ ['\x60'] ++ stripRight rest) := List.isPrefixOf_iff_prefix.mp hfence
    have hinner := (List.cons_prefix_cons.mp hfence).2
    cases t with
    | nil =>
      obtain ⟨more, hmore⟩ := (List.cons_prefix_cons.mp hinner).2
      obtain ⟨tail, htail⟩ := stripRight_within rest
      refine hrest '\x60' ?_ rfl
      rw [← htail, show stripRight rest = _ from hmore.symm]
      rfl
    | cons c t =>
      cases (List.cons_prefix_cons.mp hinner).1
      exact ht List.mem_cons_self

theorem isPlain_code (ht : '\x60' ∉ t) : IsPlain (code t) := by
  have := isPlain_code_append ht (show ∀ c ∈ List.head? [], c ≠ '\x60' from nofun)
  rwa [List.append_nil] at this

theorem Lists.fenced (hlanguage : IsLine language) (hline : IsLine t) (hquote : '\x60' ∉ t) :
    Lists (fenced language t) [] where
  isLine := by
    simp only [Markdown.fenced, List.forall_mem_cons]
    exact ⟨isLine_append.mpr ⟨by decide, hlanguage⟩, hline, by decide, isLine_nil, List.forall_mem_nil _⟩
  headings rest := by
    have hopening : startsWith (strip (fence ++ language)) fence = true := by
      rw [strip_append_right (by decide) (by decide)]
      exact List.isPrefixOf_iff_prefix.mpr (List.prefix_append _ _)
    have hcode : startsWith (strip t) fence = false := by
      rw [← Bool.not_eq_true]
      intro hfence
      obtain ⟨more, hmore⟩ := List.isPrefixOf_iff_prefix.mp hfence
      refine hquote ((strip_within t).subset ?_)
      rw [← hmore]
      exact List.mem_cons_self
    simp only [Markdown.fenced, List.cons_append, List.nil_append, headingsFrom, hopening, hcode, if_true]
    rfl

end

/-! ## Anchors -/

/-- A slug with a number, unless that is zero. -/
def numbered (s : Text) (k : Nat) : Text := if k = 0 then s else s ++ '-' :: ofNat k

/-- The slugs of some headings. -/
def slugs (hs : List Heading) : List Text := hs.map fun h => slug h.title

theorem anchorsFrom_eq (before : List Text) (hs : List Heading) {seen : List (Text × Nat)}
    (hseen : ∀ s, (Table.get? s seen).getD 0 = before.count s) :
    anchorsFrom seen hs = (slugs hs).mapIdx fun i s => numbered s ((before ++ (slugs hs).take i).count s) := by
  induction hs generalizing before seen with
  | nil => rfl
  | cons h hs ih =>
    have hnext : ∀ s, (Table.get? s (Table.put (slug h.title) (before.count (slug h.title) + 1) seen)).getD 0 =
        (before ++ [slug h.title]).count s := by
      intro s
      rw [Table.get_put, List.count_append, List.count_singleton]
      by_cases hs : slug h.title = s
      · rw [if_pos hs, if_pos (beq_iff_eq.mpr hs), hs]
        rfl
      · rw [if_neg hs, if_neg (by simpa using hs), hseen]
        rfl
    rw [anchorsFrom, slugs, List.map_cons, List.mapIdx_cons, hseen, ih _ hnext, List.take_zero, List.append_nil]
    refine congrArg _ (congrArg (List.mapIdx · _) (funext fun i => funext fun s => ?_))
    exact congrArg (fun before => numbered s (before.count s)) (List.append_cons _ _ _).symm

/-- **An anchor is a slug with the number of headings above that have it.** -/
theorem anchors_eq (hs : List Heading) :
    anchors hs = (slugs hs).mapIdx fun i s => numbered s (((slugs hs).take i).count s) :=
  anchorsFrom_eq [] hs fun _ => rfl

theorem ofNat_injective : Function.Injective ofNat := by
  intro k k' h
  rw [← ofDigits_ofNat k, h, ofDigits_ofNat]

theorem not_mem_ofNat (k : Nat) : '-' ∉ ofNat k := fun h => absurd (ofNat_digits k _ h) (by decide)

/-- Slugs with numbers are the same only if both are. -/
theorem numbered_inj {s s' : Text} {k k' : Nat} (hk : k ≠ 0) (hk' : k' ≠ 0) (h : numbered s k = numbered s' k') :
    s = s' ∧ k = k' := by
  rw [numbered, numbered, if_neg hk, if_neg hk'] at h
  have hcut := breakLast_append (not_mem_ofNat k) s
  rw [h, breakLast_append (not_mem_ofNat k') s'] at hcut
  obtain ⟨hs, hdigits⟩ := Prod.mk.inj (Option.some.inj hcut)
  exact ⟨hs.symm, (ofNat_injective hdigits).symm⟩

theorem numbered_ne {k : Nat} (hk : k ≠ 0) (s : Text) : numbered s k ≠ s := by
  rw [numbered, if_neg hk]
  intro h
  have := congrArg List.length h
  simp at this

section

variable {α : Type} [BEq α] [LawfulBEq α]

/-- Where an element has occurred some times before, it occurs again as long as there are more of it. -/
theorem exists_count_take {a : α} {k : Nat} {l : List α} (h : k < l.count a) :
    ∃ i, ∃ hi : i < l.length, l[i] = a ∧ (l.take i).count a = k := by
  induction l generalizing k with
  | nil => cases h
  | cons b l ih =>
    by_cases hb : b = a
    · subst hb
      rw [List.count_cons_self] at h
      cases k with
      | zero => exact ⟨0, Nat.succ_pos _, rfl, rfl⟩
      | succ k =>
        obtain ⟨i, hi, hget, hcount⟩ := ih (Nat.lt_of_succ_lt_succ h)
        refine ⟨i + 1, Nat.succ_lt_succ hi, hget, ?_⟩
        rw [List.take_succ_cons, List.count_cons_self, hcount]
    · rw [List.count_cons_of_ne hb] at h
      obtain ⟨i, hi, hget, hcount⟩ := ih h
      refine ⟨i + 1, Nat.succ_lt_succ hi, hget, ?_⟩
      rw [List.take_succ_cons, List.count_cons_of_ne hb, hcount]

/-- An element that occurs at a place has occurred once more after it. -/
theorem count_take_lt {l : List α} {i j : Nat} (hi : i < l.length) (hij : i < j) :
    (l.take i).count l[i] < (l.take j).count l[i] := by
  have hsublist : (l.take (i + 1)).Sublist (l.take j) := List.take_sublist_take_left hij
  have hle := hsublist.count_le l[i]
  rw [List.take_succ_eq_append_getElem hi, List.count_append, List.count_singleton_self] at hle
  exact hle

end

/-- **The anchors differ unless a slug is another one with the number of one of its headings.** -/
theorem nodup_anchors_iff (hs : List Heading) :
    (anchors hs).Nodup ↔ ∀ s k, 0 < k → k < (slugs hs).count s → numbered s k ∉ slugs hs := by
  generalize hss : slugs hs = ss
  have hget : ∀ {i} (hi : i < ss.length) (hi' : i < (anchors hs).length),
      (anchors hs)[i] = numbered ss[i] ((ss.take i).count ss[i]) := by
    intro i hi hi'
    subst hss
    simp [anchors_eq]
  have hlength : (anchors hs).length = ss.length := by rw [anchors_eq, List.length_mapIdx, hss]
  constructor
  · intro hnodup s k hk hcount hmem
    obtain ⟨i, hi, hslug, hbefore⟩ := exists_count_take hcount
    obtain ⟨j, hj, hother, hfirst⟩ := exists_count_take (List.count_pos_iff.mpr hmem)
    have hi' : i < (anchors hs).length := hlength ▸ hi
    have hj' : j < (anchors hs).length := hlength ▸ hj
    have hsame : (anchors hs)[i] = (anchors hs)[j] := by
      rw [hget hi, hget hj, hslug, hother, hbefore, hfirst, numbered, numbered, if_pos rfl]
    cases (hnodup.getElem_inj_iff).mp hsame
    exact numbered_ne (Nat.pos_iff_ne_zero.mp hk) s (hother.symm.trans hslug)
  · intro hfree
    refine List.pairwise_iff_getElem.mpr fun i j hi hj hij hsame => ?_
    rw [hlength] at hi hj
    rw [hget hi, hget hj] at hsame
    have hbound : ∀ {n} (hn : n < ss.length), (ss.take n).count ss[n] < ss.count ss[n] := fun hn => by
      have := count_take_lt hn hn
      rwa [List.take_length] at this
    have hlt := count_take_lt hi hij
    by_cases hfirst : (ss.take i).count ss[i] = 0
    · by_cases hfirst' : (ss.take j).count ss[j] = 0
      · rw [numbered, numbered, if_pos hfirst, if_pos hfirst'] at hsame
        rw [hsame, hfirst'] at hlt
        exact Nat.not_lt_zero _ hlt
      · refine hfree ss[j] _ (Nat.pos_of_ne_zero hfirst') (hbound hj) ?_
        rw [← hsame, numbered, if_pos hfirst]
        exact List.getElem_mem hi
    · by_cases hfirst' : (ss.take j).count ss[j] = 0
      · refine hfree ss[i] _ (Nat.pos_of_ne_zero hfirst) (hbound hi) ?_
        rw [hsame, numbered, if_pos hfirst']
        exact List.getElem_mem hj
      · obtain ⟨hs, hcount⟩ := numbered_inj hfirst hfirst' hsame
        rw [hcount, hs] at hlt
        exact Nat.lt_irrefl _ hlt

/-! ## Pages -/

/-- **What stands in the place of the mark, and when every link of it has an anchor of its own.** -/
theorem addContents_anchors {page : Text} (h : contains page contentsMark = true) :
    ∃ front back, page = front ++ contentsMark ++ back ∧
      (∀ front' back', page = front' ++ contentsMark ++ back' → front.length ≤ front'.length) ∧
      addContents page = front ++ (if headings page = [] then [] else joinLines ("## Table of Contents".toList :: [] ::
        List.zipWith contentsLine (headings page) (anchors (headings page)))) ++ back ∧
      headings page = (List.range (boundaryLines page).length).filterMap (headingAt? (boundaryLines page)) ∧
      anchors (headings page) =
        (slugs (headings page)).mapIdx (fun i s => numbered s (((slugs (headings page)).take i).count s)) ∧
      ((anchors (headings page)).Nodup ↔ ∀ s k, 0 < k → k < (slugs (headings page)).count s →
        numbered s k ∉ slugs (headings page)) := by
  obtain ⟨⟨front, back⟩, hbreak⟩ := Option.isSome_iff_exists.mp h
  refine ⟨front, back, eq_of_breakOn hbreak, fun _ _ => length_le_of_breakOn hbreak, ?_, headings_eq page,
    anchors_eq _, nodup_anchors_iff _⟩
  rw [addContents, replaceFirst, hbreak, contents]

/-- Two headings with a slug and its number. -/
theorem addContents_two : contains "<!-- autodocs:toc -->\n\n## a\n\n## a\n".toList contentsMark = true ∧
    ∃ front back, "<!-- autodocs:toc -->\n\n## a\n\n## a\n".toList = front ++ contentsMark ++ back ∧
      addContents "<!-- autodocs:toc -->\n\n## a\n\n## a\n".toList =
        front ++ "## Table of Contents\n\n- [a](#a)\n- [a](#a-1)".toList ++ back := by
  have hchars : "<!-- autodocs:toc -->\n\n## a\n\n## a\n".toList = _ := String.toList_ofList
  have hmark : contains "<!-- autodocs:toc -->\n\n## a\n\n## a\n".toList contentsMark = true := by
    rw [hchars]
    decide +kernel
  obtain ⟨front, back, hpage, -, hcontents, -⟩ := addContents_anchors hmark
  refine ⟨hmark, front, back, hpage, hcontents.trans (congrArg (front ++ · ++ back) ?_)⟩
  rw [hchars]
  decide +kernel

/-- Three headings with two anchors. -/
theorem anchors_repeated : contains "<!-- autodocs:toc -->\n\n## a\n\n## a\n\n## a-1\n".toList contentsMark = true ∧
    addContents "<!-- autodocs:toc -->\n\n## a\n\n## a\n\n## a-1\n".toList =
      "## Table of Contents\n\n- [a](#a)\n- [a](#a-1)\n- [a-1](#a-1)\n\n## a\n\n## a\n\n## a-1\n".toList ∧
    ¬ (anchors (headings "<!-- autodocs:toc -->\n\n## a\n\n## a\n\n## a-1\n".toList)).Nodup := by
  show contains (String.ofList _).toList contentsMark = true ∧
    addContents (String.ofList _).toList = (String.ofList _).toList ∧
    ¬ (anchors (headings (String.ofList _).toList)).Nodup
  simp only [String.toList_ofList]
  decide +kernel

end SourceDoc.Markdown
