import SourceDoc.Braced.Function
import SourceDoc.Proofs.Text.Split

/-!
# Lists of parameters and results

The list between the brackets of a signature has the items between its commas outside brackets (`isListOf_split`).
Where an item names a parameter, the names in front of it have its type; else all items are types
(`parametersOf_read`).  A result in brackets is the list in them (`resultType_read`).
-/

namespace SourceDoc.Braced

open Text

/-! ## Lists -/

/-- The items of a list: its pieces between commas outside brackets, without the blanks around them; an item has more
than blanks. -/
def IsListOf (t : Text) (items : List Text) : Prop :=
  ∃ pieces : List Text, t = joinWith [','] pieces ∧ (∀ piece ∈ pieces, openAfter [','] 0 piece = some 0) ∧
    items = pieces.filterMap stripped?

/-- A character that separates nothing changes no more than how many brackets are open. -/
theorem openAfter_next {c : Char} (hc : isQuote c = false) {depth depth' : Nat} {t : Text}
    (hsep : ¬ ({ depth } : Nesting).separates ',' c = true) (h : openAfter [] depth (c :: t) = some depth') :
    ∃ next, ({ depth } : Nesting).next c = { depth := next } ∧ openAfter [] next t = some depth' ∧
      ∀ u, openAfter [','] depth (c :: u) = openAfter [','] next u := by
  have hplain : ({ depth } : Nesting).next c = ({ depth } : Nesting).nextPlain c := rfl
  rw [hplain, Nesting.nextPlain, if_neg (by simp [hc])]
  rw [openAfter] at h
  by_cases hopen : isOpening c = true
  · rw [if_pos hopen] at h
    exact ⟨depth + 1, if_pos hopen, h, fun u => by rw [openAfter, if_pos hopen]⟩
  · rw [if_neg hopen] at h ⊢
    by_cases hclose : isClosing c = true
    · rw [if_pos hclose] at h
      by_cases hdepth : depth = 0
      · rw [if_pos hdepth] at h
        cases h
      · rw [if_neg hdepth] at h
        exact ⟨depth - 1, if_pos hclose, h, fun u => by rw [openAfter, if_neg hopen, if_pos hclose, if_neg hdepth]⟩
    · rw [if_neg hclose, if_neg (by simp)] at h
      refine ⟨depth, if_neg hclose, h, fun u => ?_⟩
      rw [openAfter, if_neg hopen, if_neg hclose, if_neg]
      rintro ⟨hdepth, hcomma⟩
      rw [List.mem_singleton] at hcomma
      exact hsep (by simp [Nesting.separates, Nesting.isTop, hdepth, hcomma, isQuote, isOpening])

/-- The pieces of a text that closes all brackets close those that they open. -/
theorem balanced_pieces {t : Text} (hquote : ∀ c ∈ t, isQuote c = false) {depth : Nat}
    (h : openAfter [] depth t = some 0) :
    ∃ first more, piecesFrom ',' { depth } t = first :: more ∧ openAfter [','] depth first = some 0 ∧
      ∀ piece ∈ more, openAfter [','] 0 piece = some 0 := by
  induction t generalizing depth with
  | nil =>
    cases h
    exact ⟨[], [], rfl, rfl, List.forall_mem_nil _⟩
  | cons c t ih =>
    obtain ⟨hc, ht⟩ := List.forall_mem_cons.mp hquote
    rw [piecesFrom]
    by_cases hsep : ({ depth } : Nesting).separates ',' c = true
    · have hdepth : depth = 0 ∧ c = ',' := by
        unfold Nesting.separates Nesting.isTop at hsep
        simp only [Bool.and_eq_true, decide_eq_true_eq] at hsep
        exact ⟨hsep.1.1.1.2, hsep.1.1.2⟩
      obtain ⟨rfl, rfl⟩ := hdepth
      have hrest : openAfter [] 0 t = some 0 := h
      obtain ⟨first, more, hpieces, hfirst, hmore⟩ := ih ht hrest
      rw [if_pos hsep, hpieces]
      exact ⟨[], first :: more, rfl, rfl, List.forall_mem_cons.mpr ⟨hfirst, hmore⟩⟩
    · rw [if_neg hsep]
      obtain ⟨next, hnext, htail, hhead⟩ := openAfter_next hc hsep h
      obtain ⟨first, more, hpieces, hfirst, hmore⟩ := ih ht htail
      rw [hnext, hpieces]
      exact ⟨c :: first, more, rfl, (hhead first).trans hfirst, hmore⟩

/-- **A text without quotes that closes all its brackets is split into the items of a list.** -/
theorem isListOf_split {t : Text} (hquote : ∀ c ∈ t, isQuote c = false) (h : openAfter [] 0 t = some 0) :
    IsListOf t (splitTopLevel ',' t) := by
  obtain ⟨first, more, hpieces, hfirst, hmore⟩ := balanced_pieces hquote h
  refine ⟨piecesFrom ',' {} t, (joinWith_pieces ',' {} t).symm, ?_, rfl⟩
  rw [hpieces]
  exact List.forall_mem_cons.mpr ⟨hfirst, hmore⟩

/-! ## Parameters -/

/-- An item gives a type to a parameter with a name; a word that begins a type is no name. -/
structure NamesType (item name type : Text) : Prop where
  named : isIdentifier name = true
  word : name ∉ typeWords
  type_ne : type ≠ []
  type_stripped : strip type = type
  item_eq : ∃ gap, gap ≠ [] ∧ isBlankText gap = true ∧ item = name ++ gap ++ type

/-- The item gives no parameter a type. -/
def IsLone (item : Text) : Prop := ∀ name type, ¬ NamesType item name type

/-- Parameters in groups: the names in front of an item with a type have that type, and names at the end have none. -/
inductive IsGrouped : List Text → List Parameter → Prop where
  | untyped (names : List Text) (h : ∀ name ∈ names, IsLone name) :
    IsGrouped names (names.map fun name => { name := name })
  | group (names : List Text) (item name type : Text) (rest : List Text) (ps : List Parameter)
      (hnames : ∀ name ∈ names, IsLone name) (hitem : NamesType item name type) (hrest : IsGrouped rest ps) :
    IsGrouped (names ++ item :: rest) ((names ++ [name]).map (fun n => { name := n, type := some type }) ++ ps)

/-- The parameters that some items declare. -/
inductive Declares (items : List Text) : List Parameter → Prop where
  | named (ps : List Parameter) (h : ∃ item ∈ items, ¬ IsLone item) (hps : IsGrouped items ps) : Declares items ps
  /-- All items are types. -/
  | types (h : ∀ item ∈ items, IsLone item) :
    Declares items (items.map fun type => { name := ['_'], type := some type })

theorem namedPiece_of_namesType {item name type : Text} (h : NamesType item name type) :
    namedPiece item = (name, some type) := by
  obtain ⟨gap, hgap, hblank, rfl⟩ := h.item_eq
  have hword : ∀ c ∈ name, isBlank c = false := fun c hc => not_isBlank_of_isWord (isWord_of_isIdentifier h.named c hc)
  have hne : name ≠ [] := by
    rintro rfl
    cases h.named
  have hcontains : typeWords.contains name = false := by
    rw [← Bool.not_eq_true, List.contains_iff_mem]
    exact h.word
  unfold namedPiece
  rw [firstWordAndRest_append hne hword hgap hblank h.type_stripped h.type_ne]
  simp only [h.named, hcontains, Bool.not_false, Bool.and_self, if_true, h.type_stripped]

theorem namesType_of_namedPiece {item name type : Text} (hstrip : strip item = item)
    (h : namedPiece item = (name, some type)) : NamesType item name type := by
  unfold namedPiece at h
  cases hwords : firstWordAndRest? item with
  | none =>
    rw [hwords] at h
    cases h
  | some found =>
    obtain ⟨word, rest⟩ := found
    obtain ⟨hne, hrest, hgap⟩ := firstWordAndRest_cases hstrip hwords
    rw [hwords] at h
    simp only at h
    split at h
    · rename_i hname
      cases h
      rw [Bool.and_eq_true, Bool.not_eq_true', ← Bool.not_eq_true, List.contains_iff_mem] at hname
      rw [hrest]
      exact ⟨hname.1, hname.2, hne, hrest, hgap⟩
    · cases h

/-- An item is taken for a name with its type where it is one. -/
theorem namedPiece_cases {item : Text} (hstrip : strip item = item) :
    (∃ name type, namedPiece item = (name, some type) ∧ NamesType item name type) ∨
      namedPiece item = (item, none) ∧ IsLone item := by
  cases h : namedPiece item with
  | mk name type? =>
    cases type? with
    | some type => exact .inl ⟨name, type, rfl, namesType_of_namedPiece hstrip h⟩
    | none =>
      refine .inr ⟨?_, fun name' type' hnames => ?_⟩
      · unfold namedPiece at h
        split at h
        · split at h
          · cases h
          · rw [← h]
        · rw [← h]
      · rw [namedPiece_of_namesType hnames] at h
        cases h

/-- Items are read in groups; `pending` are lone items in front of them, the last first. -/
theorem grouped_read {items : List Text} (hitems : ∀ item ∈ items, strip item = item) {pending : List Text}
    (hpending : ∀ name ∈ pending, IsLone name) :
    IsGrouped (pending.reverse ++ items) (grouped pending (items.map namedPiece)) := by
  induction items generalizing pending with
  | nil =>
    rw [List.append_nil]
    exact .untyped _ fun name hname => hpending name (List.mem_reverse.mp hname)
  | cons item items ih =>
    obtain ⟨hitem, hitems⟩ := List.forall_mem_cons.mp hitems
    rw [List.map_cons]
    rcases namedPiece_cases hitem with ⟨name, type, hread, hnames⟩ | ⟨hread, hlone⟩
    · rw [hread, grouped]
      have hrest := ih hitems (List.forall_mem_nil _)
      exact .group _ item name type items _ (fun n hn => hpending n (List.mem_reverse.mp hn)) hnames hrest
    · rw [hread, grouped]
      have hrest := ih hitems (List.forall_mem_cons.mpr ⟨hlone, hpending⟩)
      rwa [List.reverse_cons, List.append_assoc] at hrest

/-- **The parameters are those that the items of the list declare.** -/
theorem parametersOf_read (t : Text) : Declares (splitTopLevel ',' t) (parametersOf t) := by
  have hitems : ∀ item ∈ splitTopLevel ',' t, strip item = item := fun item h => (stripped_of_mem_split h).1
  unfold parametersOf
  simp only
  split
  · rename_i hany
    have hgrouped : IsGrouped (splitTopLevel ',' t) _ := grouped_read hitems (List.forall_mem_nil _)
    refine .named _ ?_ hgrouped
    obtain ⟨read, hread, hsome⟩ := List.any_eq_true.mp hany
    obtain ⟨item, hitem, rfl⟩ := List.mem_map.mp hread
    refine ⟨item, hitem, fun hlone => ?_⟩
    rcases namedPiece_cases (hitems item hitem) with ⟨name, type, -, hnames⟩ | ⟨hnone, -⟩
    · exact hlone name type hnames
    · rw [hnone] at hsome
      cases hsome
  · rename_i hnone
    refine .types fun item hitem name type hnames => hnone ?_
    exact List.any_eq_true.mpr ⟨_, List.mem_map_of_mem hitem, by rw [namedPiece_of_namesType hnames]; rfl⟩

/-! ## Results -/

/-- The text stands between brackets that belong together. -/
def IsBracketed (t inner : Text) : Prop := t = '(' :: inner ++ [')'] ∧ openAfter [] 0 inner = some 0

/-- The types of a result in brackets as one type. -/
def resultOf : List Text → Text
  | [] => noResult
  | [type] => type
  | types => '(' :: (joinWith [',', ' '] types ++ [')'])

/-- The type that a result is: no result, the text itself, or what stands in its brackets. -/
inductive IsResult (t : Text) : Text → Prop where
  | none (h : t = []) : IsResult t noResult
  | bare (hne : t ≠ []) (h : ∀ inner, ¬ IsBracketed t inner) : IsResult t t
  | bracketed (inner : Text) (types : List Text) (h : IsBracketed t inner) (htypes : IsListOf (strip inner) types) :
    IsResult t (resultOf types)

/-- The brackets of a result are easy to see: those at its ends belong together, and a type that is alone in them has no
comma beside it. -/
structure IsPlainResult (t : Text) : Prop where
  together : ∀ inner, t = '(' :: inner ++ [')'] → openAfter [] 0 inner = some 0
  alone : ∀ inner, t = '(' :: inner ++ [')'] → (splitTopLevel ',' (strip inner)).length ≤ 1 →
    splitTopLevel ',' (strip inner) = (stripped? inner).toList

theorem openAfter_strip {separators : List Char} (hs : separators.all (!isBlank ·) = true) {depth depth' : Nat}
    {t : Text} (h : openAfter separators depth t = some depth') : openAfter separators depth (strip t) = some depth' := by
  have hleft : t.takeWhile isBlank ++ stripLeft t = t := List.takeWhile_append_dropWhile
  have hright : strip t ++ ((stripLeft t).reverse.takeWhile isBlank).reverse = stripLeft t := by
    have hsplit := List.takeWhile_append_dropWhile (p := isBlank) (l := (stripLeft t).reverse)
    have := congrArg List.reverse hsplit
    rw [List.reverse_append, List.reverse_reverse] at this
    exact this
  rw [← hleft, openAfter_append, openAfter_blank hs List.all_takeWhile, Option.bind_some, ← hright, openAfter_append] at h
  obtain ⟨next, hnext, hend⟩ := Option.bind_eq_some_iff.mp h
  have hblank : isBlankText ((stripLeft t).reverse.takeWhile isBlank).reverse = true :=
    List.all_reverse.trans List.all_takeWhile
  rw [openAfter_blank hs hblank] at hend
  cases hend
  exact hnext

/-- What starts with one bracket and ends with the other stands between brackets. -/
theorem ends_iff {t : Text} :
    (startsWith t ['('] && endsWith t [')']) = true ↔ ∃ inner, t = '(' :: inner ++ [')'] := by
  unfold startsWith endsWith
  rw [Bool.and_eq_true, List.isPrefixOf_iff_prefix, List.isSuffixOf_iff_suffix]
  constructor
  · rintro ⟨⟨rest, rfl⟩, front, hfront⟩
    cases front with
    | nil => cases hfront
    | cons c front =>
      obtain ⟨rfl, hrest⟩ := List.cons.inj hfront
      exact ⟨front, congrArg ('(' :: ·) hrest.symm⟩
  · rintro ⟨inner, rfl⟩
    exact ⟨⟨inner ++ [')'], rfl⟩, '(' :: inner, rfl⟩

/-- The list between the brackets of a result. -/
theorem isListOf_inner {t inner : Text} (hquote : ∀ c ∈ t, isQuote c = false) (h : IsBracketed (strip t) inner) :
    IsListOf (strip inner) (splitTopLevel ',' (strip inner)) := by
  refine isListOf_split (fun c hc => hquote c ?_) (openAfter_strip rfl h.2)
  have hinner : inner <:+: strip t := ⟨['('], [')'], h.1.symm⟩
  exact ((strip_within inner).trans (hinner.trans (strip_within t))).subset hc

/-- The types of a result in brackets are read one by one; a type that is alone is read as it stands there. -/
theorem resultType_bracketed {t inner : Text} (ht : strip t = '(' :: inner ++ [')'])
    (halone : (splitTopLevel ',' (strip inner)).length ≤ 1 →
      splitTopLevel ',' (strip inner) = (stripped? inner).toList) :
    resultType t = resultOf (splitTopLevel ',' (strip inner)) := by
  have hinner : ((strip t).drop 1).dropLast = inner := by simp [ht]
  unfold resultType
  dsimp only
  rw [if_neg (by simp [ht]), if_pos (ends_iff.mpr ⟨inner, ht⟩), hinner]
  by_cases hempty : strip inner = []
  · rw [if_pos hempty, hempty]
    rfl
  · rw [if_neg hempty]
    rw [stripped_of_strip rfl hempty] at halone
    cases htypes : splitTopLevel ',' (strip inner) with
    | nil =>
      rw [htypes] at halone
      cases halone (Nat.zero_le 1)
    | cons first more =>
      cases more with
      | nil =>
        rw [htypes] at halone
        obtain ⟨rfl, -⟩ := List.cons.inj (halone (Nat.le_refl 1))
        rfl
      | cons second more => rfl

/-- **The type of a result is read off it.** -/
theorem resultType_read {t : Text} (hquote : ∀ c ∈ t, isQuote c = false) (h : IsPlainResult (strip t)) :
    IsResult (strip t) (resultType t) := by
  by_cases hnil : strip t = []
  · rw [show resultType t = noResult from if_pos hnil]
    exact .none hnil
  · by_cases hends : ∃ inner, strip t = '(' :: inner ++ [')']
    · obtain ⟨inner, hinner⟩ := hends
      have hbracketed : IsBracketed (strip t) inner := ⟨hinner, h.together inner hinner⟩
      rw [resultType_bracketed hinner (h.alone inner hinner)]
      exact .bracketed inner _ hbracketed (isListOf_inner hquote hbracketed)
    · have hself : resultType t = strip t := by
        unfold resultType
        dsimp only
        rw [if_neg hnil, if_neg (mt ends_iff.mp hends)]
      rw [hself]
      exact .bare hnil fun inner hinner => hends ⟨inner, hinner.1⟩

end SourceDoc.Braced
