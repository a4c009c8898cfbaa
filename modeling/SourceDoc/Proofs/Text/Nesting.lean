import SourceDoc.Proofs.Text.Blank
import SourceDoc.Text.Bracket
import Mathlib.Tactic.SplitIfs

/-!
# Texts that scanners of brackets pass over

Several scanners look for a character outside brackets.  A text without quotes, in which brackets are closed only where
they are open and no separator stands outside them, is passed over by each of them, and changes no more than how many
brackets are open: `openAfter` says how many.  So all of them find the same end of a text that is put together from such
texts (`piecesFrom_separator`, `splitOnce_separator`, `breakClosing_closing`).
-/

namespace SourceDoc.Text

/-! ## Pieces -/

theorem piecesFrom_ne_nil (sep : Char) (n : Nesting) (t : Text) : piecesFrom sep n t ≠ [] := by
  cases t with
  | nil => exact List.cons_ne_nil _ _
  | cons c t =>
    rw [piecesFrom]
    split
    · exact List.cons_ne_nil _ _
    · split
      · exact List.cons_ne_nil _ _
      · exact List.cons_ne_nil _ _

/-- The pieces joined by the separator are the text. -/
theorem joinWith_pieces (sep : Char) (n : Nesting) (t : Text) : joinWith [sep] (piecesFrom sep n t) = t := by
  induction t generalizing n with
  | nil => rfl
  | cons c t ih =>
    rw [piecesFrom]
    split
    · rename_i hsep
      have hc : c = sep := by
        unfold Nesting.separates at hsep
        simp only [Bool.and_eq_true, decide_eq_true_eq] at hsep
        exact hsep.1.1.2
      rw [joinWith_cons _ _ _ (piecesFrom_ne_nil sep n t), ih, hc]
      rfl
    · cases hpieces : piecesFrom sep (n.next c) t with
      | nil => exact absurd hpieces (piecesFrom_ne_nil _ _ _)
      | cons piece pieces =>
        have h := ih (n.next c)
        rw [hpieces] at h
        simp only
        rw [← h]
        cases pieces <;> rfl

/-- What holds of the characters of the separator and of the pieces holds of those of the joined text. -/
theorem forall_mem_joinWith {p : Char → Prop} {sep : Text} (hsep : ∀ c ∈ sep, p c) {pieces : List Text}
    (h : ∀ piece ∈ pieces, ∀ c ∈ piece, p c) : ∀ c ∈ joinWith sep pieces, p c := by
  induction pieces with
  | nil => exact List.forall_mem_nil _
  | cons piece more ih =>
    obtain ⟨hpiece, hmore⟩ := List.forall_mem_cons.mp h
    by_cases hlast : more = []
    · rw [hlast]
      exact hpiece
    · rw [joinWith_cons _ _ _ hlast]
      exact List.forall_mem_append.mpr ⟨List.forall_mem_append.mpr ⟨hpiece, hsep⟩, ih hmore⟩

/-- A list with a space behind each comma is one with a space in front of each item but the first. -/
theorem joinWith_comma (t : Text) (more : List Text) :
    joinWith [','] (t :: more.map ([' '] ++ ·)) = joinWith [',', ' '] (t :: more) := by
  induction more generalizing t with
  | nil => rfl
  | cons t' more ih =>
    have := ih t'
    rw [List.map_cons, joinWith_cons _ _ _ (List.cons_ne_nil _ _), joinWith_cons _ _ _ (List.cons_ne_nil _ _), ← this]
    cases more <;> simp [joinWith]

/-! ## Open brackets -/

/-- How many brackets are open after a text, where `depth` are before it; none where a bracket is closed that is not
open, or where a separator stands outside brackets. -/
def openAfter (separators : List Char) (depth : Nat) : Text → Option Nat
  | [] => some depth
  | c :: t =>
    if isOpening c then openAfter separators (depth + 1) t
    else if isClosing c then if depth = 0 then none else openAfter separators (depth - 1) t
    else if depth = 0 ∧ c ∈ separators then none
    else openAfter separators depth t

/-- How many brackets are open after one character. -/
def depthAfter (separators : List Char) (depth : Nat) (c : Char) : Option Nat :=
  if isOpening c then some (depth + 1)
  else if isClosing c then if depth = 0 then none else some (depth - 1)
  else if depth = 0 ∧ c ∈ separators then none
  else some depth

theorem openAfter_cons (separators : List Char) (depth : Nat) (c : Char) (t : Text) :
    openAfter separators depth (c :: t) = (depthAfter separators depth c).bind (openAfter separators · t) := by
  rw [openAfter, depthAfter]
  split_ifs <;> rfl

variable {separators separators' : List Char} {depth depth' : Nat} {c : Char} {t : Text}

theorem openAfter_append (separators : List Char) (depth : Nat) (a b : Text) :
    openAfter separators depth (a ++ b) = (openAfter separators depth a).bind (openAfter separators · b) := by
  induction a generalizing depth with
  | nil => rfl
  | cons c a ih => simp only [List.cons_append, openAfter_cons, ih, Option.bind_assoc]

theorem depthAfter_mono (hs : ∀ c ∈ separators', c ∈ separators) (h : depthAfter separators depth c = some depth') :
    depthAfter separators' depth c = some depth' := by
  unfold depthAfter at h ⊢
  split_ifs at h ⊢ with ho hc hd hsep' hsep
  · exact h
  · exact h
  · exact absurd ⟨hsep'.1, hs c hsep'.2⟩ hsep
  · exact h

theorem openAfter_mono (hs : ∀ c ∈ separators', c ∈ separators) (h : openAfter separators depth t = some depth') :
    openAfter separators' depth t = some depth' := by
  induction t generalizing depth with
  | nil => exact h
  | cons c t ih =>
    rw [openAfter_cons] at h ⊢
    obtain ⟨next, hnext, h⟩ := Option.bind_eq_some_iff.mp h
    rw [depthAfter_mono hs hnext]
    exact ih h

/-- Inside one more pair of brackets no separator counts. -/
theorem depthAfter_inside (separators' : List Char) (h : depthAfter separators depth c = some depth') :
    depthAfter separators' (depth + 1) c = some (depth' + 1) := by
  have hsep : ¬ (depth + 1 = 0 ∧ c ∈ separators') := fun hsep => Nat.succ_ne_zero depth hsep.1
  unfold depthAfter at h ⊢
  rw [if_neg (Nat.succ_ne_zero depth), if_neg hsep]
  split_ifs at h ⊢ with ho hc hd
  · rw [← Option.some.inj h]
  · rw [← Option.some.inj h]
    congr 1
    omega
  · rw [← Option.some.inj h]

theorem openAfter_inside (separators' : List Char) (h : openAfter separators depth t = some depth') :
    openAfter separators' (depth + 1) t = some (depth' + 1) := by
  induction t generalizing depth with
  | nil =>
    cases h
    rfl
  | cons c t ih =>
    rw [openAfter_cons] at h ⊢
    obtain ⟨next, hnext, h⟩ := Option.bind_eq_some_iff.mp h
    rw [depthAfter_inside separators' hnext]
    exact ih h

theorem openAfter_of_flat (h : ∀ c ∈ t, isOpening c = false ∧ isClosing c = false ∧ c ∉ separators) :
    openAfter separators depth t = some depth := by
  induction t with
  | nil => rfl
  | cons c t ih =>
    obtain ⟨⟨ho, hc, hs⟩, ht⟩ := List.forall_mem_cons.mp h
    have hnext : depthAfter separators depth c = some depth := by
      rw [depthAfter, if_neg (by simp [ho]), if_neg (by simp [hc]), if_neg fun hsep => hs hsep.2]
    rw [openAfter_cons, hnext]
    exact ih ht

theorem openAfter_blank (hs : separators.all (!isBlank ·) = true) (ht : isBlankText t = true) :
    openAfter separators depth t = some depth := by
  refine openAfter_of_flat fun c hc => ?_
  have hblank : isBlank c = true := List.all_eq_true.mp ht c hc
  refine ⟨?_, ?_, fun hmem => ?_⟩
  · rw [← Bool.not_eq_true]
    intro ho
    simp only [isOpening, Bool.or_eq_true, decide_eq_true_eq] at ho
    rcases ho with (rfl | rfl) | rfl <;> cases hblank
  · rw [← Bool.not_eq_true]
    intro ho
    simp only [isClosing, Bool.or_eq_true, decide_eq_true_eq] at ho
    rcases ho with (rfl | rfl) | rfl <;> cases hblank
  · have := List.all_eq_true.mp hs c hmem
    rw [hblank] at this
    cases this

/-! ## Plain texts -/

/-- The characters that take their meaning from others, and the one that ends a line. -/
def marks : List Char := ['"', '\'', '\x60', '\\', '#', '\n']

/-- The text neither starts nor ends with a blank, and hides nothing. -/
structure IsSolid (t : Text) : Prop where
  ne_nil : t ≠ []
  stripped : strip t = t
  bare : ∀ c ∈ t, c ∉ marks

/-- The text is solid, its brackets are balanced, and no comma, colon or equals sign stands outside them. -/
structure IsPlain (t : Text) : Prop extends IsSolid t where
  balanced : openAfter [',', ':', '='] 0 t = some 0

theorem all_bare_iff {t : Text} : t.all (fun c => decide (c ∉ marks)) = true ↔ ∀ c ∈ t, c ∉ marks := by simp

instance (t : Text) : Decidable (IsSolid t) :=
  decidable_of_iff (t ≠ [] ∧ strip t = t ∧ t.all (fun c => decide (c ∉ marks)) = true)
    ⟨fun ⟨hne, hstrip, hall⟩ => ⟨hne, hstrip, all_bare_iff.mp hall⟩,
      fun h => ⟨h.ne_nil, h.stripped, all_bare_iff.mpr h.bare⟩⟩

instance (t : Text) : Decidable (IsPlain t) :=
  decidable_of_iff (IsSolid t ∧ openAfter [',', ':', '='] 0 t = some 0)
    ⟨fun ⟨hsolid, hbalanced⟩ => ⟨hsolid, hbalanced⟩, fun h => ⟨h.toIsSolid, h.balanced⟩⟩

theorem isQuote_of_bare {c : Char} (h : c ∉ marks) : isQuote c = false := by
  rw [← Bool.not_eq_true]
  intro hq
  simp only [isQuote, Bool.or_eq_true, decide_eq_true_eq] at hq
  rcases hq with (rfl | rfl) | rfl <;> exact h (by decide)

theorem unquoted_of_bare (h : ∀ c ∈ t, c ∉ marks) : ∀ c ∈ t, isQuote c = false := fun c hc => isQuote_of_bare (h c hc)

theorem unquoted_of_blank (h : isBlankText t = true) : ∀ c ∈ t, isQuote c = false := by
  intro c hc
  have hblank : isBlank c = true := List.all_eq_true.mp h c hc
  rw [← Bool.not_eq_true]
  intro hq
  simp only [isQuote, Bool.or_eq_true, decide_eq_true_eq] at hq
  rcases hq with (rfl | rfl) | rfl <;> cases hblank

/-! ## Scanners -/

/-- **One character is passed over,** and says how many brackets are open after it. -/
theorem openAfter_step {c : Char} (hc : isQuote c = false) (h : openAfter separators depth (c :: t) = some depth') :
    ∃ next, openAfter separators next t = some depth' ∧
      ({ depth } : Nesting).nextPlain c = { depth := next } ∧
      ∀ sep ∈ separators, ({ depth } : Nesting).separates sep c = false := by
  rw [openAfter] at h
  unfold Nesting.nextPlain Nesting.separates
  rw [if_neg (by simp [hc])]
  split at h
  · rename_i ho
    exact ⟨_, h, by rw [if_pos ho], by simp [ho]⟩
  · rename_i ho
    rw [if_neg ho]
    split at h
    · rename_i hclose
      rw [if_pos hclose]
      split at h
      · cases h
      · rename_i hd
        exact ⟨_, h, rfl, by simp [Nesting.isTop, hd]⟩
    · rename_i hclose
      rw [if_neg hclose]
      split at h
      · cases h
      · rename_i hsep
        refine ⟨_, h, rfl, fun sep hmem => ?_⟩
        by_cases hd : depth = 0
        · have hne : c ≠ sep := by
            rintro rfl
            exact hsep ⟨hd, hmem⟩
          simp [hne]
        · simp [Nesting.isTop, hd]

variable {sep : Char}

theorem piecesFrom_append (hsep : sep ∈ separators) (ht : ∀ c ∈ t, isQuote c = false)
    (h : openAfter separators depth t = some depth') {rest piece : Text} {pieces : List Text}
    (hrest : piecesFrom sep { depth := depth' } rest = piece :: pieces) :
    piecesFrom sep { depth } (t ++ rest) = (t ++ piece) :: pieces := by
  induction t generalizing depth with
  | nil =>
    cases h
    exact hrest
  | cons c t ih =>
    obtain ⟨hc, ht⟩ := List.forall_mem_cons.mp ht
    obtain ⟨next, hnext, hplain, hnone⟩ := openAfter_step hc h
    have hstep : ({ depth } : Nesting).next c = { depth := next } := hplain
    rw [List.cons_append, piecesFrom, hnone sep hsep, if_neg Bool.false_ne_true, hstep, ih ht hnext]
    rfl

theorem piecesFrom_end (hsep : sep ∈ separators) (ht : ∀ c ∈ t, isQuote c = false)
    (h : openAfter separators depth t = some depth') : piecesFrom sep { depth } t = [t] := by
  have hnone : piecesFrom sep { depth := depth' } [] = [[]] := rfl
  have := piecesFrom_append hsep ht h hnone
  rwa [List.append_nil] at this

theorem piecesFrom_separator (hsep : sep ∈ separators) (htop : Nesting.separates {} sep sep = true)
    (ht : ∀ c ∈ t, isQuote c = false) (h : openAfter separators depth t = some 0) (rest : Text) :
    piecesFrom sep { depth } (t ++ sep :: rest) = t :: piecesFrom sep {} rest := by
  have hcut : piecesFrom sep {} (sep :: rest) = [] :: piecesFrom sep {} rest := by
    rw [piecesFrom, if_pos htop]
  have := piecesFrom_append hsep ht h hcut
  rwa [List.append_nil] at this

/-- **A list is cut at its separators,** and nowhere in the pieces between them. -/
theorem piecesFrom_joinWith (hsep : sep ∈ separators) (htop : Nesting.separates {} sep sep = true) {pieces : List Text}
    (hne : pieces ≠ []) (hquote : ∀ piece ∈ pieces, ∀ c ∈ piece, isQuote c = false)
    (h : ∀ piece ∈ pieces, openAfter separators 0 piece = some 0) :
    piecesFrom sep {} (joinWith [sep] pieces) = pieces := by
  induction pieces with
  | nil => exact absurd rfl hne
  | cons piece more ih =>
    obtain ⟨hpiece, hmore⟩ := List.forall_mem_cons.mp h
    obtain ⟨hunquoted, hquote⟩ := List.forall_mem_cons.mp hquote
    by_cases hlast : more = []
    · rw [hlast]
      exact piecesFrom_end hsep hunquoted hpiece
    · rw [joinWith_cons _ _ _ hlast, List.append_assoc, List.singleton_append]
      exact (piecesFrom_separator hsep htop hunquoted hpiece _).trans (congrArg _ (ih hlast hquote hmore))

/-- The items of a list are its pieces without the blanks around them. -/
theorem splitTopLevel_joinWith (hsep : sep ∈ separators) (htop : Nesting.separates {} sep sep = true)
    {pieces : List Text} (hquote : ∀ piece ∈ pieces, ∀ c ∈ piece, isQuote c = false)
    (h : ∀ piece ∈ pieces, openAfter separators 0 piece = some 0) :
    splitTopLevel sep (joinWith [sep] pieces) = pieces.filterMap stripped? := by
  by_cases hne : pieces = []
  · rw [hne]
    rfl
  · unfold splitTopLevel
    rw [piecesFrom_joinWith hsep htop hne hquote h]

theorem breakTopLevel_append (hsep : sep ∈ separators) (ht : ∀ c ∈ t, isQuote c = false)
    (h : openAfter separators depth t = some depth') (rest : Text) :
    breakTopLevel? sep { depth } (t ++ rest) =
      (breakTopLevel? sep { depth := depth' } rest).map fun (before, after) => (t ++ before, after) := by
  induction t generalizing depth with
  | nil =>
    cases h
    exact Option.map_id'.symm
  | cons c t ih =>
    obtain ⟨hc, ht⟩ := List.forall_mem_cons.mp ht
    obtain ⟨next, hnext, hplain, hnone⟩ := openAfter_step hc h
    have hstep : ({ depth } : Nesting).nextUnescaped c = { depth := next } := hplain
    rw [List.cons_append, breakTopLevel?, hnone sep hsep, if_neg Bool.false_ne_true, hstep, ih ht hnext, Option.map_map]
    rfl

theorem splitOnce_none (hsep : sep ∈ separators) (ht : ∀ c ∈ t, isQuote c = false)
    (h : openAfter separators 0 t = some depth') : splitOnceTopLevel sep t = (t, none) := by
  have hnone := breakTopLevel_append hsep ht h []
  rw [List.append_nil] at hnone
  unfold splitOnceTopLevel
  rw [hnone]
  rfl

theorem splitOnce_separator (hsep : sep ∈ separators) (htop : Nesting.separates {} sep sep = true)
    (ht : ∀ c ∈ t, isQuote c = false) (h : openAfter separators 0 t = some 0) (rest : Text) :
    splitOnceTopLevel sep (t ++ sep :: rest) = (t, some rest) := by
  have hcut := breakTopLevel_append hsep ht h (sep :: rest)
  rw [breakTopLevel?, if_pos htop, Option.map_some] at hcut
  unfold splitOnceTopLevel
  rw [hcut]
  simp only [List.append_nil]

theorem breakClosing_append {isQuoting : Char → Bool} (ht : ∀ c ∈ t, isQuoting c = false)
    (h : openAfter separators depth t = some depth') (rest : Text) :
    breakClosing? isQuoting (depth + 1) none (t ++ rest) =
      (breakClosing? isQuoting (depth' + 1) none rest).map fun (before, after) => (t ++ before, after) := by
  induction t generalizing depth with
  | nil =>
    cases h
    exact Option.map_id'.symm
  | cons c t ih =>
    obtain ⟨hc, ht⟩ := List.forall_mem_cons.mp ht
    have hmore : ∀ {next : Nat}, openAfter separators next t = some depth' →
        (breakClosing? isQuoting (next + 1) none (t ++ rest)).map (fun (before, after) => (c :: before, after)) =
          (breakClosing? isQuoting (depth' + 1) none rest).map fun (before, after) => (c :: t ++ before, after) := by
      intro next hnext
      rw [ih ht hnext, Option.map_map]
      rfl
    rw [List.cons_append, breakClosing?]
    simp only [hc]
    rw [openAfter] at h
    split at h
    · rename_i ho
      simp only [ho, if_true, if_false, Bool.false_eq_true]
      exact hmore h
    · rename_i ho
      simp only [ho, if_false, Bool.false_eq_true]
      split at h
      · rename_i hclose
        split at h
        · cases h
        · rename_i hd
          simp only [hclose, if_true]
          rw [if_neg (by omega)]
          have := hmore h
          rwa [Nat.sub_add_cancel (Nat.pos_of_ne_zero hd)] at this
      · rename_i hclose
        simp only [hclose, if_false, Bool.false_eq_true]
        split at h
        · cases h
        · exact hmore h

theorem breakClosing_closing {isQuoting : Char → Bool} {close : Char} (ht : ∀ c ∈ t, isQuoting c = false)
    (h : openAfter separators 0 t = some 0) (hquote : isQuoting close = false) (hopen : isOpening close = false)
    (hclose : isClosing close = true) (rest : Text) :
    breakClosing? isQuoting 1 none (t ++ close :: rest) = some (t, rest) := by
  rw [breakClosing_append ht h, breakClosing?]
  simp [hquote, hopen, hclose]

end SourceDoc.Text
