import SourceDoc.Proofs.Page.Template
import SourceDoc.Proofs.Table

/-!
# Filled templates

A text is cut at its slots from the left, each slot the first in what is left of the text (`IsCut`).  There is one such
cut (`exists_isCut`, `isCut_unique`), and filling the slots puts values between its gaps and nothing else
(`IsCut.fill_eq`): a value is not looked at again.  The slots that a template has are those whose values have an
influence on the text (`isIndependent_iff`), so the slots that it lacks are told by that alone:

    the cut of t, the values between its gaps; t for markers as values; the missing slots are the required ones without
      influence, a page is refused for them, and has the values of all of them otherwise              (fill_isExact)
-/

namespace SourceDoc.Template

/-! ## Cuts -/

/-- A name that a slot can have. -/
def IsSlotName (name : Text) : Prop := name ≠ [] ∧ ∀ c ∈ name, isSlotChar c = true

/-- In front of `rest`, no slot begins in the gap. -/
def IsGap (gap rest : Text) : Prop :=
  ∀ front back name, gap = front ++ back → back ≠ [] → IsSlotName name → ¬ marker name <+: back ++ rest

/-- A text cut at its slots: each slot with the gap before it, and what follows the last one. -/
inductive IsCut : Text → List (Text × Text) → Text → Prop
  | last {t : Text} (hgap : IsGap t []) : IsCut t [] t
  | slot {gap name rest : Text} {cut : List (Text × Text)} {last : Text} (hgap : IsGap gap (marker name ++ rest))
      (hname : IsSlotName name) (hrest : IsCut rest cut last) :
      IsCut (gap ++ (marker name ++ rest)) ((gap, name) :: cut) last

section

variable {t gap rest name last last' : Text} {c : Char} {cut cut' : List (Text × Text)}

theorem slot_eq_none_iff : slot? t = none ↔ ∀ name, IsSlotName name → ¬ marker name <+: t := by
  rw [Option.eq_none_iff_forall_ne_some]
  refine forall_congr' fun name => ?_
  rw [ne_eq, slot_eq_some_iff, ← and_assoc]
  constructor
  · rintro h hname ⟨rest, hrest⟩
    exact h ⟨hname, rest, hrest.symm⟩
  · rintro h ⟨hname, rest, hrest⟩
    exact h hname ⟨rest, hrest.symm⟩

theorem isGap_nil (rest : Text) : IsGap [] rest := by
  intro front back name h hback
  exact absurd (List.append_eq_nil_iff.mp h.symm).2 hback

theorem isGap_cons_iff : IsGap (c :: gap) rest ↔ slot? (c :: (gap ++ rest)) = none ∧ IsGap gap rest := by
  rw [slot_eq_none_iff]
  constructor
  · intro h
    refine ⟨fun name hname => h [] (c :: gap) name rfl (List.cons_ne_nil _ _) hname, ?_⟩
    intro front back name hgap hback hname
    exact h (c :: front) back name (by rw [hgap, List.cons_append]) hback hname
  · rintro ⟨hfirst, hgap⟩ front back name h hback hname
    cases front with
    | nil =>
      rw [List.nil_append] at h
      exact h ▸ hfirst name hname
    | cons d front => exact hgap front back name (List.cons.inj h).2 hback hname

/-- **Every text has a cut.** -/
theorem exists_isCut (t : Text) : ∃ cut last, IsCut t cut last := by
  induction hlength : t.length using Nat.strong_induction_on generalizing t with
  | _ n ih =>
    subst hlength
    cases t with
    | nil => exact ⟨[], [], .last (isGap_nil [])⟩
    | cons c t =>
      cases hslot : slot? (c :: t) with
      | some name =>
        obtain ⟨hne, hchars, rest, ht⟩ := (slot_eq_some_iff _ name).mp hslot
        have hshorter : rest.length < (c :: t).length := by
          rw [ht]
          simp [marker]
          omega
        obtain ⟨cut, last, hcut⟩ := ih _ hshorter rest rfl
        rw [ht]
        exact ⟨_, _, .slot (isGap_nil _) ⟨hne, hchars⟩ hcut⟩
      | none =>
        obtain ⟨cut, last, hcut⟩ := ih _ (Nat.lt_succ_self _) t rfl
        cases hcut with
        | last hgap => exact ⟨_, _, .last (isGap_cons_iff.mpr ⟨by rwa [List.append_nil], hgap⟩)⟩
        | slot hgap hname hrest => exact ⟨_, _, .slot (isGap_cons_iff.mpr ⟨hslot, hgap⟩) hname hrest⟩

/-! ## The pieces of a cut -/

theorem piecesFrom_eq (skip : Nat) (t : Text) : piecesFrom skip t = pieces (t.drop skip) := by
  induction t generalizing skip with
  | nil => rw [List.drop_nil]; rfl
  | cons c t ih =>
    cases skip with
    | zero => rfl
    | succ n => exact ih n

theorem pieces_marker (hname : IsSlotName name) (rest : Text) :
    pieces (marker name ++ rest) = .slot name :: pieces rest := by
  have hslot : slot? (marker name ++ rest) = some name := (slot_eq_some_iff _ name).mpr ⟨hname.1, hname.2, rest, rfl⟩
  have hdrop : (marker name ++ rest).drop (name.length + 4) = rest := List.drop_left' (by simp [marker])
  obtain ⟨more, hmore⟩ : ∃ more, marker name ++ rest = '\x7b' :: more := ⟨_, rfl⟩
  rw [hmore] at hslot hdrop ⊢
  rw [pieces, piecesFrom_cons, hslot]
  exact congrArg (Piece.slot name :: ·) ((piecesFrom_eq _ _).trans (congrArg pieces hdrop))

theorem pieces_gap (h : IsGap gap rest) : pieces (gap ++ rest) = gap.map .char ++ pieces rest := by
  induction gap with
  | nil => rfl
  | cons c gap ih =>
    obtain ⟨hslot, hgap⟩ := isGap_cons_iff.mp h
    rw [List.cons_append, pieces, piecesFrom_cons, hslot]
    exact congrArg (Piece.char c :: ·) (ih hgap)

/-- The pieces that a cut has. -/
def piecesOf (cut : List (Text × Text)) (last : Text) : List Piece :=
  (cut.flatMap fun (gap, name) => gap.map .char ++ [.slot name]) ++ last.map .char

theorem piecesOf_cons (gap name : Text) (cut : List (Text × Text)) (last : Text) :
    piecesOf ((gap, name) :: cut) last = gap.map .char ++ .slot name :: piecesOf cut last := by
  simp [piecesOf]

theorem IsCut.pieces_eq (h : IsCut t cut last) : pieces t = piecesOf cut last := by
  induction h with
  | @last t hgap =>
    have := pieces_gap hgap
    rwa [List.append_nil, show pieces [] = [] from rfl, List.append_nil] at this
  | slot hgap hname _ ih => rw [pieces_gap hgap, pieces_marker hname, ih, piecesOf_cons]

/-- Characters up to the first slot. -/
theorem map_char_inj {gap gap' : Text} {ps ps' : List Piece}
    (h : gap.map .char ++ .slot name :: ps = gap'.map .char ++ .slot last :: ps') :
    gap = gap' ∧ name = last ∧ ps = ps' := by
  induction gap generalizing gap' with
  | nil =>
    cases gap' with
    | nil =>
      obtain ⟨hname, hps⟩ := List.cons.inj h
      exact ⟨rfl, Piece.slot.inj hname, hps⟩
    | cons c gap' => cases (List.cons.inj h).1
  | cons c gap ih =>
    cases gap' with
    | nil => cases (List.cons.inj h).1
    | cons c' gap' =>
      obtain ⟨hc, hrest⟩ := List.cons.inj h
      obtain ⟨rfl, hmore⟩ := ih hrest
      exact ⟨by rw [Piece.char.inj hc], hmore⟩

/-- Characters alone have no slot. -/
theorem piecesOf_cons_ne (p : Text × Text) (cut : List (Text × Text)) (last t : Text) :
    piecesOf (p :: cut) last ≠ t.map .char := by
  intro h
  have hmem : .slot p.2 ∈ t.map Piece.char := by
    rw [← h, piecesOf_cons]
    exact List.mem_append_right _ List.mem_cons_self
  simp at hmem

theorem piecesOf_inj (h : piecesOf cut last = piecesOf cut' last') : cut = cut' ∧ last = last' := by
  induction cut generalizing cut' with
  | nil =>
    cases cut' with
    | nil => exact ⟨rfl, List.map_injective_iff.mpr (fun _ _ => Piece.char.inj) h⟩
    | cons p cut' => exact absurd h.symm (piecesOf_cons_ne p cut' last' last)
  | cons p cut ih =>
    cases cut' with
    | nil => exact absurd h (piecesOf_cons_ne p cut last last')
    | cons p' cut' =>
      rw [piecesOf_cons, piecesOf_cons] at h
      obtain ⟨hgap, hname, hrest⟩ := map_char_inj h
      obtain ⟨rfl, rfl⟩ := ih hrest
      exact ⟨by rw [Prod.ext hgap hname], rfl⟩

/-- **A text has one cut only.** -/
theorem isCut_unique (h : IsCut t cut last) (h' : IsCut t cut' last') : cut = cut' ∧ last = last' :=
  piecesOf_inj (h.pieces_eq.symm.trans h'.pieces_eq)

end

/-! ## Filling -/

section

variable {t last s x : Text} {cut : List (Text × Text)} {values values' : List (Text × Text)}

/-- **A template is filled in one pass:** between the gaps of its cut stand the values, or the slots as written. -/
theorem IsCut.fill_eq (h : IsCut t cut last) (values : List (Text × Text)) :
    fill values t =
      (cut.flatMap fun (gap, name) => gap ++ (Table.get? name values).getD (marker name)) ++ last := by
  have hchars : ∀ gap : Text, (gap.map Piece.char).flatMap (Piece.fill values) = gap := fun gap => by
    rw [List.flatMap_map]
    exact List.flatMap_singleton' gap
  rw [fill, h.pieces_eq, piecesOf, List.flatMap_append, hchars, List.flatMap_assoc]
  refine congrArg (· ++ last) (congrArg (List.flatMap · cut) (funext fun p => ?_))
  rw [List.flatMap_append, hchars, List.flatMap_singleton]
  rfl

/-- What is cut is the text. -/
theorem IsCut.eq (h : IsCut t cut last) : t = (cut.flatMap fun (gap, name) => gap ++ marker name) ++ last := by
  induction h with
  | last => rfl
  | slot _ _ _ ih =>
    rw [List.flatMap_cons]
    conv_lhs => rw [ih]
    simp

/-- **With markers for values a template stays as it is.** -/
theorem fill_markers (h : ∀ name value, Table.get? name values = some value → value = marker name) (t : Text) :
    fill values t = t := by
  obtain ⟨cut, last, hcut⟩ := exists_isCut t
  have hvalue : ∀ name, (Table.get? name values).getD (marker name) = marker name := fun name => by
    cases hget : Table.get? name values with
    | none => rfl
    | some value => exact h name value hget
  rw [hcut.fill_eq]
  simp only [hvalue]
  exact hcut.eq.symm

/-! ## Influence -/

/-- What the slot has for a value makes no difference to the text. -/
def IsIndependent (s t : Text) : Prop :=
  ∀ values values', (∀ name, name ≠ s → Table.get? name values = Table.get? name values') →
    fill values t = fill values' t

/-- The value of a slot stands in the text as it is. -/
theorem value_within_fill (hslot : .slot s ∈ pieces t) (hvalue : Table.get? s values = some x) :
    x <:+: fill values t := by
  obtain ⟨front, back, hpieces⟩ := List.append_of_mem hslot
  have hfill : Piece.fill values (.slot s) = x := by rw [Piece.fill, hvalue]; rfl
  rw [fill, hpieces, List.flatMap_append, List.flatMap_cons, hfill, ← List.append_assoc]
  exact List.infix_append _ x _

theorem fill_congr (hslot : .slot s ∉ pieces t)
    (h : ∀ name, name ≠ s → Table.get? name values = Table.get? name values') : fill values t = fill values' t := by
  rw [fill, fill, List.flatMap_eq_foldl, List.flatMap_eq_foldl]
  refine List.foldl_ext _ _ _ fun out p hp => congrArg (out ++ ·) ?_
  cases p with
  | char c => rfl
  | slot name =>
    have hname : name ≠ s := fun he => hslot (he ▸ hp)
    rw [Piece.fill, Piece.fill, h name hname]

/-- **A slot that a template has is one that has an influence.** -/
theorem isIndependent_iff : IsIndependent s t ↔ .slot s ∉ pieces t := by
  refine ⟨fun h hslot => ?_, fun hslot values values' h => fill_congr hslot h⟩
  -- a value that is longer than the text without it
  have hsame : fill [] t = fill [(s, 'x' :: fill [] t)] t := by
    refine h _ _ fun name hname => ?_
    rw [Table.get_nil, Table.get_cons, if_neg (Ne.symm hname)]
    rfl
  have hwithin : 'x' :: fill [] t <:+: fill [(s, 'x' :: fill [] t)] t :=
    value_within_fill hslot (by rw [Table.get_cons, if_pos rfl])
  have hlength := hwithin.length_le
  rw [← hsame, List.length_cons] at hlength
  omega

theorem mem_missingSlots_iff : s ∈ missingSlots t ↔ s ∈ requiredSlots ∧ IsIndependent s t := by
  rw [missingSlots, List.mem_filter, isIndependent_iff]
  simp

theorem missingSlots_ne_nil_iff : missingSlots t ≠ [] ↔ ∃ s ∈ requiredSlots, IsIndependent s t := by
  simp only [← mem_missingSlots_iff]
  exact ⟨List.exists_mem_of_ne_nil _, fun ⟨_, hs⟩ => List.ne_nil_of_mem hs⟩

/-! ## Pages -/

theorem get_slotValues (now : Text) (d : Document) (hs : s ∈ requiredSlots) :
    ∃ value, Table.get? s (Html.slotValues now d) = some value := by
  have hkeys : (Html.slotValues now d).map Prod.fst =
      ["TITLE", "FILE_PATH", "LANGUAGE", "DESCRIPTION", "TABLE_OF_CONTENTS", "FUNCTIONS", "CLASSES", "EXPORTS", "USAGE",
        "NOTES", "GENERATED_DATE"].map String.toList := rfl
  have hmem : s ∈ (Html.slotValues now d).map Prod.fst := by
    rw [hkeys]
    exact (by decide : ∀ s ∈ requiredSlots, s ∈ _) s hs
  exact Option.isSome_iff_exists.mp (Table.get_isSome.mpr hmem)

/-- **A page is refused for the slots that its template lacks,** before the clock is read. -/
theorem renderDocument_missing_iff (template? : Option Text) (d : Document) (c : Clock) (slots : List Text) :
    (Renderer.renderDocument ⟨.html, template?⟩ d c).1 = .error (.missingSlots slots) ↔
      slots ≠ [] ∧ slots = missingSlots (template?.getD Html.defaultTemplate) := by
  have hmissing : Renderer.missing ⟨.html, template?⟩ = missingSlots (template?.getD Html.defaultTemplate) := rfl
  rw [Renderer.renderDocument, hmissing]
  cases missingSlots (template?.getD Html.defaultTemplate) with
  | nil =>
    unfold Renderer.timed
    rcases c.read with ⟨now | now, after⟩ <;> simp
  | cons s more =>
    constructor
    · intro h
      cases h
      exact ⟨List.cons_ne_nil s more, rfl⟩
    · rintro ⟨-, rfl⟩
      rfl

/-- **What a template does with its slots.**  It is filled in one pass along its cut; markers for values leave it as it
is; the slots that it lacks are the required ones that have no influence, a page is refused exactly for these, and
otherwise it has the values of all required slots as they are. -/
theorem fill_isExact (t : Text) :
    (∃ cut last, IsCut t cut last ∧ (∀ cut' last', IsCut t cut' last' → cut' = cut ∧ last' = last) ∧
      ∀ values, fill values t =
        (cut.flatMap fun (gap, name) => gap ++ (Table.get? name values).getD (marker name)) ++ last) ∧
    (∀ values, (∀ name value, Table.get? name values = some value → value = marker name) → fill values t = t) ∧
    (missingSlots t).Sublist requiredSlots ∧ (∀ s, s ∈ missingSlots t ↔ s ∈ requiredSlots ∧ IsIndependent s t) ∧
    ∀ (template? : Option Text) (d : Document) (c : Clock), template?.getD Html.defaultTemplate = t →
      (∀ slots, (Renderer.renderDocument ⟨.html, template?⟩ d c).1 = .error (.missingSlots slots) ↔
        (∃ s ∈ requiredSlots, IsIndependent s t) ∧ slots = missingSlots t) ∧
      ∀ now, c.read.1 = some now → (∀ s ∈ requiredSlots, ¬ IsIndependent s t) →
        ∃ a, (Renderer.renderDocument ⟨.html, template?⟩ d c).1 = .ok a ∧
          ∀ s ∈ requiredSlots, ∃ value, Table.get? s (Html.slotValues now d) = some value ∧ value <:+: a.content := by
  obtain ⟨cut, last, hcut⟩ := exists_isCut t
  refine ⟨⟨cut, last, hcut, fun _ _ h => isCut_unique h hcut, hcut.fill_eq⟩, fun values h => fill_markers h t,
    List.filter_sublist, fun s => mem_missingSlots_iff, ?_⟩
  rintro template? d c rfl
  refine ⟨fun slots => ?_, fun now hc hall => ?_⟩
  · rw [renderDocument_missing_iff, ← missingSlots_ne_nil_iff]
    exact and_congr_left fun h => by rw [h]
  · have hmissing : missingSlots (template?.getD Html.defaultTemplate) = [] := by
      rw [← not_not (a := _ = []), ← ne_eq, missingSlots_ne_nil_iff]
      rintro ⟨s, hs, hindependent⟩
      exact hall s hs hindependent
    refine ⟨_, Renderer.renderDocument_html hmissing d hc, fun s hs => ?_⟩
    obtain ⟨value, hvalue⟩ := get_slotValues now d hs
    refine ⟨value, hvalue, value_within_fill ?_ hvalue⟩
    exact not_not.mp fun hslot => hall s hs (isIndependent_iff.mpr hslot)

end

end SourceDoc.Template
