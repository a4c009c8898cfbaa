import Mathlib.Data.List.TakeWhile
import SourceDoc.Page.Renderer
import SourceDoc.Proofs.List

/-!
# The pieces of a template

A slot is a name in capitals between double braces (`slot_eq_some_iff`), so it stands on one line, and the pieces of a
template are those of its lines (`pieces_append_newline`).  The default template has all slots that it has to have
(`missing_none`).
-/

namespace SourceDoc.Template

/-! ## Slots -/

theorem marker_eq (name : Text) : marker name = ['\x7b', '\x7b'] ++ name ++ ['\x7d', '\x7d'] := by
  simp [marker]

/-- **What a slot is.** -/
theorem slot_eq_some_iff (t name : Text) :
    slot? t = some name ↔ name ≠ [] ∧ (∀ c ∈ name, isSlotChar c = true) ∧ ∃ rest, t = marker name ++ rest := by
  constructor
  · intro h
    unfold slot? at h
    split at h
    · rename_i rest
      split at h
      · rename_i c front back htake hdrop
        cases h
        have hrest := List.takeWhile_append_dropWhile (p := isSlotChar) (l := rest)
        rw [htake, hdrop] at hrest
        refine ⟨List.cons_ne_nil c front, fun x hx => ?_, back, ?_⟩
        · exact List.mem_takeWhile_imp (htake ▸ hx)
        · rw [← hrest, marker]
          simp
      · cases h
    · cases h
  · rintro ⟨hne, hslot, rest, rfl⟩
    have hbrace : isSlotChar '\x7d' = false := by decide
    have htake : (name ++ '\x7d' :: '\x7d' :: rest).takeWhile isSlotChar = name := by
      rw [List.takeWhile_append_of_pos hslot, List.takeWhile_cons_of_neg (by simp [hbrace]), List.append_nil]
    have hdrop : (name ++ '\x7d' :: '\x7d' :: rest).dropWhile isSlotChar = '\x7d' :: '\x7d' :: rest := by
      rw [List.dropWhile_append_of_pos hslot, List.dropWhile_cons_of_neg (by simp [hbrace])]
    have ht : marker name ++ rest = '\x7b' :: '\x7b' :: (name ++ '\x7d' :: '\x7d' :: rest) := by simp [marker]
    rw [ht, slot?, htake, hdrop]
    cases name with
    | nil => exact absurd rfl hne
    | cons c front => rfl

/-- A slot needs a brace at the front. -/
theorem slot_of_ne {c : Char} (hc : c ≠ '\x7b') (t : Text) : slot? (c :: t) = none := by
  rw [Option.eq_none_iff_forall_ne_some]
  intro name h
  obtain ⟨-, -, rest, ht⟩ := (slot_eq_some_iff _ name).mp h
  exact hc (List.cons.inj ht).1

theorem length_of_slot {t name : Text} (h : slot? t = some name) : name.length + 4 ≤ t.length := by
  obtain ⟨-, -, rest, rfl⟩ := (slot_eq_some_iff t name).mp h
  simp [marker]

/-- **A slot stands on one line.** -/
theorem slot_append_newline (t rest : Text) : slot? (t ++ '\n' :: rest) = slot? t := by
  refine Option.ext fun name => ?_
  rw [slot_eq_some_iff, slot_eq_some_iff]
  refine and_congr_right fun _ => and_congr_right fun hslot => ⟨?_, ?_⟩
  · rintro ⟨more, h⟩
    rcases List.append_eq_append_iff.mp h with ⟨tail, hmarker, hnewline⟩ | ⟨tail, ht, -⟩
    · cases tail with
      | nil => exact ⟨[], by rw [hmarker]; simp⟩
      | cons c tail =>
        -- the newline would be a character of the marker
        obtain ⟨rfl, -⟩ := List.cons.inj hnewline
        have hmem : '\n' ∈ marker name := hmarker ▸ List.mem_append_right _ List.mem_cons_self
        rw [marker_eq] at hmem
        have : '\n' ∈ name := by simpa using hmem
        exact absurd (hslot _ this) (by decide)
    · exact ⟨tail, ht⟩
  · rintro ⟨more, rfl⟩
    exact ⟨more ++ '\n' :: rest, List.append_assoc _ _ _⟩

/-! ## Pieces -/

/-- The next piece is a slot, if one is at the front. -/
theorem piecesFrom_cons (c : Char) (t : Text) :
    piecesFrom 0 (c :: t) =
      match slot? (c :: t) with
      | some name => .slot name :: piecesFrom (name.length + 3) t
      | none => .char c :: piecesFrom 0 t := rfl

theorem pieces_cons_of_ne {c : Char} (hc : c ≠ '\x7b') (t : Text) : pieces (c :: t) = .char c :: pieces t := by
  rw [pieces, piecesFrom_cons, slot_of_ne hc]
  rfl

theorem piecesFrom_append_newline (skip : Nat) (t rest : Text) (h : skip ≤ t.length) :
    piecesFrom skip (t ++ '\n' :: rest) = piecesFrom skip t ++ .char '\n' :: pieces rest := by
  induction t generalizing skip with
  | nil =>
    obtain rfl : skip = 0 := Nat.le_zero.mp h
    exact pieces_cons_of_ne (by decide) rest
  | cons c t ih =>
    cases skip with
    | succ n => exact ih n (Nat.le_of_succ_le_succ h)
    | zero =>
      have hslot : slot? (c :: (t ++ '\n' :: rest)) = slot? (c :: t) := slot_append_newline (c :: t) rest
      rw [List.cons_append, piecesFrom_cons, piecesFrom_cons, hslot]
      cases hname : slot? (c :: t) with
      | none => exact congrArg (Piece.char c :: ·) (ih 0 (Nat.zero_le _))
      | some name =>
        have hlength : name.length + 3 ≤ t.length := Nat.le_of_succ_le_succ (length_of_slot hname)
        exact congrArg (Piece.slot name :: ·) (ih _ hlength)

/-- **The pieces of two lines.** -/
theorem pieces_append_newline (t rest : Text) : pieces (t ++ '\n' :: rest) = pieces t ++ .char '\n' :: pieces rest :=
  piecesFrom_append_newline 0 t rest (Nat.zero_le _)

/-- The pieces of a line are pieces of the text. -/
theorem mem_pieces_joinLines {p : Piece} {line : Text} {ls : List Text} (hline : line ∈ ls) (hp : p ∈ pieces line) :
    p ∈ pieces (Text.joinLines ls) := by
  unfold Text.joinLines
  induction ls with
  | nil => cases hline
  | cons first ls ih =>
    cases ls with
    | nil =>
      rw [List.mem_singleton] at hline
      exact hline ▸ hp
    | cons second ls =>
      rw [Text.joinWith, List.append_assoc, List.singleton_append, pieces_append_newline]
      · rcases List.mem_cons.mp hline with rfl | hline
        · exact List.mem_append_left _ hp
        · exact List.mem_append_right _ (List.mem_cons_of_mem _ (ih hline))
      · simp

theorem missingSlots_eq_nil_iff (t : Text) : missingSlots t = [] ↔ ∀ name ∈ requiredSlots, .slot name ∈ pieces t := by
  simp [missingSlots, List.filter_eq_nil_iff]

/-! ## The default template -/

end SourceDoc.Template

namespace SourceDoc

/-- The end of the default template stands on lines of its own. -/
theorem Html.defaultTemplate_eq :
    ∃ front, Html.defaultTemplate = front ++ '\n' :: Text.joinLines (Html.templateTail.map String.toList) := by
  obtain ⟨front, hstyle⟩ : ∃ front, Html.style = front ++ ['\n'] := by
    unfold Html.style
    rcases List.eq_nil_or_concat Html.styleRules with hrules | ⟨rules, last, hrules⟩
    · rw [hrules]
      exact ⟨[], rfl⟩
    · rw [hrules, List.concat_eq_append, List.flatMap_append, List.flatMap_singleton, ← List.append_assoc,
        ← List.cons_append]
      exact ⟨_, rfl⟩
  refine ⟨Text.joinLines (Html.templateHead.map String.toList) ++ front, ?_⟩
  rw [Html.defaultTemplate, hstyle]
  simp

/-- The slots on each line of the end of the default template. -/
def Html.tailSlots : List (List Text) :=
  [[], [], [], [], [], ["TITLE".toList], [], ["FILE_PATH".toList], ["LANGUAGE".toList], [], [], ["DESCRIPTION".toList],
    ["TABLE_OF_CONTENTS".toList], ["FUNCTIONS".toList], ["CLASSES".toList], ["EXPORTS".toList], ["USAGE".toList],
    ["NOTES".toList], ["GENERATED_DATE".toList], [], [], [], []]

/-- **The default template has all slots that it has to have.** -/
theorem Html.missingSlots_defaultTemplate : Template.missingSlots Html.defaultTemplate = [] := by
  have hlines : List.Forall₂ (fun line names => ∀ name ∈ names, .slot name ∈ Template.pieces line.toList)
      Html.templateTail Html.tailSlots := by
    unfold Html.templateTail Html.tailSlots
    repeat' refine .cons (of_literal (p := fun t => ∀ name ∈ _, .slot name ∈ Template.pieces t) (by decide)) ?_
    exact .nil
  have hnames : ∀ name ∈ Template.requiredSlots, ∃ names ∈ Html.tailSlots, name ∈ names := by decide
  rw [Template.missingSlots_eq_nil_iff]
  intro name hname
  obtain ⟨names, hnames, hmem⟩ := hnames name hname
  obtain ⟨line, hline, hslots⟩ := exists_mem_of_forall₂ hlines names hnames
  obtain ⟨front, hfront⟩ := Html.defaultTemplate_eq
  rw [hfront, Template.pieces_append_newline]
  have hpieces := Template.mem_pieces_joinLines (List.mem_map_of_mem hline) (hslots name hmem)
  exact List.mem_append_right _ (List.mem_cons_of_mem _ hpieces)

/-- No format lacks slots where there is no template. -/
theorem Renderer.missing_none (f : Format) : Renderer.missing ⟨f, none⟩ = [] := by
  unfold missing
  split
  · exact Html.missingSlots_defaultTemplate
  · rfl

/-- With all slots in the template and a time on the clock, the page of a document is written. -/
theorem Renderer.renderDocument_html {template? : Option Text} (hmissing : missing ⟨.html, template?⟩ = []) (d : Document)
    {c : Clock} {now : Text} (hc : c.read.1 = some now) :
    (renderDocument ⟨.html, template?⟩ d c).1 = .ok ⟨outputName d.path Format.html.extension,
      Html.documentPage (template?.getD Html.defaultTemplate) now d⟩ := by
  unfold renderDocument timed
  rw [hmissing]
  simp only [hc]
  rfl

theorem Html.documentPage_default_ne_nil (now : Text) (d : Document) :
    Html.documentPage Html.defaultTemplate now d ≠ [] := by
  obtain ⟨rest, hrest⟩ : ∃ rest, Html.defaultTemplate = '<' :: rest := ⟨_, rfl⟩
  rw [Html.documentPage, Template.fill, hrest, Template.pieces_cons_of_ne (by decide)]
  exact List.cons_ne_nil _ _

/-- **No page of a document is empty** where there is no template. -/
theorem Renderer.documentPage_ne_nil (f : Format) (now : Text) (d : Document) :
    Renderer.documentPage ⟨f, none⟩ now d ≠ [] := by
  cases f with
  | markdown => exact List.append_ne_nil_of_right_ne_nil _ (List.cons_ne_nil _ _)
  | html => exact Html.documentPage_default_ne_nil now d
  | json => exact List.append_ne_nil_of_right_ne_nil _ (List.cons_ne_nil _ _)

end SourceDoc
