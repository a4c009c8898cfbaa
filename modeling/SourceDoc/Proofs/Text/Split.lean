import SourceDoc.Proofs.Text.Quote

/-!
# Lists split and joined again

A list is cut at the separators outside brackets and quotes.  Behind a text after which nothing is open a separator
always cuts, and the pieces joined by the separator and a space are cut into the same pieces again, however brackets and
quotes stand in the text:

    splitTopLevel ',' (joinWith [',', ' '] (splitTopLevel ',' t)) = splitTopLevel ',' t      (splitTopLevel_canonical)

Every piece but the last ends where the scanner found a separator, so nothing is open behind it (`isRow_piecesFrom`).
The blanks at its ends stand outside quotes, so without them nothing is open behind it either (`isRow_stripped`).
-/

namespace SourceDoc.Text

variable {n : Nesting} {sep : Char} {t : Text}

/-! ## What the scanner can know -/

/-- The nesting can be reached: a backslash takes effect in quotes only, and only a quote can be open. -/
structure Nesting.IsReachable (n : Nesting) : Prop where
  escaped : n.isEscaped = true → n.quote ≠ none
  quote : ∀ q ∈ n.quote, isQuote q = true

theorem isReachable_start : Nesting.IsReachable {} where
  escaped h := by cases h
  quote q h := by cases h

theorem isReachable_next (h : n.IsReachable) (c : Char) : (n.next c).IsReachable := by
  obtain ⟨depth, quote, isEscaped⟩ := n
  cases quote with
  | some q =>
    have hq : ∀ q' ∈ some q, isQuote q' = true := h.quote
    simp only [Nesting.next]
    split
    · exact ⟨fun _ => Option.some_ne_none q, hq⟩
    · rename_i hescaped
      split
      · exact ⟨fun _ => Option.some_ne_none q, hq⟩
      · split
        · exact ⟨fun h' => absurd h' hescaped, fun q' h' => by cases h'⟩
        · exact ⟨fun _ => Option.some_ne_none q, hq⟩
  | none =>
    have hescaped : isEscaped ≠ true := fun h' => h.escaped h' rfl
    have hplain (depth : Nat) : Nesting.IsReachable ⟨depth, none, isEscaped⟩ :=
      ⟨fun h' => absurd h' hescaped, fun q h' => by cases h'⟩
    simp only [Nesting.next, Nesting.nextPlain]
    split
    · rename_i hquote
      refine ⟨fun h' => absurd h' hescaped, fun q hq => ?_⟩
      cases hq
      exact hquote
    · split
      · exact hplain _
      · split
        · exact hplain _
        · exact hplain _

theorem isReachable_foldl (h : n.IsReachable) (t : Text) : (t.foldl Nesting.next n).IsReachable := by
  induction t generalizing n with
  | nil => exact h
  | cons c t ih => exact ih (isReachable_next h c)

/-- At the top, outside brackets and quotes, the scanner knows what it knows at the start. -/
theorem eq_start_of_isTop (h : n.IsReachable) (htop : n.isTop = true) : n = {} := by
  obtain ⟨depth, quote, isEscaped⟩ := n
  simp only [Nesting.isTop, Bool.and_eq_true, Option.isNone_iff_eq_none, decide_eq_true_eq] at htop
  obtain ⟨rfl, rfl⟩ := htop
  have hescaped : isEscaped = false := Bool.eq_false_iff.mpr fun h' => h.escaped h' rfl
  rw [hescaped]

theorem isTop_of_separates {c : Char} (h : n.separates sep c = true) : n.isTop = true := by
  simp only [Nesting.separates, Bool.and_eq_true] at h
  exact h.1.1.1

/-! ## Blanks at the end -/

theorem isInert_of_isBlank {c : Char} (h : isBlank c = true) : IsInert c := isInert_of_class (by decide) h

/-- A blank does not close a quote. -/
theorem isSome_next_blank (h : n.IsReachable) (hquote : n.quote ≠ none) {c : Char} (hc : isBlank c = true) :
    (n.next c).quote ≠ none := by
  obtain ⟨depth, quote, isEscaped⟩ := n
  cases quote with
  | none => exact absurd rfl hquote
  | some q =>
    have hne : c ≠ q := by
      rintro rfl
      have hq : isQuote c = true := h.quote c rfl
      rw [(isInert_of_isBlank hc).1] at hq
      cases hq
    simp only [Nesting.next, if_neg hne]
    split
    · exact Option.some_ne_none q
    · split <;> exact Option.some_ne_none q

theorem isSome_foldl_blank (h : n.IsReachable) (hquote : n.quote ≠ none) (ht : isBlankText t = true) :
    (t.foldl Nesting.next n).quote ≠ none := by
  induction t generalizing n with
  | nil => exact hquote
  | cons c t ih =>
    obtain ⟨hc, ht⟩ := Bool.and_eq_true_iff.mp ht
    exact ih (isReachable_next h c) (isSome_next_blank h hquote hc) ht

/-- **If nothing is open behind a text and blanks, nothing is open in front of the blanks.** -/
theorem foldl_of_append_blank {gap : Text} (hn : n.IsReachable) (hgap : isBlankText gap = true)
    (h : (t ++ gap).foldl Nesting.next n = {}) : t.foldl Nesting.next n = {} := by
  rw [List.foldl_append] at h
  have hreach := isReachable_foldl hn t
  have hnone : (t.foldl Nesting.next n).quote = none := by
    by_cases hquote : (t.foldl Nesting.next n).quote = none
    · exact hquote
    · have := isSome_foldl_blank hreach hquote hgap
      rw [h] at this
      exact absurd rfl this
  rwa [foldl_inert (fun c hc => isInert_of_isBlank (List.all_eq_true.mp hgap c hc)) hnone] at h

/-! ## Texts without a separator at the top -/

/-- No separator stands outside brackets and quotes. -/
def isWhole (sep : Char) (n : Nesting) : Text → Bool
  | [] => true
  | c :: t => !n.separates sep c && isWhole sep (n.next c) t

theorem isWhole_append (a b : Text) :
    isWhole sep n (a ++ b) = (isWhole sep n a && isWhole sep (a.foldl Nesting.next n) b) := by
  induction a generalizing n with
  | nil => rfl
  | cons c a ih => rw [List.cons_append, isWhole, isWhole, ih, Bool.and_assoc, List.foldl_cons]

theorem piecesFrom_of_isWhole (h : isWhole sep n t = true) : piecesFrom sep n t = [t] := by
  induction t generalizing n with
  | nil => rfl
  | cons c t ih =>
    obtain ⟨hc, ht⟩ := Bool.and_eq_true_iff.mp h
    rw [piecesFrom, if_neg (by simpa using hc), ih ht]

/-! ## Rows of pieces -/

/-- No separator is at the top in the pieces of a list, and nothing is open behind any but the last. -/
def IsRow (sep : Char) (n : Nesting) : List Text → Prop
  | [] => True
  | piece :: more =>
    isWhole sep n piece = true ∧ (more ≠ [] → piece.foldl Nesting.next n = {}) ∧ IsRow sep {} more

/-- **The pieces of any text are a row.** -/
theorem isRow_piecesFrom (hn : n.IsReachable) (t : Text) : IsRow sep n (piecesFrom sep n t) := by
  induction t generalizing n with
  | nil => exact ⟨rfl, fun h => absurd rfl h, trivial⟩
  | cons c t ih =>
    rw [piecesFrom]
    split
    · rename_i hcut
      obtain rfl := eq_start_of_isTop hn (isTop_of_separates hcut)
      exact ⟨rfl, fun _ => rfl, ih hn⟩
    · rename_i hcut
      have hrow := ih (isReachable_next hn c)
      cases hpieces : piecesFrom sep (n.next c) t with
      | nil => exact absurd hpieces (piecesFrom_ne_nil _ _ _)
      | cons piece more =>
        rw [hpieces] at hrow
        obtain ⟨hwhole, hclosed, hmore⟩ := hrow
        refine ⟨?_, hclosed, hmore⟩
        rw [isWhole, hwhole, Bool.eq_false_iff.mpr hcut]
        rfl

/-- A text without the blanks around it, between those blanks. -/
theorem strip_split (t : Text) :
    ∃ front back, isBlankText front = true ∧ isBlankText back = true ∧ t = front ++ strip t ++ back := by
  obtain ⟨back, hback, hright⟩ := stripRight_append t
  obtain ⟨front, hfront, hleft⟩ := stripRight_split t
  refine ⟨front, back, hfront, hback, ?_⟩
  rw [← hleft, hright]

/-- **Without the blanks around its pieces, and without those that are empty then, a row is still a row.** -/
theorem isRow_stripped {pieces : List Text} (h : IsRow sep {} pieces) : IsRow sep {} (pieces.filterMap stripped?) := by
  induction pieces with
  | nil => trivial
  | cons piece more ih =>
    obtain ⟨hwhole, hclosed, hmore⟩ := h
    by_cases hnil : strip piece = []
    · rw [List.filterMap_cons, show stripped? piece = none by unfold stripped?; rw [hnil]]
      exact ih hmore
    · rw [List.filterMap_cons, stripped_of_strip rfl hnil]
      obtain ⟨front, back, hfront, hback, hpiece⟩ := strip_split piece
      have hstart : front.foldl Nesting.next {} = {} :=
        foldl_inert (fun c hc => isInert_of_isBlank (List.all_eq_true.mp hfront c hc)) rfl
      refine ⟨?_, fun hne => ?_, ih hmore⟩
      · rw [hpiece, isWhole_append, isWhole_append, hstart, Bool.and_eq_true, Bool.and_eq_true] at hwhole
        exact hwhole.1.2
      · -- what closes the piece stands in front of the blanks behind it
        have hend := hclosed fun hnil => hne (by rw [hnil]; rfl)
        rw [hpiece] at hend
        have hfirst := foldl_of_append_blank isReachable_start hback hend
        rwa [List.foldl_append, hstart] at hfirst

/-! ## Joined again -/

theorem splitTopLevel_blank (hsep : isBlank sep = false) {c : Char} (hc : isBlank c = true) (t : Text) :
    splitTopLevel sep (c :: t) = splitTopLevel sep t := by
  have hne : ¬ Nesting.separates {} sep c = true := fun h => by
    rw [← (eq_of_separates h).1, hc] at hsep
    cases hsep
  have hnext : Nesting.next {} c = {} := nextPlain_inert (isInert_of_isBlank hc) {}
  have hblank : isBlankText [c] = true := by simp [isBlankText, hc]
  unfold splitTopLevel
  rw [piecesFrom, if_neg hne, hnext]
  cases hpieces : piecesFrom sep {} t with
  | nil => exact absurd hpieces (piecesFrom_ne_nil _ _ _)
  | cons piece more =>
    have hstrip : stripped? (c :: piece) = stripped? piece := by
      unfold stripped?
      rw [show strip (c :: piece) = strip piece from strip_blank_append piece hblank]
    simp only [List.filterMap_cons, hstrip]

theorem splitTopLevel_of_isWhole (h : isWhole sep {} t = true) (hstrip : strip t = t) (hne : t ≠ []) :
    splitTopLevel sep t = [t] := by
  unfold splitTopLevel
  rw [piecesFrom_of_isWhole h, List.filterMap_cons, stripped_of_strip hstrip hne]
  rfl

/-- **A row of pieces without blanks around them is read off the text that they are joined to.** -/
theorem splitTopLevel_row (hsep : IsInert sep) (hblank : isBlank sep = false) {pieces : List Text}
    (hrow : IsRow sep {} pieces) (h : ∀ piece ∈ pieces, strip piece = piece ∧ piece ≠ []) :
    splitTopLevel sep (joinWith [sep, ' '] pieces) = pieces := by
  induction pieces with
  | nil => rfl
  | cons piece more ih =>
    obtain ⟨hwhole, hclosed, hmore⟩ := hrow
    obtain ⟨⟨hstrip, hne⟩, h⟩ := List.forall_mem_cons.mp h
    have hone := splitTopLevel_of_isWhole hwhole hstrip hne
    by_cases hlast : more = []
    · rw [hlast]
      exact hone
    · calc
        splitTopLevel sep (joinWith [sep, ' '] (piece :: more))
        _ = splitTopLevel sep (piece ++ sep :: ' ' :: joinWith [sep, ' '] more) := by
          rw [joinWith_cons _ _ _ hlast, List.append_assoc]
          rfl
        _ = [piece] ++ splitTopLevel sep (' ' :: joinWith [sep, ' '] more) := by
          rw [splitTopLevel_append hsep (hclosed hlast), hone]
        _ = piece :: more := by
          rw [splitTopLevel_blank hblank (by decide), ih hmore h]
          rfl

/-- A piece has something in it, but no blanks around it. -/
theorem stripped_of_mem_split {piece : Text} (h : piece ∈ splitTopLevel sep t) : strip piece = piece ∧ piece ≠ [] := by
  obtain ⟨raw, -, hraw⟩ := List.mem_filterMap.mp h
  unfold stripped? at hraw
  split at hraw
  · cases hraw
  · rename_i c rest hstrip
    cases hraw
    exact ⟨by rw [← hstrip, strip_strip], List.cons_ne_nil c rest⟩

/-- **Splitting is a homomorphism, and its pieces joined again are split as before.**  A comma behind a text after which
neither a bracket nor a quote is open always cuts; the pieces of any text are not empty and have no blanks around them,
and with a comma and a space between neighbours they are cut into the same pieces. -/
theorem splitTopLevel_canonical :
    (∀ a b : Text, (a.foldl Nesting.next {}).isTop = true →
      splitTopLevel ',' (a ++ ',' :: b) = splitTopLevel ',' a ++ splitTopLevel ',' b) ∧
    ∀ t : Text, (∀ piece ∈ splitTopLevel ',' t, piece ≠ [] ∧ strip piece = piece) ∧
      splitTopLevel ',' (joinWith [',', ' '] (splitTopLevel ',' t)) = splitTopLevel ',' t := by
  refine ⟨fun a b htop => ?_, fun t => ⟨fun piece hpiece => (stripped_of_mem_split hpiece).symm, ?_⟩⟩
  · have hclosed := eq_start_of_isTop (isReachable_foldl isReachable_start a) htop
    exact splitTopLevel_append (by decide) hclosed b
  · have hrow : IsRow ',' {} (splitTopLevel ',' t) := isRow_stripped (isRow_piecesFrom isReachable_start t)
    exact splitTopLevel_row (by decide) (by decide) hrow fun piece hpiece => stripped_of_mem_split hpiece

theorem splitTopLevel_canonical_sample :
    ((",(a, \"\\\",\")]".toList).foldl Nesting.next {}).isTop = true ∧
      splitTopLevel ',' (",(a, \"\\\",\")],[b , c".toList) =
        splitTopLevel ',' ",(a, \"\\\",\")]".toList ++ splitTopLevel ',' "[b , c".toList ∧
      splitTopLevel ',' (joinWith [',', ' '] (splitTopLevel ',' "), a ,, '(b , c ".toList)) =
        splitTopLevel ',' "), a ,, '(b , c ".toList ∧
      splitTopLevel ',' "), a ,, '(b , c ".toList = [[')'], ['a'], "'(b , c".toList] :=
  have htop : ((",(a, \"\\\",\")]".toList).foldl Nesting.next {}).isTop = true := by decide
  ⟨htop, splitTopLevel_canonical.1 _ _ htop, (splitTopLevel_canonical.2 _).2, by decide⟩

end SourceDoc.Text
