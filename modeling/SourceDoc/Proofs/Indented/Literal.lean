import SourceDoc.Proofs.Indented.Overrun
import SourceDoc.Proofs.Indented.Signature
import SourceDoc.Proofs.Text.Quote

/-!
# Headers with quoted texts

The list of parameters is split by a scanner that knows escapes, but the reader of headers, the search for the bracket
that closes the parameters and the search for an initial value know none.  So a function on one line is read with the
parameters between its brackets exactly if these are closed for the scanners without escapes, as they are where no quote
is escaped; and then the initial values are what follows the first equals sign outside brackets and quotes
(`extract_definition`).
-/

namespace SourceDoc.Indented

open Text

/-! ## Closed texts in a header -/

section

variable {n n' : Text.Nesting} {t : Text}

theorem isTextQuote_eq {c : Char} (hc : c ≠ '\x60') : isTextQuote c = isQuote c := by
  simp [isTextQuote, isQuote, hc]

theorem isQuote_of_isClosing {c : Char} (hc : isClosing c = true) : isQuote c = false := by
  simp only [isClosing, Bool.or_eq_true, decide_eq_true_eq] at hc
  rcases hc with (rfl | rfl) | rfl <;> rfl

theorem isOpening_of_isClosing {c : Char} (hc : isClosing c = true) : isOpening c = false := by
  simp only [isClosing, Bool.or_eq_true, decide_eq_true_eq] at hc
  rcases hc with (rfl | rfl) | rfl <;> rfl

/-- A bracket in front of which none is open is where the search ends; all else is passed over without escapes. -/
theorem breakClosing_cons {c : Char} (hc : c ≠ '\x60') (n : Text.Nesting) (t : Text) :
    breakClosing? isTextQuote (n.depth + 1) n.quote (c :: t) =
      if n.isTop && isClosing c then some ([], t)
      else
        (breakClosing? isTextQuote ((n.nextUnescaped c).depth + 1) (n.nextUnescaped c).quote t).map
          fun (before, after) => (c :: before, after) := by
  obtain ⟨depth, quote, isEscaped⟩ := n
  cases quote with
  | some q =>
    simp only [breakClosing?, Nesting.isTop, Nesting.nextUnescaped, Option.isNone_some, Bool.false_and,
      Bool.false_eq_true, if_false]
    split <;> rfl
  | none =>
    simp only [breakClosing?, Nesting.isTop, Nesting.nextUnescaped, Nesting.nextPlain, isTextQuote_eq hc,
      Option.isNone_none, Bool.true_and, Bool.and_eq_true, decide_eq_true_eq]
    by_cases hclosing : isClosing c = true
    · simp only [isQuote_of_isClosing hclosing, isOpening_of_isClosing hclosing, hclosing]
      by_cases hdepth : depth = 0
      · simp [hdepth]
      · have hsucc : depth - 1 + 1 = depth := Nat.sub_add_cancel (Nat.pos_of_ne_zero hdepth)
        simp [hdepth, hsucc]
    · simp only [hclosing, Bool.false_eq_true, and_false, if_false]
      split
      · rfl
      · split <;> rfl

theorem breakClosing_passes (ht : '\x60' ∉ t) (h : passes? Nesting.nextUnescaped n t = some n') (rest : Text) :
    breakClosing? isTextQuote (n.depth + 1) n.quote (t ++ rest) =
      (breakClosing? isTextQuote (n'.depth + 1) n'.quote rest).map fun (before, after) => (t ++ before, after) := by
  induction t generalizing n with
  | nil =>
    cases h
    exact Option.map_id'.symm
  | cons c t ih =>
    rw [List.mem_cons, not_or] at ht
    rw [passes?] at h
    split at h
    · cases h
    · rename_i hopen
      rw [List.cons_append, breakClosing_cons (Ne.symm ht.1), if_neg hopen, ih ht.2 h, Option.map_map]
      rfl

/-- **The bracket behind a closed text is the one that closes.** -/
theorem breakClosing_closed (ht : '\x60' ∉ t) (h : IsClosedBy Nesting.nextUnescaped t) (rest : Text) :
    breakClosing? isTextQuote 1 none (t ++ ')' :: rest) = some (t, rest) := by
  have hpasses := breakClosing_passes ht h (')' :: rest)
  rw [breakClosing_cons (by decide), if_pos (by decide)] at hpasses
  simpa using hpasses

theorem append_of_breakClosing {depth : Nat} {quote : Option Char} {inner after : Text}
    (h : breakClosing? isTextQuote depth quote t = some (inner, after)) :
    ∃ c, isClosing c = true ∧ t = inner ++ c :: after := by
  induction t generalizing depth quote inner with
  | nil => cases h
  | cons c t ih =>
    have hmore : ∀ {depth' : Nat} {quote' : Option Char},
        (breakClosing? isTextQuote depth' quote' t).map (fun (before, after) => (c :: before, after)) =
          some (inner, after) → ∃ d, isClosing d = true ∧ c :: t = inner ++ d :: after := by
      intro depth' quote' hfound
      obtain ⟨⟨inner', after'⟩, hrest, he⟩ := Option.map_eq_some_iff.mp hfound
      cases he
      obtain ⟨d, hd, rfl⟩ := ih hrest
      exact ⟨d, hd, rfl⟩
    cases quote with
    | some q => exact hmore h
    | none =>
      rw [breakClosing?] at h
      split at h
      · exact hmore h
      · split at h
        · exact hmore h
        · split at h
          · rename_i hclosing
            split at h
            · cases h
              exact ⟨c, hclosing, rfl⟩
            · exact hmore h
          · exact hmore h

theorem isEscaped_nextUnescaped (n : Text.Nesting) (c : Char) : (n.nextUnescaped c).isEscaped = n.isEscaped := by
  unfold Nesting.nextUnescaped Nesting.nextPlain
  split
  · split <;> rfl
  · split
    · rfl
    · split
      · rfl
      · split <;> rfl

/-- **What is found in front of a closing bracket is closed.** -/
theorem passes_of_breakClosing (hn : n.isEscaped = false) {inner after : Text} (hinner : '\x60' ∉ inner)
    (h : breakClosing? isTextQuote (n.depth + 1) n.quote t = some (inner, after)) :
    passes? Nesting.nextUnescaped n inner = some {} := by
  induction t generalizing n inner with
  | nil => cases h
  | cons c t ih =>
    obtain ⟨d, hd, hsplit⟩ := append_of_breakClosing h
    have hc : c ≠ '\x60' := by
      rintro rfl
      cases inner with
      | nil =>
        cases hsplit
        cases hd
      | cons e inner =>
        cases hsplit
        exact hinner List.mem_cons_self
    rw [breakClosing_cons hc] at h
    split at h
    · rename_i htop
      cases h
      obtain ⟨depth, quote, isEscaped⟩ := n
      simp only [Nesting.isTop, Bool.and_eq_true, Option.isNone_iff_eq_none, decide_eq_true_eq] at htop hn
      obtain ⟨⟨rfl, rfl⟩, -⟩ := htop
      cases hn
      rfl
    · rename_i hopen
      obtain ⟨⟨inner', after'⟩, hrest, he⟩ := Option.map_eq_some_iff.mp h
      cases he
      rw [List.mem_cons, not_or] at hinner
      rw [passes?, if_neg hopen]
      exact ih ((isEscaped_nextUnescaped n c).trans hn) hinner.2 hrest

/-- **A closed text inside brackets is passed over by the reader of headers.** -/
theorem headerLine_passes (ht : ∀ c ∈ t, c ∉ ['#', '\x60']) (h : passes? Nesting.nextUnescaped n t = some n')
    (rest : Text) :
    headerLine (n.depth + 1) n.quote (t ++ rest) = (headerLine (n'.depth + 1) n'.quote rest).prepend t := by
  induction t generalizing n with
  | nil =>
    cases h
    rw [List.nil_append]
    cases headerLine (n'.depth + 1) n'.quote rest <;> rfl
  | cons c t ih =>
    obtain ⟨hc, ht⟩ := List.forall_mem_cons.mp ht
    rw [passes?] at h
    split at h
    · cases h
    · rename_i hopen
      have hmore : (headerLine ((n.nextUnescaped c).depth + 1) (n.nextUnescaped c).quote (t ++ rest)).cons c =
          (headerLine (n'.depth + 1) n'.quote rest).prepend (c :: t) := by
        rw [ih ht h]
        cases headerLine (n'.depth + 1) n'.quote rest <;> rfl
      rw [← hmore, List.cons_append]
      simp only [List.mem_cons, List.not_mem_nil, or_false, not_or] at hc
      obtain ⟨depth, quote, isEscaped⟩ := n
      cases quote with
      | some q =>
        simp only [headerLine, Nesting.nextUnescaped]
        split <;> rfl
      | none =>
        have hcolon : ¬ (c = ':' ∧ (depth : Int) + 1 = 0) := fun h => by omega
        have hquote : (c = '"' ∨ c = '\'') ↔ isQuote c = true := by
          rw [← isTextQuote_eq hc.2]
          simp [isTextQuote]
        simp only [headerLine, hquote, hc.1, hcolon, if_false, Nesting.nextUnescaped, Nesting.nextPlain]
        split
        · rfl
        · split
          · rfl
          · split
            · rename_i hclosing
              have hdepth : depth ≠ 0 := by
                rintro rfl
                exact hopen (by simp [Nesting.isTop, hclosing])
              have hcast : ((depth - 1 : Nat) : Int) + 1 = (depth : Int) + 1 - 1 := by omega
              rw [hcast]
            · rfl

end

/-! ## Closing brackets in parameters -/

/-- The closing brackets in a text. -/
def closings (t : Text) : Nat := t.countP isClosing

/-- The closing brackets in the texts of a parameter. -/
def parameterClosings (p : Parameter) : Nat :=
  closings p.name + (p.type.elim 0 closings + p.initial.elim 0 closings)

theorem closings_of_isBlankText {t : Text} (h : isBlankText t = true) : closings t = 0 := by
  refine List.countP_eq_zero.mpr fun c hc hclosing => ?_
  have hblank : isBlank c = true := List.all_eq_true.mp h c hc
  simp only [isClosing, Bool.or_eq_true, decide_eq_true_eq] at hclosing
  rcases hclosing with (rfl | rfl) | rfl <;> cases hblank

theorem closings_append (a b : Text) : closings (a ++ b) = closings a + closings b := List.countP_append

theorem closings_strip (t : Text) : closings (strip t) = closings t := by
  obtain ⟨right, hright, ht⟩ := stripRight_append t
  obtain ⟨left, hleft, hsplit⟩ := stripRight_split t
  rw [← congrArg closings ht, hsplit, closings_append, closings_append, closings_of_isBlankText hleft,
    closings_of_isBlankText hright, Nat.zero_add, Nat.add_zero]

theorem closings_stripped (t : Text) : (stripped? t).elim 0 closings = closings t := by
  rw [← closings_strip t]
  unfold stripped?
  split
  · rename_i h
    rw [h]
    rfl
  · rename_i h
    rw [h]
    rfl

theorem closings_splitOnce (sep : Char) (hsep : isClosing sep = false) (t : Text) :
    closings (splitOnceTopLevel sep t).1 + (splitOnceTopLevel sep t).2.elim 0 closings = closings t := by
  unfold splitOnceTopLevel
  cases h : breakTopLevel? sep {} t with
  | none => rfl
  | some found =>
    have hcons : closings (sep :: found.2) = closings found.2 := List.countP_cons_of_neg (by simp [hsep])
    rw [append_of_breakTopLevel h, closings_append, hcons]
    rfl

theorem closings_parameterOf (piece : Text) : parameterClosings (parameterOf piece) = closings piece := by
  have hbind : ∀ t? : Option Text, (t?.bind stripped?).elim 0 closings = t?.elim 0 closings := by
    intro t?
    cases t? with
    | none => rfl
    | some t => exact closings_stripped t
  have hinitial := closings_splitOnce '=' rfl piece
  have htype := closings_splitOnce ':' rfl (splitOnceTopLevel '=' piece).1
  unfold parameterClosings parameterOf
  simp only [hbind, closings_strip]
  omega

/-- **No closing bracket is lost in the parameters.** -/
theorem closings_parametersOf (t : Text) : ((parametersOf t).map parameterClosings).sum = closings t := by
  have hpieces : ∀ pieces : List Text,
      ((((pieces.filterMap stripped?).filter fun piece => piece ≠ ['*'] ∧ piece ≠ ['/']).map parameterOf).map
        parameterClosings).sum = (pieces.map closings).sum := by
    intro pieces
    induction pieces with
    | nil => rfl
    | cons piece pieces ih =>
      have hpiece := closings_stripped piece
      rw [List.map_cons, List.sum_cons, ← ih, ← hpiece, List.filterMap_cons]
      cases stripped? piece with
      | none => simp
      | some item =>
        simp only
        by_cases hmark : item ≠ ['*'] ∧ item ≠ ['/']
        · rw [List.filter_cons_of_pos (by simpa using hmark), List.map_cons, List.map_cons, List.sum_cons,
            closings_parameterOf]
          rfl
        · have hnone : closings item = 0 := by
            rw [not_and_or, not_not, not_not] at hmark
            rcases hmark with rfl | rfl <;> rfl
          rw [List.filter_cons_of_neg (by simpa using hmark)]
          simp [hnone]
  exact (hpieces _).trans (countP_pieces rfl {} t)

/-! ## A function with its header on one line -/

/-- A function with the text between its brackets on one line, and the lines below it. -/
def definition (name text : Text) (body : List Text) : Text :=
  joinLines (("def ".toList ++ name ++ '(' :: (text ++ "):".toList)) :: body)

/-- The text can stand between the brackets of a header on one line: it has no comment, and all its quotes and brackets
are closed, where a backslash in quotes takes the meaning from the character after it. -/
structure IsParameterText (t : Text) : Prop where
  bare : ∀ c ∈ t, c ∉ ['#', '\x60', '\n']
  closed : IsClosedBy Nesting.next t

instance (t : Text) : Decidable (IsParameterText t) :=
  decidable_of_iff ((∀ c ∈ t, c ∉ ['#', '\x60', '\n']) ∧ IsClosedBy Nesting.next t)
    ⟨fun ⟨hbare, hclosed⟩ => ⟨hbare, hclosed⟩, fun h => ⟨h.bare, h.closed⟩⟩

/-- The line is blank or indented. -/
def IsBodyLine (line : Text) : Prop := '\n' ∉ line ∧ (isBlankText line = true ∨ indentation line ≠ 0)

instance (line : Text) : Decidable (IsBodyLine line) := inferInstanceAs (Decidable (_ ∧ _))

/-- A function of which no more is known than its name. -/
def functionNamed (name : Text) : FunctionDecl := { name := name }

/-- What stands on a line behind the bracket that opens the parameters. -/
def headerEnd (text : Text) : Text := text ++ [')', ':']

theorem headerLine_cases (depth : Int) (quote : Option Char) {t : Text} (ht : '#' ∉ t) :
    (∃ u, headerLine depth quote t = .closed u ∧ u ++ [':'] <+: t) ∨ ∃ d, headerLine depth quote t = .goesOn t d := by
  induction t generalizing depth quote with
  | nil => exact .inr ⟨depth, rfl⟩
  | cons c t ih =>
    rw [List.mem_cons, not_or] at ht
    have hmore : ∀ (depth' : Int) (quote' : Option Char),
        (∃ u, (headerLine depth' quote' t).cons c = .closed u ∧ u ++ [':'] <+: c :: t) ∨
          ∃ d, (headerLine depth' quote' t).cons c = .goesOn (c :: t) d := by
      intro depth' quote'
      rcases ih depth' quote' ht.2 with ⟨u, hu, hprefix⟩ | ⟨d, hd⟩
      · rw [hu]
        exact .inl ⟨c :: u, rfl, List.cons_prefix_cons.mpr ⟨rfl, hprefix⟩⟩
      · rw [hd]
        exact .inr ⟨d, rfl⟩
    cases quote with
    | some q => exact hmore depth _
    | none =>
      rw [headerLine, if_neg (Ne.symm ht.1)]
      split
      · exact hmore _ _
      · split
        · exact hmore _ _
        · split
          · exact hmore _ _
          · split
            · rename_i hcolon
              rw [hcolon.1]
              exact .inl ⟨[], rfl, List.cons_prefix_cons.mpr ⟨rfl, List.nil_prefix⟩⟩
            · exact hmore _ _

section

variable {name text : Text} {body : List Text}

theorem joinWith_filter_cons {first : Text} (h : first ≠ []) (more : List Text) :
    ∃ below, joinWith [' '] ((first :: more).filter (· ≠ [])) = first ++ below := by
  rw [List.filter_cons, if_pos (decide_eq_true h)]
  cases more.filter (· ≠ []) with
  | nil => exact ⟨[], (List.append_nil first).symm⟩
  | cons piece pieces => exact ⟨_, (joinWith_cons _ _ _ (List.cons_ne_nil _ _)).trans (List.append_assoc _ _ _)⟩

theorem lines_definition (hname : isIdentifier name = true) (htext : '\n' ∉ text)
    (hbody : ∀ line ∈ body, IsBodyLine line) :
    Text.lines (definition name text body) = (opening (functionNamed name) ++ headerEnd text) :: body := by
  have hheader : "def ".toList ++ name ++ '(' :: (text ++ "):".toList) =
      opening (functionNamed name) ++ headerEnd text := by simp [opening, functionNamed, headerEnd]
  unfold definition
  rw [hheader]
  refine lines_joinLines (List.cons_ne_nil _ _) (List.forall_mem_cons.mpr ⟨?_, fun line hline => (hbody line hline).1⟩)
  rw [List.mem_append, headerEnd, List.mem_append]
  exact not_or.mpr ⟨newline_not_mem (isSolid_opening hname), not_or.mpr ⟨htext, by decide⟩⟩

theorem headerLine_opening (hname : isIdentifier name = true) (rest : Text) :
    headerLine 0 none (opening (functionNamed name) ++ rest) =
      (headerLine 1 none rest).prepend (opening (functionNamed name)) :=
  headerLine_append (List.mem_singleton_self ':') (not_mark_opening hname) (openAfter_opening hname) rest

/-- The line of a header neither starts nor ends with a blank. -/
theorem strip_headerEnd (hname : isIdentifier name = true) (text : Text) :
    strip (opening (functionNamed name) ++ headerEnd text) = opening (functionNamed name) ++ headerEnd text := by
  have hopening := isSolid_opening (f := functionNamed name) hname
  have := strip_append_self hopening.stripped hopening.ne_nil (b := [')', ':']) (by decide) (by decide) text
  rwa [List.append_assoc] at this

/-- **A function with a closed text between its brackets is read with that text.** -/
theorem read_closed (hname : isIdentifier name = true) (htext : ∀ c ∈ text, c ∉ ['#', '\x60'])
    (h : IsClosedBy Nesting.nextUnescaped text) (body : List Text) :
    FunctionHeader.read? ((opening (functionNamed name) ++ headerEnd text) :: body) =
      some ⟨⟨false, name, text ++ [')']⟩, text, none, 0⟩ := by
  have hquote : '\x60' ∉ text := fun hmem => htext _ hmem (by decide)
  have hopening := isSolid_opening (f := functionNamed name) hname
  have hline : headerLine 1 none (headerEnd text) = .closed (text ++ [')']) := by
    have hpasses := headerLine_passes htext h [')', ':']
    exact hpasses.trans rfl
  have hheader : Header.read? ((opening (functionNamed name) ++ headerEnd text) :: body) =
      some ⟨opening (functionNamed name) ++ (text ++ [')']), 0⟩ := by
    have hstrip := strip_append_self hopening.stripped hopening.ne_nil (b := [')']) (by decide) (by decide) text
    rw [List.append_assoc] at hstrip
    show (headerPieces? (63 + 1) 0 _).map _ = _
    rw [headerPieces?, strip_headerEnd hname, headerLine_opening hname, hline]
    simp [HeaderLine.prepend, joinWith, hstrip]
  have hclose := breakClosing_closed hquote h []
  unfold FunctionHeader.read?
  rw [hheader, Option.bind_some, functionStart_opening (f := functionNamed name) hname, Option.bind_some, hclose]
  rfl

/-- However far a header is read, behind its opening bracket stand the text and a bracket, or a part of them. -/
theorem read_cases (hname : isIdentifier name = true) (htext : '#' ∉ text) {header : Header}
    (h : Header.read? ((opening (functionNamed name) ++ headerEnd text) :: body) = some header) :
    ∃ rest, header.text = opening (functionNamed name) ++ rest ∧
      (rest <+: text ++ [')'] ∨ text ++ [')'] <+: rest) := by
  have hopening := isSolid_opening (f := functionNamed name) hname
  obtain ⟨⟨pieces, k⟩, hpieces, rfl⟩ := Option.map_eq_some_iff.mp h
  change headerPieces? (63 + 1) 0 _ = _ at hpieces
  rw [headerPieces?, strip_headerEnd hname, headerLine_opening hname] at hpieces
  have hend : '#' ∉ headerEnd text := by
    rw [headerEnd, List.mem_append]
    exact not_or.mpr ⟨htext, by decide⟩
  rcases headerLine_cases 1 none hend with ⟨u, hu, hprefix⟩ | ⟨d, hd⟩
  · rw [hu] at hpieces
    cases hpieces
    have hne : opening (functionNamed name) ++ u ≠ [] := by simp [hopening.ne_nil]
    have hshort : u <+: text ++ [')'] := by
      have hwhole : u ++ [':'] <+: (text ++ [')']) ++ [':'] := by
        rw [List.append_assoc]
        exact hprefix
      rcases List.prefix_concat_iff.mp hwhole with he | hless
      · exact (List.append_inj_left' he rfl) ▸ List.prefix_refl _
      · exact (List.prefix_append u [':']).trans hless
    refine ⟨stripRight u, ?_, .inl ((stripRight_within u).trans hshort)⟩
    simp [hne, joinWith, strip_append_right hopening.stripped hopening.ne_nil]
  · rw [hd] at hpieces
    obtain ⟨⟨more, k'⟩, -, he⟩ := Option.map_eq_some_iff.mp hpieces
    cases he
    have hline := strip_headerEnd hname text
    have hne : opening (functionNamed name) ++ headerEnd text ≠ [] := by simp [hopening.ne_nil]
    obtain ⟨below, hbelow⟩ := joinWith_filter_cons hne more
    refine ⟨headerEnd text ++ stripRight below, ?_, .inr ?_⟩
    · show strip (joinWith [' '] _) = _
      rw [hbelow, strip_append_right hline hne, List.append_assoc]
    · rw [headerEnd, List.append_assoc, List.prefix_append_right_inj]
      exact List.cons_prefix_cons.mpr ⟨rfl, List.nil_prefix⟩

/-- Of two texts with as many closing brackets, neither goes on where the other has ended with one more. -/
theorem eq_of_closings {a b rest : Text} {x y : Char} (hx : isClosing x = true) (hy : isClosing y = true)
    (ha : a ++ [x] <+: rest) (hb : rest <+: b ++ [y] ∨ b ++ [y] <+: rest) (h : closings a = closings b) : a = b := by
  have hcases : ∀ {a b : Text} {x y : Char}, isClosing x = true → a ++ [x] <+: b ++ [y] → closings a = closings b →
      a = b := by
    intro a b x y hx hprefix h
    rcases List.prefix_concat_iff.mp hprefix with he | hless
    · exact List.append_inj_left' he rfl
    · have hle : closings (a ++ [x]) ≤ closings b := hless.sublist.countP_le
      have hone : closings [x] = 1 := List.countP_singleton.trans (if_pos hx)
      rw [closings_append, hone] at hle
      omega
  have hcomparable : a ++ [x] <+: b ++ [y] ∨ b ++ [y] <+: a ++ [x] := by
    rcases hb with hb | hb
    · exact .inl (ha.trans hb)
    · exact List.prefix_or_prefix_of_prefix ha hb
  rcases hcomparable with hless | hless
  · exact hcases hx hless h
  · exact (hcases hy hless h.symm).symm

/-- **A function that is read with the parameters of a text has a closed text between its brackets.** -/
theorem closed_of_read (hname : isIdentifier name = true) (htext : ∀ c ∈ text, c ∉ ['#', '\x60'])
    {header : FunctionHeader}
    (h : FunctionHeader.read? ((opening (functionNamed name) ++ headerEnd text) :: body) = some header)
    (hparameters : parametersOf header.parameters = parametersOf text) : IsClosedBy Nesting.nextUnescaped text := by
  obtain ⟨whole, hwhole, h⟩ := Option.bind_eq_some_iff.mp h
  obtain ⟨rest, hrest, hends⟩ := read_cases hname (fun hmem => htext _ hmem (by decide)) hwhole
  rw [hrest, functionStart_opening (f := functionNamed name) hname, Option.bind_some] at h
  obtain ⟨⟨inner, after⟩, hinner, h⟩ := Option.bind_eq_some_iff.mp h
  obtain ⟨returns, -, rfl⟩ := Option.map_eq_some_iff.mp h
  obtain ⟨c, hc, hsplit⟩ := append_of_breakClosing hinner
  have hprefix : inner ++ [c] <+: rest := ⟨after, (List.append_assoc _ _ _).trans hsplit.symm⟩
  have hclosings : closings inner = closings text := by
    rw [← closings_parametersOf, ← closings_parametersOf]
    exact congrArg (fun ps => (ps.map parameterClosings).sum) hparameters
  obtain rfl := eq_of_closings hc rfl hprefix hends hclosings
  exact passes_of_breakClosing (n := {}) rfl (fun hmem => htext _ hmem (by decide)) hinner

end

/-- **A function on one line is read with the parameters between its brackets exactly if these are closed without
escapes,** as they are where no quote is escaped; and a parameter has the initial value that is written if no quote is
escaped in front of it. -/
theorem extract_definition {name text : Text} {body : List Text} (hname : isIdentifier name = true)
    (htext : IsParameterText text) (hbody : ∀ line ∈ body, IsBodyLine line) (path : Text) :
    ∃ o, (Extractor.builtIn .python).extract path (definition name text body) = .ok o ∧
      ((∃ f, o.decls = [.function f] ∧ f.name = name ∧ f.parameters = parametersOf text) ↔
        IsClosedBy Nesting.nextUnescaped text) ∧
      (escapesQuote {} text = false → IsClosedBy Nesting.nextUnescaped text) ∧
      ∀ piece ∈ splitTopLevel ',' text, escapesQuote {} (splitOnceEscaped '=' {} piece).1 = false →
        (parameterOf piece).initial = (splitOnceEscaped '=' {} piece).2.bind stripped? := by
  have hline : '\n' ∉ text := fun hmem => htext.bare _ hmem (by decide)
  have hplain : ∀ c ∈ text, c ∉ ['#', '\x60'] := fun c hc hmem =>
    htext.bare c hc (List.mem_append_left ['\n'] hmem)
  have hinner : ∀ line ∈ body, IsInner line ∨ indentation line ≠ 0 := fun line hmem =>
    (hbody line hmem).2.imp_left .inl
  generalize htotal : (boundaryLines (definition name text body)).length = total
  have hsymbols := symbolsOf_first (symbolAt_opening (f := functionNamed name) hname (headerEnd text) body total) hinner
  have hread := (congrArg₂ symbolsOf (lines_definition hname hline hbody) htotal).trans hsymbols
  refine ⟨_, (extract_eq_ok_iff path _ _).mpr ⟨_, hread, rfl⟩, ⟨?_, fun hopen => ?_⟩,
    closed_of_not_escapes htext.closed, ?_⟩
  · rintro ⟨f, hdecls, -, hparameters⟩
    obtain ⟨f', hf', he⟩ := Option.map_eq_some_iff.mp (Option.toList_eq_singleton_iff.mp hdecls)
    cases he
    obtain ⟨header, hheader, rfl⟩ := Option.map_eq_some_iff.mp hf'
    exact closed_of_read hname hplain hheader hparameters
  · have hheader := read_closed hname hplain hopen body
    unfold functionAt?
    rw [List.drop_zero, hheader]
    exact ⟨_, rfl, rfl, rfl⟩
  · intro piece _ hescape
    unfold parameterOf
    rw [splitOnce_of_not_escapes hescape]

/-- Two parameters whose initial values have separators, brackets and escaped quotes in quotes. -/
def quotedParameters : Text := "a=\"x, (y=1)\", *, b: str = f('\\'\\'')".toList

/-- The lines below the header of a function that does nothing. -/
def emptyBody : List Text := ["    pass".toList, []]

theorem extract_definition_sample :
    ∃ o f, (Extractor.builtIn .python).extract [] (definition "f".toList quotedParameters emptyBody) = .ok o ∧
      o.decls = [.function f] ∧
      f.parameters.map Parameter.initial = [some "\"x, (y=1)\"".toList, some "f('\\'\\'')".toList] := by
  obtain ⟨o, ho, hread, -, -⟩ := @extract_definition "f".toList quotedParameters emptyBody (by decide)
    (by decide) (by decide) []
  obtain ⟨f, hdecls, -, hparameters⟩ := hread.mpr (by decide)
  refine ⟨o, f, ho, hdecls, ?_⟩
  rw [hparameters]
  decide

/-- An initial value that is no more than an escaped quote. -/
def escapedInitial : Text := "a=\"\\\"\"".toList

/-- A type that is an equals sign between escaped quotes. -/
def escapedType : Text := "a: \"\\\"=\\\"\" = 3".toList

/-- **A function is not found where an initial value is an escaped quote,** and where a type has escaped quotes, what is
left of it behind an equals sign is taken for the initial value. -/
theorem extract_escapedQuote :
    IsParameterText escapedInitial ∧ IsParameterText escapedType ∧
      (∃ o, (Extractor.builtIn .python).extract [] (definition "f".toList escapedInitial emptyBody) = .ok o ∧
        o.decls = []) ∧
      ∃ o f, (Extractor.builtIn .python).extract [] (definition "f".toList escapedType emptyBody) = .ok o ∧
        o.decls = [.function f] ∧ f.parameters.map Parameter.initial = [some "\\\"\" = 3".toList] ∧
        (splitTopLevel ',' escapedType).map (fun piece => (splitOnceEscaped '=' {} piece).2) = [some " 3".toList] := by
  have hextract : ∀ (text : Text) (decls : List Decl),
      symbolsOf (Text.lines (definition "f".toList text emptyBody))
        (boundaryLines (definition "f".toList text emptyBody)).length = .ok decls →
      ∃ o, (Extractor.builtIn .python).extract [] (definition "f".toList text emptyBody) = .ok o ∧ o.decls = decls :=
    fun _ _ h => ⟨_, (extract_eq_ok_iff _ _ _).mpr ⟨_, h, rfl⟩, rfl⟩
  refine ⟨by decide, by decide, hextract _ _ (by decide), ?_⟩
  obtain ⟨o, ho, hdecls⟩ := hextract escapedType [.function
    { name := "f".toList
      parameters := [{ name := "a".toList, type := some "\"\\\"".toList, initial := some "\\\"\" = 3".toList
                       isOptional := true }]
      visibility := some "public".toList
      startLine := 1
      endLine := 2 }] (by decide)
  exact ⟨o, _, ho, hdecls, rfl, by decide⟩

end SourceDoc.Indented
