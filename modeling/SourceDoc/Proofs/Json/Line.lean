import SourceDoc.Proofs.Json.RoundTrip
import SourceDoc.Proofs.Text.Line

/-!
# The lines of written values

A value that is written with line breaks has something on each of its lines, whatever its texts are (`lines_write`): a
text is written on one line, and a line break always stands between an item, or a bracket, and the next.  `filledAfter`
follows the line under way through a text; each part of a value leaves it filled (`filledAfter_writeAt`).
-/

namespace SourceDoc.Json

open Text

/-! ## The line under way -/

/-- Something else than blanks stands on the last line of a text, where `filled` says so of the line that is under way in
front of it; none where a line of blanks is ended. -/
def filledAfter (filled : Bool) : Text → Option Bool
  | [] => some filled
  | c :: t => if c = '\n' then if filled then filledAfter false t else none else filledAfter (filled || !isBlank c) t

theorem filledAfter_cons (filled : Bool) (c : Char) (t : Text) :
    filledAfter filled (c :: t) =
      if c = '\n' then if filled then filledAfter false t else none else filledAfter (filled || !isBlank c) t := rfl

theorem filledAfter_append (filled : Bool) (a b : Text) :
    filledAfter filled (a ++ b) = (filledAfter filled a).bind (filledAfter · b) := by
  induction a generalizing filled with
  | nil => rfl
  | cons c a ih =>
    rw [List.cons_append, filledAfter_cons, filledAfter_cons]
    split
    · split
      · exact ih false
      · rfl
    · exact ih _

theorem filledAfter_line {t : Text} (h : '\n' ∉ t) (filled : Bool) :
    filledAfter filled t = some (filled || !isBlankText t) := by
  induction t generalizing filled with
  | nil => exact congrArg some (Bool.or_false filled).symm
  | cons c t ih =>
    rw [List.mem_cons, not_or] at h
    rw [filledAfter_cons, if_neg (Ne.symm h.1), ih h.2, isBlankText, isBlankText, List.all_cons, Bool.not_and, Bool.or_assoc]

/-- **No line is blank in a text that always leaves its line filled.** -/
theorem not_blank_of_filledAfter {filled : Bool} {t line : Text} {more : List Text} (ht : lines t = line :: more)
    (h : filledAfter filled t = some true) :
    (filled || !isBlankText line) = true ∧ ∀ l ∈ more, isBlankText l = false := by
  induction t generalizing filled line more with
  | nil =>
    cases ht
    cases h
    exact ⟨rfl, List.forall_mem_nil _⟩
  | cons c t ih =>
    rw [filledAfter_cons] at h
    split at h
    · rename_i hc
      split at h
      · rename_i hfilled
        rw [hc, lines_newline] at ht
        cases ht
        obtain ⟨next, rest, hlines⟩ := List.exists_cons_of_ne_nil (lines_ne_nil t)
        obtain ⟨hnext, hrest⟩ := ih hlines h
        refine ⟨by rw [hfilled]; rfl, ?_⟩
        rw [hlines]
        exact List.forall_mem_cons.mpr ⟨by simpa using hnext, hrest⟩
      · cases h
    · rename_i hc
      obtain ⟨first, rest, hlines, hcons⟩ := lines_cons_of_ne hc t
      rw [hcons] at ht
      cases ht
      obtain ⟨hfirst, hrest⟩ := ih hlines h
      refine ⟨?_, hrest⟩
      rw [isBlankText, List.all_cons, Bool.not_and, ← Bool.or_assoc]
      exact hfirst

/-! ## Atoms -/

theorem newline_not_mem_hexDigit : ∀ d, d < 16 → hexDigit d ≠ '\n' := by decide

theorem newline_not_mem_hex (width n : Nat) : '\n' ∉ hex width n := by
  induction width generalizing n with
  | zero => exact List.not_mem_nil
  | succ width ih =>
    rw [hex, List.mem_append, List.mem_singleton, not_or]
    exact ⟨ih _, Ne.symm (newline_not_mem_hexDigit _ (Nat.mod_lt _ (by decide)))⟩

theorem newline_not_mem_unitEscapes (c : Char) : '\n' ∉ unitEscapes c := by
  simp only [unitEscapes]
  split <;> simp [newline_not_mem_hex]

/-- A newline is written as an escape. -/
theorem newline_not_mem_escapeChar (isAscii : Bool) (c : Char) : '\n' ∉ escapeChar isAscii c := by
  have hu := newline_not_mem_unitEscapes c
  by_cases hc : c = '\n'
  · rw [hc]
    exact by cases isAscii <;> decide
  · unfold escapeChar
    repeat' split
    all_goals first | exact hu | simp [Ne.symm hc]

theorem newline_not_mem_writeText (isAscii : Bool) (t : Text) : '\n' ∉ writeText isAscii t := by
  intro h
  rcases List.mem_cons.mp h with h | h
  · cases h
  · rcases List.mem_append.mp h with h | h
    · obtain ⟨c, -, hc⟩ := List.mem_flatMap.mp h
      exact newline_not_mem_escapeChar isAscii c hc
    · cases List.mem_singleton.mp h

theorem newline_not_mem_ofNat (n : Nat) : '\n' ∉ Text.ofNat n := fun h => absurd (ofNat_digits n _ h) (by decide)

theorem newline_not_mem_ofInt (i : Int) : '\n' ∉ Text.ofInt i := by
  cases i with
  | ofNat n => exact newline_not_mem_ofNat n
  | negSucc n =>
    intro h
    rcases List.mem_cons.mp h with h | h
    · cases h
    · exact newline_not_mem_ofNat _ h

/-! ## Parts that fill their line -/

/-- Wherever it stands, the text ends no line of blanks, and something stands on its own last line. -/
def Fills (t : Text) : Prop := ∀ filled, filledAfter filled t = some true

/-- A text on one line that starts with something fills the line. -/
theorem fills_of_line {c : Char} {t : Text} (hc : isBlank c = false) (h : '\n' ∉ c :: t) : Fills (c :: t) := by
  intro filled
  rw [filledAfter_line h, isBlankText, List.all_cons, hc, Bool.false_and, Bool.not_false, Bool.or_true]

variable {a b : Text} {s : Style}

/-- Between two parts may stand what does not end a second line. -/
theorem Fills.gap {filled : Bool} (ha : Fills a) (gap : Text) (hgap : filledAfter true gap = some filled) (hb : Fills b) :
    Fills (a ++ (gap ++ b)) := by
  intro before
  rw [filledAfter_append, ha before, Option.bind_some, filledAfter_append, hgap]
  exact hb filled

theorem Fills.append (ha : Fills a) (hb : Fills b) : Fills (a ++ b) := ha.gap [] rfl hb

/-- A line break ends the line under way and begins another. -/
theorem filledAfter_lineBreak (s : Style) (depth : Nat) : ∃ filled, filledAfter true (lineBreak s depth) = some filled := by
  unfold lineBreak
  split
  · exact ⟨true, rfl⟩
  · rename_i width _
    have hline : '\n' ∉ List.replicate (width * depth) ' ' := fun h => by cases List.eq_of_mem_replicate h
    exact ⟨_, filledAfter_line hline false⟩

theorem Fills.lineBreak (ha : Fills a) (s : Style) (depth : Nat) (hb : Fills b) :
    Fills (a ++ (Json.lineBreak s depth ++ b)) := by
  obtain ⟨filled, hbreak⟩ := filledAfter_lineBreak s depth
  exact ha.gap _ hbreak hb

/-- What stands in front of an item ends the line of the item before it, at most. -/
theorem Fills.item (ha : Fills a) (s : Style) (depth : Nat) (hb : Fills b) : Fills (a ++ (itemSeparator s depth ++ b)) := by
  have hcomma : Fills [','] := fills_of_line rfl (by decide)
  unfold itemSeparator
  split
  · exact ha.append (hcomma.gap [' '] rfl hb)
  · exact ha.append (hcomma.lineBreak s depth hb)

theorem fills_writeText (isAscii : Bool) (t : Text) : Fills (writeText isAscii t) :=
  fills_of_line rfl (newline_not_mem_writeText isAscii t)

theorem not_isBlank_of_isDigit {c : Char} (h : IsDigit c) : isBlank c = false := by
  unfold IsDigit at h
  simp only [isBlank, isSeparator, Bool.or_eq_false_iff, Bool.and_eq_false_iff, decide_eq_false_iff_not]
  omega

theorem fills_ofInt (i : Int) : Fills (Text.ofInt i) := by
  have hline := newline_not_mem_ofInt i
  obtain ⟨c, t, hi, hc⟩ := ofInt_cons i
  rw [hi] at hline ⊢
  refine fills_of_line ?_ hline
  rcases hc with hc | rfl
  · exact not_isBlank_of_isDigit hc
  · rfl

/-! ## Values -/

theorem Fills.items (ha : Fills a) {items : List Json} {depth : Nat} (h : ∀ v ∈ items, Fills (writeAt s depth v)) :
    Fills (a ++ writeItems s depth items) := by
  induction items generalizing a with
  | nil =>
    rw [writeItems_nil, List.append_nil]
    exact ha
  | cons item items ih =>
    obtain ⟨hitem, hitems⟩ := List.forall_mem_cons.mp h
    have hall := ih (ha.item s depth hitem) hitems
    rw [writeItems_cons]
    simpa only [List.append_assoc] using hall

/-- A name, its colon and the value. -/
theorem fills_member (name : Text) {value : Json} {depth : Nat} (h : Fills (writeAt s depth value)) :
    Fills (writeText s.isAscii name ++ [':', ' '] ++ writeAt s depth value) :=
  ((fills_writeText s.isAscii name).append (fills_of_line (c := ':') (t := [' ']) rfl (by decide))).append h

theorem Fills.members (ha : Fills a) {members : Members} {depth : Nat} (h : ∀ m ∈ members, Fills (writeAt s depth m.2)) :
    Fills (a ++ writeMembers s depth members) := by
  induction members generalizing a with
  | nil =>
    rw [writeMembers_nil, List.append_nil]
    exact ha
  | cons m members ih =>
    obtain ⟨name, value⟩ := m
    obtain ⟨hvalue, hmembers⟩ := List.forall_mem_cons.mp h
    have hall := ih (ha.item s depth (fills_member name hvalue)) hmembers
    rw [writeMembers_cons]
    simpa only [List.append_assoc] using hall

/-- **Each part of a value fills its line.** -/
theorem fills_writeAt (s : Style) (v : Json) (hv : v.IsPlain) (depth : Nat) : Fills (writeAt s depth v) := by
  have hbracket : ∀ c ∈ ['[', ']', '\x7b', '\x7d'], Fills [c] := by
    simp only [List.forall_mem_cons]
    exact ⟨fills_of_line rfl (by decide), fills_of_line rfl (by decide), fills_of_line rfl (by decide),
      fills_of_line rfl (by decide), List.forall_mem_nil _⟩
  induction v using inductionOn generalizing depth with
  | null => exact fills_of_line (c := 'n') rfl (by decide)
  | bool b => cases b <;> exact fills_of_line rfl (by decide)
  | int i =>
    rw [writeAt_int]
    exact fills_ofInt i
  | real x => exact hv.elim
  | text t =>
    rw [writeAt_text]
    exact fills_writeText s.isAscii t
  | list items ih =>
    rw [isPlain_list_iff] at hv
    have hfills : ∀ item ∈ items, ∀ depth, Fills (writeAt s depth item) := fun item hi depth => ih item hi (hv item hi) depth
    cases items with
    | nil => exact fills_of_line rfl (by decide)
    | cons item items =>
      -- the bracket, the first item, the others, the closing bracket: each on what stands in front of it
      obtain ⟨hitem, hitems⟩ := List.forall_mem_cons.mp hfills
      have hopen := (hbracket '[' (by decide)).lineBreak s (depth + 1) (hitem (depth + 1))
      have hinner := hopen.items fun v hv => hitems v hv (depth + 1)
      have hall := hinner.lineBreak s depth (hbracket ']' (by decide))
      rw [writeAt_list_cons]
      simpa only [List.append_assoc, List.cons_append, List.nil_append] using hall
  | object members ih =>
    rw [isPlain_object_iff] at hv
    have hfills : ∀ m ∈ members, ∀ depth, Fills (writeAt s depth m.2) := fun m hm depth => ih m hm (hv.2 m hm) depth
    cases members with
    | nil => exact fills_of_line rfl (by decide)
    | cons m members =>
      obtain ⟨name, value⟩ := m
      obtain ⟨hvalue, hmembers⟩ := List.forall_mem_cons.mp hfills
      have hopen := (hbracket '\x7b' (by decide)).lineBreak s (depth + 1) (fills_member name (hvalue (depth + 1)))
      have hinner := hopen.members fun m hm => hmembers m hm (depth + 1)
      have hall := hinner.lineBreak s depth (hbracket '\x7d' (by decide))
      rw [writeAt_object_cons]
      simpa only [List.append_assoc, List.cons_append, List.nil_append] using hall

/-- **No line of a written value is blank.** -/
theorem lines_write (s : Style) {v : Json} (hv : v.IsPlain) : ∀ line ∈ lines (write s v), isBlankText line = false := by
  obtain ⟨first, more, hlines⟩ := List.exists_cons_of_ne_nil (lines_ne_nil (write s v))
  obtain ⟨hfirst, hmore⟩ := not_blank_of_filledAfter hlines (fills_writeAt s v hv 0 false)
  rw [hlines]
  exact List.forall_mem_cons.mpr ⟨by simpa using hfirst, hmore⟩

end SourceDoc.Json
