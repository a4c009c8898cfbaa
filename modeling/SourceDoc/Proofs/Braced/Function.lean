import SourceDoc.Braced.Function
import SourceDoc.Proofs.List
import SourceDoc.Proofs.Text.Pattern

/-!
# Where functions of braced sources lie

Reading a function never fails: a receiver that is there has a last word (`receiverType_ok`).  A function starts on the
line that is marked as its first and ends in the file (`functionOn_ok`), and there is at most one on a line, so the
functions of a file come in the order of their lines (`functionsOf_ok`).
-/

namespace SourceDoc.Braced

open Text

variable {lines : List Text} {total i : Nat}

/-- A symbol starts on line `i`, ends in the file, and has an identifier for its name; `total` is the number of lines
counted by all line boundaries. -/
structure LiesAt (lines : List Text) (total i : Nat) (d : Decl) : Prop where
  starts : d.startLine = (i : Int) + 1
  start_le : d.startLine ≤ d.endLine
  end_le : d.endLine ≤ (max lines.length total : Nat)
  named : isIdentifier d.name = true

/-! ## Blocks and comments -/

theorem linesToClosing_lt {p : Progress} {body : List Text} {n : Nat} (h : p.linesToClosing? body = some n) :
    n < body.length := by
  induction body generalizing p n with
  | nil => cases h
  | cons line body ih =>
    rw [Progress.linesToClosing?] at h
    split at h
    · cases h
      exact Nat.zero_lt_succ _
    · obtain ⟨k, hk, rfl⟩ := Option.map_eq_some_iff.mp h
      exact Nat.succ_lt_succ (ih hk)

/-- Lines that no search can tell apart end a block alike. -/
theorem linesToClosing_congr {body body' : List Text}
    (h : List.Forall₂ (fun line line' => ∀ p : Progress, p.line? false line' = p.line? false line) body body')
    (p : Progress) : p.linesToClosing? body' = p.linesToClosing? body := by
  induction h generalizing p with
  | nil => rfl
  | @cons line line' rest rest' hline _ ih =>
    rw [Progress.linesToClosing?, Progress.linesToClosing?, hline p]
    cases p.line? false line with
    | none => rfl
    | some p => simp only [ih]

/-- Blanks around a line do not matter for the comments above another. -/
theorem commentsAbove_congr {above above' : List Text}
    (h : List.Forall₂ (fun line line' => strip line' = strip line) above above') :
    commentsAbove above' = commentsAbove above := by
  induction h with
  | nil => rfl
  | @cons line line' rest rest' hline _ ih =>
    have hcomment : commentOnLine? line' = commentOnLine? line := by
      unfold commentOnLine?
      rw [hline]
    have hblank : isBlankText line' = isBlankText line := by
      rw [← isBlankText_strip, hline, isBlankText_strip]
    rw [commentsAbove, commentsAbove, hcomment, hblank, ih]

/-- A block that opens on a line of the file does not end before that line, nor after the file. -/
theorem closingLine_span (total : Nat) (hi : i < lines.length) (column : Nat) :
    i + 1 ≤ closingLine lines total i column ∧ closingLine lines total i column ≤ max lines.length total := by
  unfold closingLine
  cases hbody : lines.drop i with
  | nil =>
    have := congrArg List.length hbody
    rw [List.length_drop, List.length_nil] at this
    omega
  | cons line rest =>
    have hlen := congrArg List.length hbody
    rw [List.length_drop] at hlen
    simp only
    split
    · rename_i n hn
      have := linesToClosing_lt hn
      rw [List.length_cons] at this hlen
      omega
    · omega

theorem signatureFrom_brace_lt {bound n column : Nat} {depth : Int} {lines : List Text}
    (h : (signatureFrom bound depth lines).2 = some (n, column)) : n < lines.length := by
  induction lines generalizing bound depth n with
  | nil => cases bound <;> cases h
  | cons line rest ih =>
    cases bound with
    | zero => cases h
    | succ bound =>
      rw [signatureFrom] at h
      simp only at h
      split at h
      · cases h
        exact Nat.zero_lt_succ _
      · rename_i depth' _
        split at h
        · cases h
        · obtain ⟨⟨k, column'⟩, hk, he⟩ := Option.map_eq_some_iff.mp h
          cases he
          exact Nat.succ_lt_succ (ih hk)

/-! ## The header of a function -/

/-- Every word under way is kept. -/
theorem wordsFrom_ne_nil {current t : Text} (h : current ≠ [] ∨ isBlankText t = false) : wordsFrom current t ≠ [] := by
  induction t generalizing current with
  | nil =>
    rcases h with h | h
    · simp [wordsFrom_nil, h]
    · cases h
  | cons c t ih =>
    rw [wordsFrom_cons]
    split
    · rename_i hc
      split
      · rename_i hnil
        refine ih (.inr ?_)
        rcases h with h | h
        · exact absurd hnil h
        · simpa [isBlankText, hc] using h
      · simp
    · exact ih (.inl (by simp))

/-- **A receiver that is there has a last word.** -/
theorem receiverType_ok (r : Text) : ∃ name, receiverType (strip r) = .ok name := by
  unfold receiverType
  split
  · exact ⟨_, rfl⟩
  · rename_i hne
    have hblank : isBlankText (strip r) = false := by
      rw [← Bool.not_eq_true, isBlankText_strip, ← strip_eq_nil_iff]
      exact hne
    cases hw : (words (strip r)).getLast? with
    | none => exact absurd (List.getLast?_eq_none_iff.mp hw) (wordsFrom_ne_nil (.inr hblank))
    | some word => exact ⟨_, rfl⟩

theorem functionStart_cases {t : Text} {first : FunctionStart} (h : functionStart? t = some first) :
    isIdentifier first.name = true ∧ ∃ r, first.receiver = strip r := by
  unfold functionStart? at h
  obtain ⟨t₁, -, h⟩ := Option.bind_eq_some_iff.mp h
  obtain ⟨⟨r, t₂⟩, -, h⟩ := Option.bind_eq_some_iff.mp h
  obtain ⟨⟨name, t₃⟩, hname, h⟩ := Option.bind_eq_some_iff.mp h
  obtain ⟨t₄, -, hname⟩ := Option.bind_eq_some_iff.mp hname
  simp only at h
  split at h
  · cases h
    exact ⟨isIdentifier_of_identifier hname, r, rfl⟩
  · cases h

theorem functionHeader_cases {lines : List Text} {header : FunctionHeader}
    (h : FunctionHeader.read? lines = some header) :
    isIdentifier header.first.name = true ∧ (∃ r, header.first.receiver = strip r) ∧
      ∀ n column, header.brace = some (n, column) → n < lines.length := by
  unfold FunctionHeader.read? at h
  obtain ⟨first, hfirst, h⟩ := Option.bind_eq_some_iff.mp h
  obtain ⟨⟨inner, after⟩, -, rfl⟩ := Option.map_eq_some_iff.mp h
  obtain ⟨hname, hreceiver⟩ := functionStart_cases hfirst
  exact ⟨hname, hreceiver, fun n column hbrace => signatureFrom_brace_lt hbrace⟩

/-- A function does not end before its line, nor after the file. -/
theorem stop_span (total : Nat) {header : FunctionHeader} (h : FunctionHeader.read? (lines.drop i) = some header)
    (hi : i < lines.length) :
    i + 1 ≤ header.stop lines total i ∧ header.stop lines total i ≤ max lines.length total := by
  unfold FunctionHeader.stop
  cases hbrace : header.brace with
  | none => simp only; omega
  | some place =>
    obtain ⟨n, column⟩ := place
    have hn := (functionHeader_cases h).2.2 n column hbrace
    rw [List.length_drop] at hn
    have := closingLine_span total (show i + n < lines.length by omega) column
    simp only
    omega

/-! ## Functions -/

/-- A function starts on a line that is marked as its first, and lies there. -/
structure IsFunctionOn (lines : List Text) (total i : Nat) (f : FunctionDecl) : Prop where
  marked : startsWith ((lines[i]?).getD []) "func".toList = true
  lies : LiesAt lines total i (.function f)

/-- **Reading the function on a line does not fail,** and the function lies there. -/
theorem functionOn_ok (total : Nat) (hi : i < lines.length) :
    ∃ found, functionOn? lines total i = .ok found ∧ ∀ f ∈ found, IsFunctionOn lines total i f := by
  unfold functionOn?
  by_cases hmark : startsWith ((lines[i]?).getD []) "func".toList = true
  · rw [if_pos hmark]
    unfold functionAt?
    cases hheader : FunctionHeader.read? (lines.drop i) with
    | none => exact ⟨none, rfl, by simp⟩
    | some header =>
      obtain ⟨hname, ⟨r, hr⟩, -⟩ := functionHeader_cases hheader
      obtain ⟨receiver, hreceiver⟩ := receiverType_ok r
      obtain ⟨hle, hstop⟩ := stop_span total hheader hi
      refine ⟨_, by simp only [hr, hreceiver]; rfl, ?_⟩
      intro f hf
      cases hf
      refine ⟨hmark, rfl, ?_, ?_, hname⟩
      · show ((i : Int) + 1) ≤ (header.stop lines total i : Nat)
        omega
      · show ((header.stop lines total i : Nat) : Int) ≤ (max lines.length total : Nat)
        omega
  · rw [if_neg hmark]
    exact ⟨none, rfl, by simp⟩

/-- **The functions of a file come in the order of their lines,** one on a line at most. -/
theorem functionsOf_ok (lines : List Text) (total : Nat) :
    ∃ functions, functionsOf lines total = .ok functions ∧
      (∀ f ∈ functions, ∃ i < lines.length, IsFunctionOn lines total i f) ∧
      functions.Pairwise fun f f' => f.startLine < f'.startLine := by
  obtain ⟨found, hfound, hmatch⟩ := mapM_ok_of_forall (List.range lines.length)
    fun i hi => functionOn_ok total (List.mem_range.mp hi)
  refine ⟨found.filterMap id, by unfold functionsOf; rw [hfound]; rfl, ?_, ?_⟩
  · intro f hf
    obtain ⟨f?, hmem, he⟩ := List.mem_filterMap.mp hf
    obtain ⟨i, hi, hon⟩ := exists_mem_of_forall₂ hmatch f? hmem
    exact ⟨i, List.mem_range.mp hi, hon f he⟩
  · rw [List.pairwise_filterMap]
    refine pairwise_of_forall₂ hmatch List.pairwise_lt_range ?_
    intro i i' f? f'? hlt hon hon' f hf f' hf'
    have h := (hon f hf).lies.starts
    have h' := (hon' f' hf').lies.starts
    simp only [Decl.startLine] at h h'
    omega

end SourceDoc.Braced
