import SourceDoc.Indented.Block

/-!
# The extent of blocks

A block runs over lines that are blank or indented deeper than its header, up to the first line that is neither or to
the end of the file (`isBlock_blockEnd`).  So whatever is indented no more than the header and starts after it starts
after the block (`IsBlock.stop_le`), and the body without its documentation lies in the block.

Lines are counted from 0, so a block that ends before line `stop` ends with the line that is the `stop`th one counted
from 1.
-/

namespace SourceDoc.Indented

open Text

/-- A line is there that is neither blank nor indented deeper than some depth. -/
def ClosesAt (lines : List Text) (depth j : Nat) : Prop :=
  ∃ line, lines[j]? = some line ∧ isBlankText line = false ∧ indentation line ≤ depth

/-- The block whose header stands on the lines from `i` to `last` ends before line `stop`; `total` is the number of
lines of the file, counted by all line boundaries. -/
structure IsBlock (lines : List Text) (total i last stop : Nat) : Prop where
  header_le : i ≤ last
  lt_stop : last < stop
  /-- Every line of the body that is not blank is indented deeper than the header. -/
  deeper : ∀ j line, last < j → j < stop → lines[j]? = some line → isBlankText line = false →
    indentation ((lines[i]?).getD []) < indentation line
  /-- The block ends where a line closes it, or else with the file. -/
  ends : ClosesAt lines (indentation ((lines[i]?).getD [])) stop ∨
    (∀ j, last < j → ¬ ClosesAt lines (indentation ((lines[i]?).getD [])) j) ∧ stop = max total (last + 1)

/-- **A block ends before the first line that closes it,** or with the file. -/
theorem isBlock_blockEnd (lines : List Text) (total i last : Nat) (hi : i ≤ last) :
    IsBlock lines total i last (blockEnd (indentation ((lines[i]?).getD [])) total (last + 1) lines) := by
  unfold blockEnd
  generalize hdepth : indentation ((lines[i]?).getD []) = depth
  cases h : (lines.drop (last + 1)).findIdx? fun line => !isBlankText line && indentation line ≤ depth with
  | some n =>
    obtain ⟨hn, hat, hbefore⟩ := List.findIdx?_eq_some_iff_getElem.mp h
    refine ⟨hi, by simp only; omega, ?_, .inl ?_⟩
    · intro j line hj hstop hline hblank
      rw [hdepth]
      simp only at hstop
      have hget : (lines.drop (last + 1))[j - (last + 1)]? = some line := by
        rw [List.getElem?_drop, ← hline]
        congr 1
        omega
      have hnot := hbefore (j - (last + 1)) (by omega)
      rw [(List.getElem_eq_iff _).mpr hget] at hnot
      simp only [hblank, Bool.not_false, Bool.true_and, decide_eq_true_eq] at hnot
      omega
    · rw [hdepth]
      rw [List.getElem_drop] at hat
      simp only [Bool.and_eq_true, Bool.not_eq_true', decide_eq_true_eq] at hat
      exact ⟨_, List.getElem?_eq_getElem _, hat⟩
  | none =>
    have hnone : ∀ j, last < j → ¬ ClosesAt lines depth j := by
      rintro j hj ⟨line, hline, hblank, hle⟩
      have hmem : line ∈ lines.drop (last + 1) := by
        refine List.mem_of_getElem? (i := j - (last + 1)) ?_
        rw [List.getElem?_drop, ← hline]
        congr 1
        omega
      have := List.findIdx?_eq_none_iff.mp h line hmem
      simp [hblank, hle] at this
    refine ⟨hi, by simp only; omega, ?_, .inr ⟨?_, rfl⟩⟩
    · intro j line hj _ hline hblank
      rw [hdepth]
      exact Nat.lt_of_not_le fun hle => hnone j hj ⟨line, hline, hblank, hle⟩
    · rw [hdepth]
      exact hnone

/-- What closes a block is not in it. -/
theorem IsBlock.stop_le {lines : List Text} {total i last stop j : Nat} (h : IsBlock lines total i last stop)
    (hj : last < j) (hc : ClosesAt lines (indentation ((lines[i]?).getD [])) j) : stop ≤ j := by
  obtain ⟨line, hline, hblank, hle⟩ := hc
  refine Nat.le_of_not_lt fun hlt => ?_
  have := h.deeper j line hj hlt hline hblank
  omega

theorem firstCode_bounds {lines : List Text} {start stop i : Nat} (h : firstCode? lines start stop = some i) :
    start ≤ i ∧ i < lines.length := by
  unfold firstCode? at h
  obtain ⟨n, hn, rfl⟩ := Option.map_eq_some_iff.mp h
  obtain ⟨hlt, -⟩ := List.findIdx?_eq_some_iff_getElem.mp hn
  rw [List.length_drop, List.length_take] at hlt
  omega

/-- A documentation does not end before the block starts. -/
theorem start_le_afterDocumentation (lines : List Text) (start stop : Nat) :
    start ≤ afterDocumentation lines start stop := by
  unfold afterDocumentation
  cases h : firstCode? lines start stop with
  | none => simp
  | some i =>
    have hi := firstCode_bounds h
    simp only
    split
    · omega
    · split
      · omega
      · split
        · omega
        · omega

/-- A documentation ends in the file. -/
theorem afterDocumentation_le {lines : List Text} {start : Nat} (hs : start ≤ lines.length) (stop : Nat) :
    afterDocumentation lines start stop ≤ lines.length := by
  unfold afterDocumentation
  cases h : firstCode? lines start stop with
  | none => exact hs
  | some i =>
    have hi := (firstCode_bounds h).2
    simp only
    split
    · exact hs
    · split
      · exact hi
      · split
        · rename_i n hn
          have := (List.findIdx?_eq_some_iff_getElem.mp hn).1
          rw [List.length_drop] at this
          omega
        · exact Nat.le_refl _

end SourceDoc.Indented
