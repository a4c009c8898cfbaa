import Mathlib.Data.List.TakeWhile
import SourceDoc.Proofs.Indented.Overrun
import SourceDoc.Proofs.Indented.Reading
import SourceDoc.Proofs.Indented.Yield

/-!
# Blocks inside a function

A function is a generator if its own lines yield, not those of the functions and classes in it.  So other lines in the
place of the lines of an inner block should not matter (`Nesting.IsRefill`).  They do not if the search for a yield is
in that block, or in one around it, where the lines of the block start (`Nesting.isSheltered`), and so if all lines of
the header are indented deeper than the first one (`Nesting.IsHanging`):

    n.IsHanging lines total ∨ n.isSheltered lines total = true → f'.isGenerator = f.isGenerator        (extract_refill)

The search leaves a block at any line that is indented no deeper than its first line, also at one in its header; then
the lines of the block are taken for lines of the function, and yield like these.
-/

namespace SourceDoc.Indented

open Text

variable {lines : List Text} {total depth start i : Nat}

/-! ## Where blocks end -/

theorem blockEnd_eq (depth total start : Nat) (lines : List Text) :
    blockEnd depth total start lines =
      ((lines.drop start).findIdx? (!isInBlock depth ·)).elim (max total start) (start + ·) := by
  have hsame : (fun line => !isBlankText line && decide (indentation line ≤ depth)) = (!isInBlock depth ·) := by
    funext line
    rw [isInBlock, Bool.not_or, ← decide_not]
    simp only [Nat.not_lt]
  unfold blockEnd
  rw [hsame]
  cases (lines.drop start).findIdx? (!isInBlock depth ·) <;> rfl

/-- Up to its end, every line of a block is in it. -/
theorem isInBlock_of_mem (hi : start ≤ i) {line : Text}
    (hline : line ∈ (lines.take (blockEnd depth total start lines)).drop i) : isInBlock depth line = true := by
  rw [blockEnd_eq, List.drop_take] at hline
  cases h : (lines.drop start).findIdx? (!isInBlock depth ·) with
  | none =>
    have hmem : line ∈ lines.drop start := mem_drop_of_le hi (List.mem_of_mem_take hline)
    simpa using List.findIdx?_eq_none_iff.mp h line hmem
  | some n =>
    rw [h, Option.elim_some] at hline
    obtain ⟨hn, -, hbefore⟩ := List.findIdx?_eq_some_iff_getElem.mp h
    obtain ⟨k, hk⟩ := List.mem_iff_getElem?.mp hline
    have hlt : k < start + n - i := by
      have := (List.getElem?_eq_some_iff.mp hk).1
      rw [List.length_take] at this
      omega
    have hget : (lines.drop start)[i + k - start]? = some line := by
      rw [List.getElem?_take_of_lt hlt, List.getElem?_drop] at hk
      rw [List.getElem?_drop, ← hk]
      congr 1
      omega
    have hnot := hbefore (i + k - start) (by omega)
    rw [(List.getElem_eq_iff _).mpr hget] at hnot
    simpa using hnot

/-- **The lines of a block are those up to its end,** but for blank lines at the end of the file. -/
theorem takeWhile_isInBlock (hblank : ∀ line ∈ lines.drop total, isBlankText line = true) (hi : start ≤ i)
    (hend : i ≤ blockEnd depth total start lines) :
    ∃ blanks, (∀ line ∈ blanks, isBlankText line = true) ∧
      (lines.drop i).takeWhile (isInBlock depth) =
        (lines.take (blockEnd depth total start lines)).drop i ++ blanks := by
  have hinside := fun line (hline : line ∈ (lines.take (blockEnd depth total start lines)).drop i) =>
    isInBlock_of_mem hi hline
  rw [drop_eq_append hend lines, List.takeWhile_append_of_pos hinside]
  refine ⟨(lines.drop (blockEnd depth total start lines)).takeWhile (isInBlock depth), ?_, rfl⟩
  rw [blockEnd_eq]
  cases h : (lines.drop start).findIdx? (!isInBlock depth ·) with
  | some n =>
    -- The block ends at a line that is not in it.
    obtain ⟨hn, hat, -⟩ := List.findIdx?_eq_some_iff_getElem.mp h
    rw [List.length_drop] at hn
    rw [List.getElem_drop] at hat
    rw [Option.elim_some, List.drop_eq_getElem_cons (by omega), List.takeWhile_cons_of_neg (by simpa using hat)]
    simp
  | none =>
    intro line hline
    exact hblank line (mem_drop_of_le (Nat.le_max_left _ _) ((List.takeWhile_sublist _).subset hline))

/-! ## Blocks inside a function -/

/-- A function and a block inside it, by the lines on which they start and their headers. -/
structure Nesting where
  /-- The line on which the function starts. -/
  outer : Nat
  outerHeader : FunctionHeader
  /-- The line on which the block inside starts. -/
  inner : Nat
  innerHeader : Header

namespace Nesting

variable (n : Nesting) (lines : List Text) (total : Nat)

/-- How deep the function is indented. -/
def outerDepth : Nat := indentation ((lines[n.outer]?).getD [])

/-- How deep the block is indented. -/
def innerDepth : Nat := indentation ((lines[n.inner]?).getD [])

/-- The first line after the header of the function. -/
def outerBody : Nat := n.outer + n.outerHeader.extraLines + 1

/-- The first line after the header of the block. -/
def innerBody : Nat := n.inner + n.innerHeader.extraLines + 1

/-- The first line after the function. -/
def outerEnd : Nat := blockEnd (n.outerDepth lines) total n.outerBody lines

/-- The first line after the block. -/
def innerEnd : Nat := blockEnd (n.innerDepth lines) total n.innerBody lines

/-- The first line that is searched for a yield. -/
def own : Nat := afterDocumentation lines n.outerBody (n.outerEnd lines total)

/-- The lines of the function above the body of the block. -/
def above : List Text := (lines.take n.innerBody).drop (n.own lines total)

/-- The lines of the body of the block; `lines'` may have others in their place. -/
def body (lines' : List Text) : List Text := (lines'.take (n.innerEnd lines total)).drop n.innerBody

/-- The lines of the function below the block. -/
def below : List Text := (lines.take (n.outerEnd lines total)).drop (n.innerEnd lines total)

/-- The search for a yield where the body of the block starts. -/
def scan : YieldScan := YieldScan.after {} (n.above lines total)

/-- The search is in the block or in one around it where the body starts, or in a text. -/
def isSheltered : Bool := (n.scan lines total).shelters (n.innerDepth lines)

/-- The function yields above the body of the block or below the block. -/
def elsewhere : Bool := YieldScan.finds {} (n.above lines total) || YieldScan.finds {} (n.below lines total)

/-- The function stands in the lines, and the block in its own lines with a header that ends there. -/
structure IsIn : Prop where
  outer_read : FunctionHeader.read? (lines.drop n.outer) = some n.outerHeader
  inner_read : Header.read? (lines.drop n.inner) = some n.innerHeader
  isCode : isBlankText ((lines[n.inner]?).getD []) = false
  deeper : n.outerDepth lines < n.innerDepth lines
  own_le : n.own lines total ≤ n.inner
  innerBody_le : n.innerBody ≤ n.outerEnd lines total

/-- `lines'` has other lines in the place of the body of the block, as many, and all of them blank or indented deeper
than the block. -/
structure IsRefill (lines' : List Text) : Prop where
  length_eq : lines'.length = lines.length
  above_eq : lines'.take n.innerBody = lines.take n.innerBody
  below_eq : lines'.drop (n.innerEnd lines total) = lines.drop (n.innerEnd lines total)
  inBlock : ∀ line ∈ n.body lines total lines', isInBlock (n.innerDepth lines) line = true

/-- The block is a function or a class that starts in code, and the other lines of its header are indented deeper than
the first one. -/
structure IsHanging : Prop where
  inCode : (YieldScan.after {} ((lines.take n.inner).drop (n.own lines total))).quote = none
  starts : startsBlock (strip (codeOf none 0 ((lines[n.inner]?).getD [])).1) = true
  deeper : ∀ line ∈ (lines.take n.innerBody).drop (n.inner + 1), isInBlock (n.innerDepth lines) line = true

variable {n lines total}

/-! ### Where the parts lie -/

theorem outerBody_le (n : Nesting) (lines : List Text) (total : Nat) : n.outerBody ≤ n.own lines total :=
  start_le_afterDocumentation lines n.outerBody (n.outerEnd lines total)

theorem outer_lt (n : Nesting) : n.outer < n.outerBody := Nat.lt_succ_of_le (Nat.le_add_right _ _)

theorem inner_lt (n : Nesting) : n.inner < n.innerBody := Nat.lt_succ_of_le (Nat.le_add_right _ _)

theorem outerBody_le_inner (h : n.IsIn lines total) : n.outerBody ≤ n.inner :=
  Nat.le_trans (n.outerBody_le lines total) h.own_le

theorem outer_lt_innerBody (h : n.IsIn lines total) : n.outer < n.innerBody :=
  calc n.outer < n.outerBody := n.outer_lt
    _ ≤ n.inner := outerBody_le_inner h
    _ < n.innerBody := n.inner_lt

theorem outer_isBlock (n : Nesting) (lines : List Text) (total : Nat) :
    IsBlock lines total n.outer (n.outer + n.outerHeader.extraLines) (n.outerEnd lines total) :=
  isBlock_blockEnd lines total n.outer _ (Nat.le_add_right _ _)

theorem inner_isBlock (n : Nesting) (lines : List Text) (total : Nat) :
    IsBlock lines total n.inner (n.inner + n.innerHeader.extraLines) (n.innerEnd lines total) :=
  isBlock_blockEnd lines total n.inner _ (Nat.le_add_right _ _)

theorem innerBody_le_innerEnd (n : Nesting) (lines : List Text) (total : Nat) :
    n.innerBody ≤ n.innerEnd lines total := (n.inner_isBlock lines total).lt_stop

/-- A block inside a function ends no later. -/
theorem innerEnd_le (h : n.IsIn lines total) (hblank : ∀ line ∈ lines.drop total, isBlankText line = true) :
    n.innerEnd lines total ≤ n.outerEnd lines total := by
  have hbody := h.innerBody_le
  have hdeeper := h.deeper
  unfold innerBody at hbody
  unfold outerDepth innerDepth at hdeeper
  have hinner := n.inner_isBlock lines total
  rcases (n.outer_isBlock lines total).ends with ⟨line, hline, hcode, hle⟩ | ⟨-, houter⟩
  · exact hinner.stop_le (by omega) ⟨line, hline, hcode, by omega⟩
  · rcases hinner.ends with ⟨line, hline, hcode, -⟩ | ⟨-, hend⟩
    · have hlt : n.innerEnd lines total < total := by
        refine Nat.lt_of_not_le fun hle => ?_
        have hmem : line ∈ lines.drop total :=
          mem_drop_of_le hle (List.mem_of_getElem? (i := 0) (by rw [List.getElem?_drop]; exact hline))
        rw [hblank line hmem] at hcode
        cases hcode
      omega
    · omega

/-! ### Reading the function with other lines in the block -/

section

variable {lines' : List Text} {total' : Nat}

theorem isRefill_refl (n : Nesting) (lines : List Text) (total : Nat) : n.IsRefill lines total lines :=
  ⟨rfl, rfl, rfl, fun _ hline => isInBlock_of_mem (Nat.le_refl _) hline⟩

/-- The lines above the body of the block are in the function. -/
theorem above_inBlock (h : n.IsIn lines total) {line : Text} (hline : line ∈ n.above lines total) :
    isInBlock (n.outerDepth lines) line = true := by
  have hsplit : lines.take n.innerBody = (lines.take (n.outerEnd lines total)).take n.innerBody := by
    rw [List.take_take, Nat.min_eq_left h.innerBody_le]
  unfold above at hline
  rw [hsplit, List.drop_take] at hline
  exact isInBlock_of_mem (n.outerBody_le lines total) (List.mem_of_mem_take hline)

variable (h : n.IsIn lines total) (hr : n.IsRefill lines total lines')

include h hr

theorem outerDepth_refill : n.outerDepth lines' = n.outerDepth lines := by
  unfold outerDepth
  rw [getElem_of_take hr.above_eq (outer_lt_innerBody h)]

theorem outer_read_refill : FunctionHeader.read? (lines'.drop n.outer) = some n.outerHeader := by
  have hbody := outerBody_le_inner h
  have hinner := n.inner_lt
  refine functionHeader_take h.outer_read (take_of_take hr.above_eq ?_)
  unfold outerBody at hbody
  omega

/-- The function goes on behind the first line of the block. -/
theorem inner_lt_outerEnd (hblank' : ∀ line ∈ lines'.drop total', isBlankText line = true) :
    n.inner < n.outerEnd lines' total' := by
  have hbody := outerBody_le_inner h
  have hend := h.innerBody_le
  have hinner := n.inner_lt
  unfold outerBody at hbody
  refine Nat.lt_of_not_le fun hle => ?_
  have hblock := n.outer_isBlock lines' total'
  rcases hblock.ends with ⟨line, hline, hcode, hdepth⟩ | ⟨-, heq⟩
  · -- The lines above the body of the block are the same, and do not end the function.
    have hlt := hblock.lt_stop
    rw [getElem_of_take hr.above_eq (by omega)] at hline
    have hdeeper := (n.outer_isBlock lines total).deeper _ line hlt (by omega) hline hcode
    have hsame := outerDepth_refill h hr
    unfold outerDepth at hsame
    omega
  · have hline : lines'[n.inner]? = some ((lines[n.inner]?).getD []) := by
      have hlen := lt_length_of_code h.isCode
      rw [getElem_of_take hr.above_eq hinner, List.getElem?_eq_getElem hlen, Option.getD_some]
    have hmem : (lines[n.inner]?).getD [] ∈ lines'.drop total' :=
      mem_drop_of_le (show total' ≤ n.inner by omega)
        (List.mem_of_getElem? (i := 0) (by rw [List.getElem?_drop]; exact hline))
    have hcode := h.isCode
    rw [hblank' _ hmem] at hcode
    cases hcode

theorem own_refill (hblank' : ∀ line ∈ lines'.drop total', isBlankText line = true) :
    n.own lines' total' = n.own lines total :=
  afterDocumentation_take (take_of_take hr.above_eq n.inner_lt) (outerBody_le_inner h)
    (Nat.lt_of_lt_of_le n.inner_lt h.innerBody_le) (inner_lt_outerEnd h hr hblank') h.isCode h.own_le

/-- The lines of the function are those above the body of the block, those in it, and those below the block. -/
theorem takeWhile_refill (hblank : ∀ line ∈ lines.drop total, isBlankText line = true) :
    ∃ blanks, (∀ line ∈ blanks, isBlankText line = true) ∧
      (lines'.drop (n.own lines total)).takeWhile (isInBlock (n.outerDepth lines)) =
        n.above lines total ++ (n.body lines total lines' ++ (n.below lines total ++ blanks)) := by
  have hbody := outerBody_le_inner h
  have hown := h.own_le
  have hinner := n.inner_lt
  have hstart := n.innerBody_le_innerEnd lines total
  have hinside : ∀ line ∈ n.body lines total lines', isInBlock (n.outerDepth lines) line = true :=
    fun line hline => isInBlock_mono (Nat.le_of_lt h.deeper) (hr.inBlock line hline)
  obtain ⟨blanks, hblanks, hbelow⟩ := takeWhile_isInBlock hblank (show n.outerBody ≤ n.innerEnd lines total by omega)
    (innerEnd_le h hblank)
  refine ⟨blanks, hblanks, ?_⟩
  rw [drop_eq_append (show n.own lines total ≤ n.innerBody by omega) lines', hr.above_eq,
    drop_eq_append hstart lines', hr.below_eq]
  show (n.above lines total ++ (n.body lines total lines' ++ lines.drop (n.innerEnd lines total))).takeWhile _ = _
  rw [List.takeWhile_append_of_pos fun _ hline => above_inBlock h hline, List.takeWhile_append_of_pos hinside]
  exact congrArg (fun rest => n.above lines total ++ (n.body lines total lines' ++ rest)) hbelow

/-- **What is found in the function is found above the body of the block, in it, or below the block.** -/
theorem yields_refill (hblank : ∀ line ∈ lines.drop total, isBlankText line = true)
    (hblank' : ∀ line ∈ lines'.drop total', isBlankText line = true) :
    yields lines' n.outerBody (n.outerEnd lines' total') =
      (YieldScan.finds {} (n.above lines total) || ((n.scan lines total).finds (n.body lines total lines') ||
        ((n.scan lines total).after (n.body lines total lines')).finds (n.below lines total))) := by
  have hbody := n.outerBody_le lines total
  have hlt := inner_lt_outerEnd h hr hblank'
  have hown := h.own_le
  obtain ⟨blanks, hblanks, hlines⟩ := takeWhile_refill h hr hblank
  obtain ⟨blanks', hblanks', hlines'⟩ := takeWhile_isInBlock hblank' hbody
    (show n.own lines total ≤ n.outerEnd lines' total' by omega)
  have hread : (lines'.drop (n.own lines total)).takeWhile (isInBlock (n.outerDepth lines)) =
      (lines'.take (n.outerEnd lines' total')).drop (n.own lines total) ++ blanks' := by
    rw [← outerDepth_refill h hr]
    exact hlines'
  calc yields lines' n.outerBody (n.outerEnd lines' total')
      = YieldScan.finds {} ((lines'.take (n.outerEnd lines' total')).drop (n.own lines' total')) := rfl
    _ = YieldScan.finds {} ((lines'.drop (n.own lines total)).takeWhile (isInBlock (n.outerDepth lines))) := by
      rw [own_refill h hr hblank', hread, YieldScan.finds_append_blank hblanks']
    _ = _ := by
      rw [hlines, YieldScan.finds_append, YieldScan.finds_append, YieldScan.finds_append_blank hblanks]
      rfl

end

/-! ### The search in the block -/

/-- Only a long quote is open where the body of the block starts. -/
theorem scan_isLong (n : Nesting) (lines : List Text) (total : Nat) : (n.scan lines total).IsLong :=
  YieldScan.IsLong.after (by simp [YieldScan.IsLong]) _

/-- **The search is in a block with a hanging header where the body starts.** -/
theorem IsHanging.isSheltered (hhang : n.IsHanging lines total) (h : n.IsIn lines total) :
    n.isSheltered lines total = true := by
  have hinner := n.inner_lt
  have hlen := lt_length_of_code h.isCode
  have hline : (lines[n.inner]?).getD [] = lines[n.inner] := by rw [List.getElem?_eq_getElem hlen, Option.getD_some]
  have habove : n.above lines total = (lines.take n.inner).drop (n.own lines total) ++
      lines[n.inner] :: (lines.take n.innerBody).drop (n.inner + 1) := by
    have hdrop : (lines.take n.innerBody).drop n.inner =
        lines[n.inner] :: (lines.take n.innerBody).drop (n.inner + 1) := by
      rw [List.drop_eq_getElem_cons (by rw [List.length_take]; omega), List.getElem_take]
    unfold above
    rw [drop_eq_append h.own_le, List.take_take, Nat.min_eq_left (Nat.le_of_lt hinner), hdrop]
  have hscan : n.scan lines total =
      ((YieldScan.after {} ((lines.take n.inner).drop (n.own lines total))).next lines[n.inner]).after
        ((lines.take n.innerBody).drop (n.inner + 1)) := by
    unfold scan YieldScan.after
    rw [habove, List.foldl_append]
    rfl
  have hnested := YieldScan.nested_next_header hhang.inCode (hline ▸ h.isCode) (hline ▸ hhang.starts)
  have hdepth : n.innerDepth lines = indentation lines[n.inner] := congrArg indentation hline
  rw [← hdepth] at hnested
  unfold Nesting.isSheltered YieldScan.shelters
  rw [hscan, YieldScan.nested_after hnested hhang.deeper, hnested, Bool.or_true]

/-- Once the block has ended, it does not matter what the search found in it. -/
theorem finds_below (n : Nesting) (hblank : ∀ line ∈ lines.drop total, isBlankText line = true) {s : YieldScan}
    (hs : s.shelters (n.innerDepth lines) = false) :
    s.finds (n.below lines total) = YieldScan.finds {} (n.below lines total) := by
  obtain ⟨blanks, hblanks, hbelow⟩ := takeWhile_isInBlock hblank (n.innerBody_le_innerEnd lines total)
    (Nat.le_refl (n.innerEnd lines total))
  have hempty : (lines.drop (n.innerEnd lines total)).takeWhile (isInBlock (n.innerDepth lines)) = blanks :=
    hbelow.trans (congrArg (· ++ blanks) List.drop_take_self)
  refine YieldScan.finds_of_exposed hs fun line hline => hblanks line ?_
  obtain ⟨rest, hrest⟩ : n.below lines total <+: lines.drop (n.innerEnd lines total) := by
    unfold below
    rw [List.drop_take]
    exact List.take_prefix _ _
  rw [← hempty, ← hrest, List.takeWhile_append]
  split
  · exact List.mem_append_left _ ((List.takeWhile_sublist _).subset hline)
  · exact hline

section

variable {lines' : List Text} {total' : Nat} (h : n.IsIn lines total) (hr : n.IsRefill lines total lines')
  (hblank : ∀ line ∈ lines.drop total, isBlankText line = true)
  (hblank' : ∀ line ∈ lines'.drop total', isBlankText line = true)
  (hunquoted : ∀ line ∈ n.body lines total lines', IsUnquoted line)

include h hr hblank hblank' hunquoted

/-- **Where the search is in the block, its lines do not matter.** -/
theorem yields_of_shelters (hs : n.isSheltered lines total = true) :
    yields lines' n.outerBody (n.outerEnd lines' total') =
      (YieldScan.finds {} (n.above lines total) || (n.scan lines total).finds (n.below lines total)) := by
  obtain ⟨hafter, hfinds⟩ := YieldScan.after_of_shelters (n.scan_isLong lines total) hs hr.inBlock hunquoted
  rw [yields_refill h hr hblank hblank', hafter, hfinds, Bool.false_or]

/-- **Where it is not, they are searched like lines of the function.** -/
theorem yields_of_exposed (hs : n.isSheltered lines total = false) :
    yields lines' n.outerBody (n.outerEnd lines' total') =
      (n.elsewhere lines total || (n.scan lines total).finds (n.body lines total lines')) := by
  have hbelow := n.finds_below hblank (YieldScan.after_of_exposed hs hr.inBlock hunquoted)
  rw [yields_refill h hr hblank hblank', hbelow, elsewhere, Bool.or_assoc]
  congr 1
  exact Bool.or_comm _ _

end

end Nesting

/-! ## Generators -/

theorem isGenerator_eq {n : Nesting} (hread : FunctionHeader.read? (lines.drop n.outer) = some n.outerHeader)
    {isMethod : Bool} {f : FunctionDecl} (hf : functionAt? lines total isMethod n.outer = some f) :
    f.isGenerator = yields lines n.outerBody (n.outerEnd lines total) := by
  unfold functionAt? at hf
  rw [hread] at hf
  cases hf
  rfl

/-- The function that starts on a line is read there. -/
theorem isGenerator_of_mem {path source : Text} {o : Outline}
    (ho : (Extractor.builtIn .python).extract path source = .ok o) {n : Nesting}
    (hread : FunctionHeader.read? ((Text.lines source).drop n.outer) = some n.outerHeader) {f : FunctionDecl}
    (hf : f ∈ o.allFunctions) (hline : f.startLine = (n.outer : Int) + 1) :
    f.isGenerator = yields (Text.lines source) n.outerBody
      (n.outerEnd (Text.lines source) (boundaryLines source).length) := by
  obtain ⟨decls, hdecls, rfl⟩ := (extract_eq_ok_iff path source o).mp ho
  obtain ⟨d, hd, hf⟩ := List.mem_flatMap.mp hf
  obtain ⟨i, -, hi⟩ := (mem_symbolsOf_iff hdecls).mp hd
  obtain ⟨isMethod, k, hk⟩ := functions_of_symbolAt hi f hf
  have hstart := (functionAt_span hk).1
  rw [show k = n.outer by omega] at hk
  exact isGenerator_eq hread hk

/-- A function at the left margin is still there. -/
theorem exists_function_refill {path source source' : Text} {o o' : Outline}
    (ho : (Extractor.builtIn .python).extract path source = .ok o)
    (ho' : (Extractor.builtIn .python).extract path source' = .ok o') {n : Nesting} {total : Nat}
    (hn : n.IsIn (Text.lines source) total) (hr : n.IsRefill (Text.lines source) total (Text.lines source'))
    {f : FunctionDecl} (hf : Decl.function f ∈ o.decls) (hline : f.startLine = (n.outer : Int) + 1) :
    ∃ f', Decl.function f' ∈ o'.decls ∧ f'.startLine = f.startLine := by
  obtain ⟨decls, hdecls, rfl⟩ := (extract_eq_ok_iff path source o).mp ho
  obtain ⟨decls', hdecls', rfl⟩ := (extract_eq_ok_iff path source' o').mp ho'
  obtain ⟨i, -, hi⟩ := (mem_symbolsOf_iff hdecls).mp hf
  obtain ⟨hmargin, hat⟩ := symbolAt_eq_function_iff.mp hi
  have hstart := (functionAt_span hat).1
  obtain rfl : i = n.outer := by omega
  have hread := Nesting.outer_read_refill hn hr
  obtain ⟨f', hat'⟩ :
      ∃ f', functionAt? (Text.lines source') (boundaryLines source').length false n.outer = some f' := by
    unfold functionAt?
    rw [hread]
    exact ⟨_, rfl⟩
  have hstart' := (functionAt_span hat').1
  have hlen := functionHeader_lt hread
  rw [← getElem_of_take hr.above_eq (Nesting.outer_lt_innerBody hn)] at hmargin
  exact ⟨f', (mem_symbolsOf_iff hdecls').mpr ⟨n.outer, by omega, symbolAt_eq_function_iff.mpr ⟨hmargin, hat'⟩⟩,
    by omega⟩

theorem isBlankText_drop_boundaryLines (t : Text) :
    ∀ line ∈ (Text.lines t).drop (boundaryLines t).length, isBlankText line = true := by
  intro line hline
  rw [drop_boundaryLines t line hline]
  rfl

/-- **Other lines in a block inside a function leave it a generator or not,** if the header of the block hangs, and
wherever the search for a yield is in the block or in one around it.  Elsewhere the lines of the block are searched like
lines of the function. -/
theorem extract_refill {path source source' : Text} {o o' : Outline}
    (ho : (Extractor.builtIn .python).extract path source = .ok o)
    (ho' : (Extractor.builtIn .python).extract path source' = .ok o')
    {lines lines' : List Text} {total : Nat} (hlines : Text.lines source = lines)
    (hlines' : Text.lines source' = lines') (htotal : (boundaryLines source).length = total) (n : Nesting)
    (hn : n.IsIn lines total) (hr : n.IsRefill lines total lines')
    (hunquoted : ∀ line ∈ n.body lines total lines ++ n.body lines total lines', IsUnquoted line)
    {f : FunctionDecl} (hf : f ∈ o.allFunctions) (hline : f.startLine = (n.outer : Int) + 1) :
    (Decl.function f ∈ o.decls → ∃ f', Decl.function f' ∈ o'.decls ∧ f'.startLine = f.startLine) ∧
      ∀ f' ∈ o'.allFunctions, f'.startLine = f.startLine →
        (n.IsHanging lines total ∨ n.isSheltered lines total = true → f'.isGenerator = f.isGenerator) ∧
        (n.isSheltered lines total = false →
          f.isGenerator = (n.elsewhere lines total || (n.scan lines total).finds (n.body lines total lines)) ∧
          f'.isGenerator = (n.elsewhere lines total || (n.scan lines total).finds (n.body lines total lines'))) := by
  subst hlines hlines' htotal
  obtain ⟨hquotes, hquotes'⟩ := List.forall_mem_append.mp hunquoted
  have hblank := isBlankText_drop_boundaryLines
  have hrefl := n.isRefill_refl (Text.lines source) (boundaryLines source).length
  refine ⟨fun hmem => exists_function_refill ho ho' hn hr hmem hline, fun f' hf' hline' => ?_⟩
  have hsource := isGenerator_of_mem ho hn.outer_read hf hline
  have hsource' := isGenerator_of_mem ho' (Nesting.outer_read_refill hn hr) hf' (hline'.trans hline)
  have hshelter : n.isSheltered (Text.lines source) (boundaryLines source).length = true →
      f'.isGenerator = f.isGenerator := fun hs => by
    rw [hsource, hsource', Nesting.yields_of_shelters hn hr (hblank source) (hblank source') hquotes' hs,
      Nesting.yields_of_shelters hn hrefl (hblank source) (hblank source) hquotes hs]
  refine ⟨?_, fun hs => ⟨?_, ?_⟩⟩
  · rintro (hhang | hs)
    · exact hshelter (hhang.isSheltered hn)
    · exact hshelter hs
  · rw [hsource, Nesting.yields_of_exposed hn hrefl (hblank source) (hblank source) hquotes hs]
  · rw [hsource', Nesting.yields_of_exposed hn hr (hblank source) (hblank source') hquotes' hs]

/-- A function whose body is a function with a header over three lines, of which the last is given, and a body of one
line. -/
def functionInside (closing body : String) : Text :=
  "def f():\n    def g(\n        a,\n".toList ++ closing.toList ++ ['\n'] ++ body.toList ++ ['\n']

/-- The two functions. -/
def functionsNested : Nesting where
  outer := 0
  outerHeader := ⟨⟨false, "f".toList, ")".toList⟩, [], none, 0⟩
  inner := 1
  innerHeader := ⟨"def g( a, )".toList, 2⟩

/-- The outer function, as it is read. -/
def functionOutside (isGenerator : Bool) : FunctionDecl :=
  { name := "f".toList, isGenerator := isGenerator, visibility := some "public".toList, startLine := 1, endLine := 5 }

theorem extract_functionInside (closing body : String) (isGenerator : Bool)
    (h : symbolsOf (Text.lines (functionInside closing body)) (boundaryLines (functionInside closing body)).length =
      .ok [.function (functionOutside isGenerator)]) :
    ∃ o, (Extractor.builtIn .python).extract [] (functionInside closing body) = .ok o ∧
      functionOutside isGenerator ∈ o.allFunctions :=
  ⟨_, (extract_eq_ok_iff _ _ _).mpr ⟨_, h, rfl⟩, List.mem_singleton_self _⟩

theorem extract_refill_sample :
    ∃ o o' : Outline,
      (Extractor.builtIn .python).extract [] (functionInside "        ):" "        yield a") = .ok o ∧
      (Extractor.builtIn .python).extract [] (functionInside "        ):" "        return a") = .ok o' ∧
      ∃ f ∈ o.allFunctions, ∃ f' ∈ o'.allFunctions, f'.isGenerator = f.isGenerator := by
  obtain ⟨o, ho, hf⟩ := extract_functionInside "        ):" "        yield a" false (by decide)
  obtain ⟨o', ho', hf'⟩ := extract_functionInside "        ):" "        return a" false (by decide)
  refine ⟨o, o', ho, ho', _, hf, _, hf', ?_⟩
  refine ((extract_refill ho ho' rfl rfl rfl functionsNested ?_ ?_ ?_ hf rfl).2 _ hf' rfl).1 (.inl ?_)
  · exact ⟨by decide, by decide, by decide, by decide, by decide,
      by decide⟩
  · exact ⟨by decide, by decide, by decide, by decide⟩
  · decide
  · exact ⟨by decide, by decide, by decide⟩

/-- Where the header of an inner function ends with a bracket below its first letter, its body is taken for lines of the
outer function. -/
theorem extract_closingBracket :
    ∃ o o' : Outline,
      (Extractor.builtIn .python).extract [] (functionInside "    ):" "        yield a") = .ok o ∧
      (Extractor.builtIn .python).extract [] (functionInside "    ):" "        return a") = .ok o' ∧
      functionsNested.IsIn (Text.lines (functionInside "    ):" "        yield a"))
        (boundaryLines (functionInside "    ):" "        yield a")).length ∧
      functionsNested.IsRefill (Text.lines (functionInside "    ):" "        yield a"))
        (boundaryLines (functionInside "    ):" "        yield a")).length
        (Text.lines (functionInside "    ):" "        return a")) ∧
      startsBlock functionsNested.innerHeader.text = true ∧
      (∀ line ∈ ["        yield a".toList, "        return a".toList], IsUnquoted line) ∧
      ∃ f ∈ o.allFunctions, ∃ f' ∈ o'.allFunctions, f.startLine = 1 ∧ f'.startLine = 1 ∧
        f.isGenerator = true ∧ f'.isGenerator = false := by
  obtain ⟨o, ho, hf⟩ := extract_functionInside "    ):" "        yield a" true (by decide)
  obtain ⟨o', ho', hf'⟩ := extract_functionInside "    ):" "        return a" false (by decide)
  refine ⟨o, o', ho, ho', ?_, ?_, by decide, by decide, _, hf, _, hf', rfl, rfl, rfl, rfl⟩
  · exact ⟨by decide, by decide, by decide, by decide, by decide,
      by decide⟩
  · exact ⟨by decide, by decide, by decide, by decide⟩

end SourceDoc.Indented
