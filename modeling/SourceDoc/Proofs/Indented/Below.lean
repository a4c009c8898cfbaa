import SourceDoc.Indented.Outline
import SourceDoc.Proofs.Indented.ClassBody
import SourceDoc.Proofs.Indented.Symbol

/-!
# Reading below other lines

What is read in some lines is read below others as well, so many lines further down.  Only the decorators of a function
are looked for upwards; those of a method end at the latest with the header of its class (`decorators_below`), and a
function that is no method does not show them (`functionAt_below`).
-/

namespace SourceDoc

/-! ## Symbols further down -/

def FunctionDecl.shift (n : Nat) (f : FunctionDecl) : FunctionDecl :=
  { f with startLine := f.startLine + n, endLine := f.endLine + n }

/-- The class so many lines further down, with its members. -/
def TypeDecl.shift (n : Nat) (t : TypeDecl) : TypeDecl :=
  { t with
    methods := t.methods.map (FunctionDecl.shift n)
    constructor? := t.constructor?.map (FunctionDecl.shift n)
    startLine := t.startLine + n
    endLine := t.endLine + n }

def Decl.shift (n : Nat) : Decl → Decl
  | .function f => .function (f.shift n)
  | .type t => .type (t.shift n)

end SourceDoc

namespace SourceDoc.Indented

open Text

variable {above lines : List Text} {total start stop i : Nat}

/-! ## Blocks -/

theorem getElem_below (i : Nat) : (above ++ lines)[above.length + i]? = lines[i]? := by
  rw [List.getElem?_append_right (Nat.le_add_right _ _), Nat.add_sub_cancel_left]

theorem take_drop_below (start stop : Nat) :
    ((above ++ lines).take (above.length + stop)).drop (above.length + start) = (lines.take stop).drop start := by
  rw [List.take_length_add_append, List.drop_length_add_append]

theorem blockEnd_below (depth total start : Nat) :
    blockEnd depth (above.length + total) (above.length + start) (above ++ lines) =
      above.length + blockEnd depth total start lines := by
  unfold blockEnd
  rw [List.drop_length_add_append]
  split
  · exact Nat.add_assoc _ _ _
  · exact Nat.add_max_add_left _ _ _

theorem firstCode_below (start stop : Nat) :
    firstCode? (above ++ lines) (above.length + start) (above.length + stop) =
      (firstCode? lines start stop).map (above.length + ·) := by
  unfold firstCode?
  rw [take_drop_below, Option.map_map]
  congr 1
  funext n
  exact Nat.add_assoc _ _ _

theorem documentation_below (start stop : Nat) :
    documentation? (above ++ lines) (above.length + start) (above.length + stop) = documentation? lines start stop := by
  unfold documentation?
  rw [firstCode_below]
  cases firstCode? lines start stop with
  | none => rfl
  | some i =>
    simp only [Option.map_some, Option.bind_some, getElem_below, Nat.add_assoc, List.drop_length_add_append]

theorem afterDocumentation_below (start stop : Nat) :
    afterDocumentation (above ++ lines) (above.length + start) (above.length + stop) =
      above.length + afterDocumentation lines start stop := by
  unfold afterDocumentation
  rw [firstCode_below]
  cases firstCode? lines start stop with
  | none => rfl
  | some i =>
    simp only [Option.map_some, getElem_below, Nat.add_assoc, List.drop_length_add_append, List.length_append]
    split
    · rfl
    · split
      · rfl
      · split <;> rfl

theorem yields_below (start stop : Nat) :
    yields (above ++ lines) (above.length + start) (above.length + stop) = yields lines start stop := by
  unfold yields
  rw [afterDocumentation_below, take_drop_below]

/-- **Decorators are looked for no further up than a line that is none.** -/
theorem decorators_below {k : Nat} (hk : k < i) {line : Text} (hline : lines[k]? = some line)
    (hnone : startsWith (strip line) ['@'] = false) :
    decorators (above ++ lines) (above.length + i) = decorators lines i := by
  unfold decorators
  rw [List.take_length_add_append, List.reverse_append, List.map_append, List.takeWhile_append]
  have hmem : strip line ∈ (lines.take i).reverse.map strip := by
    refine List.mem_map_of_mem (List.mem_reverse.mpr (List.mem_of_getElem? (i := k) ?_))
    rw [List.getElem?_take_of_lt hk, hline]
  rw [if_neg]
  intro hall
  rw [← (List.takeWhile_prefix (startsWith · ['@'])).eq_of_length hall] at hmem
  have := List.all_eq_true.mp List.all_takeWhile _ hmem
  rw [hnone] at this
  cases this

/-! ## Functions -/

theorem functionAt_below (total : Nat) {isMethod : Bool}
    (hmarks : isMethod = true → decorators (above ++ lines) (above.length + i) = decorators lines i) :
    functionAt? (above ++ lines) (above.length + total) isMethod (above.length + i) =
      (functionAt? lines total isMethod i).map (FunctionDecl.shift above.length) := by
  unfold functionAt?
  rw [List.drop_length_add_append, Option.map_map]
  congr 1
  funext header
  simp only [Function.comp_apply, FunctionDecl.shift, getElem_below, Nat.add_assoc, blockEnd_below, yields_below,
    documentation_below]
  congr 1
  · cases isMethod with
    | false => rfl
    | true => rw [hmarks rfl]
  · push_cast
    omega
  · push_cast
    omega

/-! ## Classes -/

namespace ClassBody

/-- What is known of the body of a class, so many lines further down. -/
def shift (n : Nat) (b : ClassBody) : ClassBody :=
  { b with
    methods := b.methods.map (FunctionDecl.shift n)
    constructor? := b.constructor?.map (FunctionDecl.shift n) }

variable {line : Text} {b : ClassBody}

theorem attributes_below {m : FunctionDecl} (hm : 0 ≤ m.endLine) :
    instanceAttributes (above ++ lines) (above.length + i + 1) (m.shift above.length).endLine.toNat =
      instanceAttributes lines (i + 1) m.endLine.toNat := by
  have hend : (m.shift above.length).endLine.toNat = above.length + m.endLine.toNat := by
    show (m.endLine + (above.length : Int)).toNat = above.length + m.endLine.toNat
    omega
  unfold instanceAttributes
  rw [hend, Nat.add_assoc, take_drop_below]

theorem step_below (total : Nat)
    (hmarks : decorators (above ++ lines) (above.length + i) = decorators lines i) :
    step (above ++ lines) (above.length + total) (above.length + i) line (b.shift above.length) =
      ((step lines total i line b).1.shift above.length, above.length + (step lines total i line b).2) := by
  have hat : functionAt? (above ++ lines) (above.length + total) true (above.length + i) =
      (functionAt? lines total true i).map (FunctionDecl.shift above.length) := functionAt_below total fun _ => hmarks
  have hend : ∀ m, functionAt? lines total true i = some m → 0 ≤ m.endLine := fun m hm => by
    have := functionAt_span hm
    omega
  refine Prod.ext (step_mapFunctions _ hat (fun _ => rfl) fun m hm => attributes_below (hend m hm)) ?_
  show (step _ _ _ line (b.mapFunctions (FunctionDecl.shift above.length))).2 = _
  rw [step_next, step_next, method_mapFunctions _ hat]
  cases hm : b.method? lines total i line with
  | none => exact Nat.add_assoc _ _ _
  | some m =>
    have := hend m (functionAt_of_method hm)
    show max (above.length + i + 1) (m.endLine + (above.length : Int)).toNat =
      above.length + max (i + 1) m.endLine.toNat
    omega

/-- **The body of a class is the same below other lines,** so many lines further down. -/
theorem read_below (total : Nat) {k : Nat} {head : Text} (hhead : lines[k]? = some head)
    (hnone : startsWith (strip head) ['@'] = false) (i : Nat) (b : ClassBody) (hi : k < i) :
    read (above ++ lines) (above.length + total) (above.length + stop) (above.length + i) (b.shift above.length) =
      (read lines total stop i b).map (shift above.length) := by
  induction i, b using readInduction lines total stop with
  | ends i b hstop =>
    rw [read_of_end hstop, read_of_end (by omega)]
    rfl
  | beyond i b hstop hline =>
    rw [read_of_beyond hstop hline, read_of_beyond (by omega) (by rw [getElem_below, hline])]
    rfl
  | steps i b line hstop hline ih =>
    have hlt : i < (step lines total i line b).2 := lt_step
    have hsame : (above ++ lines)[above.length + i]? = some line := by rw [getElem_below, hline]
    rw [read_of_line hstop hline, read_of_line (by omega) hsame,
      step_below total (decorators_below hi hhead hnone)]
    exact ih (by omega)

end ClassBody

theorem not_decorator_of_classStart {t : Text} (h : (classStart? t).isSome = true) : startsWith t ['@'] = false := by
  cases t with
  | nil => rfl
  | cons c t =>
    rw [← Bool.not_eq_true]
    intro hmark
    have hc : '@' = c := by simpa [startsWith] using hmark
    rw [← hc] at h
    cases h

theorem classAt_below (total : Nat) (hclass : (classStart? (strip ((lines[i]?).getD []))).isSome = true) :
    classAt? (above ++ lines) (above.length + total) (above.length + i) =
      (classAt? lines total i).map (·.map (TypeDecl.shift above.length)) := by
  unfold classAt?
  rw [List.drop_length_add_append]
  cases ClassHeader.read? (lines.drop i) with
  | none => rfl
  | some header =>
    cases hline : lines[i]? with
    | none =>
      rw [hline] at hclass
      cases hclass
    | some line =>
      rw [hline] at hclass
      simp only [getElem_below, hline, Option.getD_some, Nat.add_assoc, blockEnd_below, afterDocumentation_below,
        documentation_below]
      generalize hbody : i + (header.extraLines + 1) = body
      generalize blockEnd (indentation line) total body lines = stop
      -- Members are read below the header, which ends their decorators.
      have hlater := start_le_afterDocumentation lines body stop
      have hread : ClassBody.read (above ++ lines) (above.length + total) (above.length + stop)
          (above.length + afterDocumentation lines body stop) {} =
          (ClassBody.read lines total stop (afterDocumentation lines body stop) {}).map (ClassBody.shift above.length) :=
        ClassBody.read_below total hline (not_decorator_of_classStart hclass) _ {} (by omega)
      rw [hread]
      cases ClassBody.read lines total stop (afterDocumentation lines body stop) {} with
      | error e => rfl
      | ok b =>
        simp only [Except.map, Option.map_some, ClassBody.shift, TypeDecl.shift]
        congr 3
        · push_cast
          omega
        · push_cast
          omega

/-! ## Symbols -/

/-- **A symbol is the same below other lines,** so many lines further down. -/
theorem symbolAt_below (total i : Nat) :
    symbolAt? (above ++ lines) (above.length + total) (above.length + i) =
      (symbolAt? lines total i).map (·.map (Decl.shift above.length)) := by
  unfold symbolAt?
  rw [getElem_below]
  simp only
  split
  · rfl
  · split
    · rw [functionAt_below total Bool.noConfusion, Option.map_map]
      cases functionAt? lines total false i <;> rfl
    · split
      · rename_i hclass
        rw [classAt_below total hclass]
        generalize classAt? lines total i = found
        rcases found with e | (_ | t) <;> rfl
      · rfl

end SourceDoc.Indented
