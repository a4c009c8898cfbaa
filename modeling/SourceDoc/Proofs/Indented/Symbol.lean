import Mathlib.Data.List.Nodup
import SourceDoc.Indented.Symbol
import SourceDoc.Proofs.Indented.Block

/-!
# Where functions and classes lie

A function starts on the line of its header and ends where its block does (`functionAt_isBlock`), and so does a class
(`classAt_cases`).  The body of a class is read line by line past the end of each method, so that the methods and the
constructor come one after another inside it (`read_isLaidOut`).
-/

namespace SourceDoc.Indented

open Text

/-! ## Functions -/

/-- **A function ends where its block does.** -/
theorem functionAt_isBlock {lines : List Text} {total i : Nat} {isMethod : Bool} {f : FunctionDecl}
    (h : functionAt? lines total isMethod i = some f) :
    ∃ header stop, FunctionHeader.read? (lines.drop i) = some header ∧ f.name = header.first.name ∧
      f.startLine = (i : Int) + 1 ∧ f.endLine = (stop : Nat) ∧ IsBlock lines total i (i + header.extraLines) stop := by
  unfold functionAt? at h
  obtain ⟨header, hheader, rfl⟩ := Option.map_eq_some_iff.mp h
  exact ⟨header, _, hheader, rfl, rfl, rfl, isBlock_blockEnd lines total i _ (Nat.le_add_right _ _)⟩

theorem functionAt_span {lines : List Text} {total i : Nat} {isMethod : Bool} {f : FunctionDecl}
    (h : functionAt? lines total isMethod i = some f) : f.startLine = (i : Int) + 1 ∧ f.startLine ≤ f.endLine := by
  obtain ⟨header, stop, -, -, hstart, hend, hblock⟩ := functionAt_isBlock h
  have := hblock.lt_stop
  rw [hstart, hend]
  omega

/-! ## The body of a class -/

/-- The name of constructors. -/
def constructorName : Text := "__init__".toList

/-- The members that are known part way through the body of a class come one after another, below the header that ends
on line `last`, inside the class that ends before line `stop`, and above line `cursor`. -/
structure ClassBody.IsLaidOut (last stop cursor : Nat) (b : ClassBody) : Prop where
  inside : ∀ m ∈ b.constructor?.toList ++ b.methods,
    (last : Int) + 1 < m.startLine ∧ m.startLine ≤ stop ∧ m.startLine ≤ m.endLine ∧ m.endLine ≤ cursor
  ordered : b.methods.Pairwise fun m m' => m.endLine < m'.startLine
  apart : ∀ c ∈ b.constructor?, ∀ m ∈ b.methods, m.endLine < c.startLine ∨ c.endLine < m.startLine
  methods_named : ∀ m ∈ b.methods, m.name ≠ constructorName
  constructor_named : ∀ c ∈ b.constructor?, c.name = constructorName
  properties_nodup : (b.properties.map Property.name).Nodup

namespace ClassBody

variable {last stop cursor : Nat} {b : ClassBody}

theorem isLaidOut_empty : IsLaidOut last stop cursor {} where
  inside := by simp
  ordered := .nil
  apart := by simp
  methods_named := by simp
  constructor_named := by simp
  properties_nodup := .nil

theorem IsLaidOut.mono (h : b.IsLaidOut last stop cursor) {next : Nat} (hn : cursor ≤ next) :
    b.IsLaidOut last stop next where
  inside := by
    intro m hm
    obtain ⟨hlast, hstop, hspan, hcursor⟩ := h.inside m hm
    exact ⟨hlast, hstop, hspan, by omega⟩
  ordered := h.ordered
  apart := h.apart
  methods_named := h.methods_named
  constructor_named := h.constructor_named
  properties_nodup := h.properties_nodup

/-- The indentation has no part in it. -/
theorem IsLaidOut.indented (h : b.IsLaidOut last stop cursor) (indent : Option Nat) :
    IsLaidOut last stop cursor { b with indent := indent } :=
  ⟨h.inside, h.ordered, h.apart, h.methods_named, h.constructor_named, h.properties_nodup⟩

theorem IsLaidOut.addProperty (h : b.IsLaidOut last stop cursor) (p : Property) :
    (b.addProperty p).IsLaidOut last stop cursor := by
  unfold ClassBody.addProperty
  by_cases hp : (b.properties.any fun q => q.name = p.name) = true
  · rw [if_pos hp]
    exact h
  · rw [if_neg hp]
    refine ⟨h.inside, h.ordered, h.apart, h.methods_named, h.constructor_named, ?_⟩
    have hnew : p.name ∉ b.properties.map Property.name := by
      intro hm
      obtain ⟨q, hq, he⟩ := List.mem_map.mp hm
      exact hp (List.any_eq_true.mpr ⟨q, hq, decide_eq_true he⟩)
    simp only [List.map_append, List.map_cons, List.map_nil]
    exact List.nodup_append.mpr ⟨h.properties_nodup, List.nodup_singleton _, by
      intro x hx y hy
      rw [List.mem_singleton.mp hy]
      rintro rfl
      exact hnew hx⟩

theorem IsLaidOut.addProperties (h : b.IsLaidOut last stop cursor) (ps : List Property) :
    (ps.foldl ClassBody.addProperty b).IsLaidOut last stop cursor := by
  induction ps generalizing b with
  | nil => exact h
  | cons p ps ih => exact ih (h.addProperty p)

theorem IsLaidOut.addAttribute (h : b.IsLaidOut last stop cursor) (t : Text) :
    (b.addAttribute t).IsLaidOut last stop cursor := by
  unfold ClassBody.addAttribute
  by_cases ht : isOtherMember t = true
  · rw [if_pos ht]
    exact h
  · rw [if_neg ht]
    cases attribute? t with
    | none => exact h
    | some p => exact h.addProperty p

/-- A constructor below all members that are known takes the place of an earlier one. -/
theorem IsLaidOut.setConstructor (h : b.IsLaidOut last stop cursor) {m : FunctionDecl} (hname : m.name = constructorName)
    (hm : (last : Int) + 1 < m.startLine ∧ m.startLine ≤ stop ∧ m.startLine ≤ m.endLine ∧ m.endLine ≤ cursor)
    (hbelow : ∀ m' ∈ b.constructor?.toList ++ b.methods, m'.endLine < m.startLine) :
    IsLaidOut last stop cursor { b with constructor? := some m } := by
  refine ⟨?_, h.ordered, ?_, h.methods_named, ?_, h.properties_nodup⟩
  · intro m' hm'
    rcases List.mem_append.mp hm' with hc | hm'
    · rw [Option.toList_some, List.mem_singleton] at hc
      rw [hc]
      exact hm
    · exact h.inside m' (List.mem_append_right _ hm')
  · intro c hc m' hm'
    cases hc
    exact .inl (hbelow m' (List.mem_append_right _ hm'))
  · intro c hc
    cases hc
    exact hname

/-- Another method comes after all members that are known. -/
theorem IsLaidOut.appendMethod (h : b.IsLaidOut last stop cursor) {m : FunctionDecl} (hname : m.name ≠ constructorName)
    (hm : (last : Int) + 1 < m.startLine ∧ m.startLine ≤ stop ∧ m.startLine ≤ m.endLine ∧ m.endLine ≤ cursor)
    (hbelow : ∀ m' ∈ b.constructor?.toList ++ b.methods, m'.endLine < m.startLine) :
    IsLaidOut last stop cursor { b with methods := b.methods ++ [m] } := by
  refine ⟨?_, ?_, ?_, ?_, h.constructor_named, h.properties_nodup⟩
  · intro m' hm'
    rw [← List.append_assoc] at hm'
    rcases List.mem_append.mp hm' with hm' | hm'
    · exact h.inside m' hm'
    · rw [List.mem_singleton.mp hm']
      exact hm
  · rw [List.pairwise_append]
    refine ⟨h.ordered, List.pairwise_singleton _ _, ?_⟩
    intro a ha m' hm'
    rw [List.mem_singleton.mp hm']
    exact hbelow a (List.mem_append_right _ ha)
  · intro c hc m' hm'
    rcases List.mem_append.mp hm' with hm' | hm'
    · exact h.apart c hc m' hm'
    · rw [List.mem_singleton.mp hm']
      exact .inr (hbelow c (List.mem_append_left _ (by simpa using hc)))
  · intro m' hm'
    rcases List.mem_append.mp hm' with hm' | hm'
    · exact h.methods_named m' hm'
    · rw [List.mem_singleton.mp hm']
      exact hname

/-- A method whose header stands on line `cursor` comes after the members above it. -/
theorem IsLaidOut.addMethod (h : b.IsLaidOut last stop cursor) (hlast : last < cursor) (hstop : cursor < stop)
    (lines : List Text) (m : FunctionDecl) (hstart : m.startLine = (cursor : Int) + 1)
    (hspan : m.startLine ≤ m.endLine) :
    (b.addMethod lines cursor m).IsLaidOut last stop (max (cursor + 1) m.endLine.toNat) := by
  have hm : (last : Int) + 1 < m.startLine ∧ m.startLine ≤ stop ∧ m.startLine ≤ m.endLine ∧
      m.endLine ≤ (max (cursor + 1) m.endLine.toNat : Nat) := by omega
  have hbelow : ∀ m' ∈ b.constructor?.toList ++ b.methods, m'.endLine < m.startLine := by
    intro m' hm'
    have := (h.inside m' hm').2.2.2
    omega
  have h' := h.mono (show cursor ≤ max (cursor + 1) m.endLine.toNat by omega)
  unfold ClassBody.addMethod
  by_cases hname : m.name = "__init__".toList
  · rw [if_pos hname]
    exact (h'.setConstructor hname hm hbelow).addProperties _
  · rw [if_neg hname]
    exact h'.appendMethod hname hm hbelow

/-- **Reading keeps the members one after another.**  The induction is on the lines that are left; the cursor moves
past each method, and past a single line elsewhere. -/
theorem read_isLaidOut {lines : List Text} {total : Nat} {b' : ClassBody} (hlast : last < cursor)
    (h : b.IsLaidOut last stop cursor) (hread : ClassBody.read lines total stop cursor b = .ok b') :
    ∃ final, b'.IsLaidOut last stop final := by
  induction cursor, b using ClassBody.read.induct lines total stop with
  | case1 i b hi hline =>
    rw [ClassBody.read, if_pos hi, hline] at hread
    cases hread
  | case2 i b hi line hline t hblank ih =>
    rw [ClassBody.read, if_pos hi, hline] at hread
    simp only [t] at hblank
    simp only [hblank, if_true] at hread
    exact ih (by omega) (h.mono (Nat.le_succ i)) hread
  | case3 i b hi line hline t hblank b₁ hindent ih =>
    rw [ClassBody.read, if_pos hi, hline] at hread
    simp only [t] at hblank
    simp only [hblank, if_false] at hread
    rw [if_pos hindent] at hread
    exact ih (by omega) ((h.indented _).mono (Nat.le_succ i)) hread
  | case4 i b hi line hline t hblank b₁ hindent hstart m hm ih =>
    rw [ClassBody.read, if_pos hi, hline] at hread
    simp only [t] at hblank hstart
    simp only [b₁] at hindent
    simp only [hblank, if_false, hindent, hstart, if_true, hm] at hread
    obtain ⟨hfirst, hspan⟩ := functionAt_span hm
    exact ih (by omega) ((h.indented _).addMethod hlast hi lines m hfirst hspan) hread
  | case5 i b hi line hline t hblank b₁ hindent hstart hm ih =>
    rw [ClassBody.read, if_pos hi, hline] at hread
    simp only [t] at hblank hstart
    simp only [b₁] at hindent
    simp only [hblank, if_false, hindent, hstart, if_true, hm] at hread
    exact ih (by omega) ((h.indented _).mono (Nat.le_succ i)) hread
  | case6 i b hi line hline t hblank b₁ hindent hstart ih =>
    rw [ClassBody.read, if_pos hi, hline] at hread
    simp only [t] at hblank hstart
    simp only [b₁] at hindent
    simp only [hblank, if_false, hindent, hstart] at hread
    exact ih (by omega) (((h.indented _).mono (Nat.le_succ i)).addAttribute t) hread
  | case7 i b hi =>
    rw [ClassBody.read, if_neg hi] at hread
    cases hread
    exact ⟨i, h⟩

end ClassBody

/-! ## Classes -/

/-- The methods and the constructor of a class whose header ends on line `last` come one after another inside it, and no
two properties have one name. -/
structure MembersLaidOut (last : Nat) (t : TypeDecl) : Prop where
  inside : ∀ m ∈ t.constructor?.toList ++ t.methods,
    (last : Int) + 1 < m.startLine ∧ m.startLine ≤ t.endLine ∧ m.startLine ≤ m.endLine
  ordered : t.methods.Pairwise fun m m' => m.endLine < m'.startLine
  apart : ∀ c ∈ t.constructor?, ∀ m ∈ t.methods, m.endLine < c.startLine ∨ c.endLine < m.startLine
  methods_named : ∀ m ∈ t.methods, m.name ≠ constructorName
  constructor_named : ∀ c ∈ t.constructor?, c.name = constructorName
  properties_nodup : (t.properties.map Property.name).Nodup

/-- **A class ends where its block does, with its members inside.**  Where no header parses there is no class. -/
theorem classAt_cases {lines : List Text} {total i : Nat} {found : Option TypeDecl}
    (h : classAt? lines total i = .ok found) :
    (ClassHeader.read? (lines.drop i) = none ∧ found = none) ∨
      ∃ header t stop, ClassHeader.read? (lines.drop i) = some header ∧ found = some t ∧ t.name = header.name ∧
        t.startLine = (i : Int) + 1 ∧ t.endLine = (stop : Nat) ∧ IsBlock lines total i (i + header.extraLines) stop ∧
        MembersLaidOut (i + header.extraLines) t := by
  unfold classAt? at h
  cases hheader : ClassHeader.read? (lines.drop i) with
  | none =>
    simp only [hheader] at h
    cases h
    exact .inl ⟨rfl, rfl⟩
  | some header =>
    simp only [hheader] at h
    have hblock := isBlock_blockEnd lines total i (i + header.extraLines) (Nat.le_add_right _ _)
    generalize blockEnd (indentation ((lines[i]?).getD [])) total (i + header.extraLines + 1) lines = stop at h hblock
    have hfirst := start_le_afterDocumentation lines (i + header.extraLines + 1) stop
    cases hread : ClassBody.read lines total stop (afterDocumentation lines (i + header.extraLines + 1) stop) {} with
    | error e =>
      rw [hread] at h
      cases h
    | ok b =>
      rw [hread] at h
      cases h
      obtain ⟨final, hb⟩ := ClassBody.read_isLaidOut (show i + header.extraLines < _ by omega)
        ClassBody.isLaidOut_empty hread
      refine .inr ⟨header, _, stop, rfl, rfl, rfl, rfl, rfl, hblock, ?_, hb.ordered, hb.apart, hb.methods_named,
        hb.constructor_named, hb.properties_nodup⟩
      intro m hm
      obtain ⟨hlast, hstop, hspan, -⟩ := hb.inside m hm
      exact ⟨hlast, hstop, hspan⟩

end SourceDoc.Indented
