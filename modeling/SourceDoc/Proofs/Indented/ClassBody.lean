import SourceDoc.Indented.Symbol

/-!
# Reading the body of a class

The body of a class is read in steps: a step takes one line, adds what it finds there, and says which line comes next
(`ClassBody.step`).  Reading is the repetition of steps up to the end of the body (`read_of_line`), so what a step keeps
is kept by reading (`readInduction`).  A step adds a method and goes on behind it, or goes on with the next line
(`step_cases`); how the functions are changed has no part in what else it does (`step_mapFunctions`).
-/

namespace SourceDoc.Indented.ClassBody

open Text

/-- What is known after line `i` of the body of a class, and the line to read next. -/
def step (lines : List Text) (total i : Nat) (line : Text) (b : ClassBody) : ClassBody × Nat :=
  let t := strip line
  if t = [] ∨ startsWith t ['#'] then (b, i + 1)
  else
    let b : ClassBody := { b with indent := b.indent.or (some (indentation line)) }
    if b.indent ≠ some (indentation line) then (b, i + 1)
    else if (functionStart? t).isSome then
      match functionAt? lines total true i with
      | some m => (b.addMethod lines i m, max (i + 1) m.endLine.toNat)
      | none => (b, i + 1)
    else (b.addAttribute t, i + 1)

variable {lines : List Text} {total stop i : Nat} {line : Text} {b : ClassBody}

theorem lt_step : i < (step lines total i line b).2 := by
  unfold step
  simp only
  split
  · exact Nat.lt_succ_self i
  · split
    · exact Nat.lt_succ_self i
    · split
      · split
        · exact Nat.lt_of_lt_of_le (Nat.lt_succ_self i) (Nat.le_max_left _ _)
        · exact Nat.lt_succ_self i
      · exact Nat.lt_succ_self i

/-- **Reading goes on after a step.** -/
theorem read_of_line (hi : i < stop) (hline : lines[i]? = some line) :
    read lines total stop i b =
      read lines total stop (step lines total i line b).2 (step lines total i line b).1 := by
  rw [read, if_pos hi, hline]
  unfold step
  simp only
  split
  · rfl
  · split
    · rfl
    · split
      · cases functionAt? lines total true i <;> rfl
      · rfl

theorem read_of_end (hi : ¬ i < stop) : read lines total stop i b = .ok b := by
  rw [read, if_neg hi]

theorem read_of_beyond (hi : i < stop) (hline : lines[i]? = none) :
    read lines total stop i b = .error .beyondLastLine := by
  rw [read, if_pos hi, hline]

/-- What holds at the end of a body and past the last line, and before a step if it holds after it, holds on every
line. -/
theorem readInduction {motive : Nat → ClassBody → Prop} (lines : List Text) (total stop : Nat)
    (ends : ∀ i b, ¬ i < stop → motive i b) (beyond : ∀ i b, i < stop → lines[i]? = none → motive i b)
    (steps : ∀ i b line, i < stop → lines[i]? = some line →
      motive (step lines total i line b).2 (step lines total i line b).1 → motive i b) (i : Nat) (b : ClassBody) :
    motive i b := by
  induction h : stop - i using Nat.strongRecOn generalizing i b with
  | ind n ih =>
    by_cases hi : i < stop
    · cases hline : lines[i]? with
      | none => exact beyond i b hi hline
      | some line =>
        have hlt : i < (step lines total i line b).2 := lt_step
        exact steps i b line hi hline (ih _ (by omega) _ _ rfl)
    · exact ends i b hi

/-! ## Functions of a body -/

/-- The methods and the constructor that are known. -/
def functions (b : ClassBody) : List FunctionDecl := b.methods ++ b.constructor?.toList

theorem functions_addProperty (p : Property) : (b.addProperty p).functions = b.functions := by
  unfold addProperty
  split <;> rfl

theorem functions_addProperties (ps : List Property) : (ps.foldl addProperty b).functions = b.functions := by
  induction ps generalizing b with
  | nil => rfl
  | cons p ps ih => exact ih.trans (functions_addProperty p)

theorem functions_addAttribute (t : Text) : (b.addAttribute t).functions = b.functions := by
  unfold addAttribute
  split
  · rfl
  · split
    · exact functions_addProperty _
    · rfl

/-- A method is there once it is added, and a constructor takes the place of the one before. -/
theorem mem_functions_addMethod (lines : List Text) (i : Nat) (b : ClassBody) (m : FunctionDecl) :
    m ∈ (b.addMethod lines i m).functions ∧ ∀ f ∈ (b.addMethod lines i m).functions, f = m ∨ f ∈ b.functions := by
  unfold addMethod
  split
  · rw [functions_addProperties]
    simp only [functions, Option.toList_some, List.mem_append, List.mem_singleton, or_true, true_and]
    rintro f (h | h)
    · exact .inr (.inl h)
    · exact .inl h
  · simp only [functions, List.mem_append, List.mem_singleton, or_true, true_or, true_and]
    rintro f ((h | h) | h)
    · exact .inr (.inl h)
    · exact .inl h
    · exact .inr (.inr h)

/-- The line starts a method in the body of a class. -/
def startsMethod (b : ClassBody) (line : Text) : Bool :=
  let t := strip line
  !(t = [] ∨ startsWith t ['#']) && b.indent.or (some (indentation line)) = some (indentation line) &&
    (functionStart? t).isSome

/-- The method that a step adds. -/
def method? (lines : List Text) (total i : Nat) (line : Text) (b : ClassBody) : Option FunctionDecl :=
  if b.startsMethod line then functionAt? lines total true i else none

theorem functionAt_of_method {m : FunctionDecl} (h : b.method? lines total i line = some m) :
    functionAt? lines total true i = some m := by
  unfold method? at h
  split at h
  · exact h
  · cases h

/-- **A step adds a method and goes on behind it, or goes on with the next line.** -/
theorem step_cases (lines : List Text) (total i : Nat) (line : Text) (b : ClassBody) :
    (b.method? lines total i line = none ∧ (step lines total i line b).1.functions = b.functions ∧
        (step lines total i line b).2 = i + 1) ∨
      ∃ m, b.method? lines total i line = some m ∧ m ∈ (step lines total i line b).1.functions ∧
        (∀ f ∈ (step lines total i line b).1.functions, f = m ∨ f ∈ b.functions) ∧
        (step lines total i line b).2 = max (i + 1) m.endLine.toNat := by
  unfold step
  simp only
  split
  · rename_i hskip
    exact .inl ⟨by simp [method?, startsMethod, hskip], rfl, rfl⟩
  · rename_i hcode
    split
    · rename_i hindent
      refine .inl ⟨?_, rfl, rfl⟩
      simp only [method?, startsMethod, decide_eq_false hindent, Bool.and_false, Bool.false_and]
      rfl
    · rename_i hindent
      have hsame := Decidable.not_not.mp hindent
      split
      · rename_i hstart
        have hmethod : b.method? lines total i line = functionAt? lines total true i := by
          simp only [method?, startsMethod, hcode, hsame, hstart]
          rfl
        rw [hmethod]
        cases functionAt? lines total true i with
        | none => exact .inl ⟨rfl, rfl, rfl⟩
        | some m =>
          obtain ⟨hmem, hcases⟩ := mem_functions_addMethod lines i { b with indent := b.indent.or _ } m
          exact .inr ⟨m, rfl, hmem, hcases, rfl⟩
      · rename_i hstart
        exact .inl ⟨by simp [method?, startsMethod, hstart], functions_addAttribute _, rfl⟩

/-- The line that is read next. -/
theorem step_next (lines : List Text) (total i : Nat) (line : Text) (b : ClassBody) :
    (step lines total i line b).2 =
      ((b.method? lines total i line).map fun m => max (i + 1) m.endLine.toNat).getD (i + 1) := by
  rcases step_cases lines total i line b with ⟨hm, -, hnext⟩ | ⟨m, hm, -, -, hnext⟩
  · rw [hm, hnext]
    rfl
  · rw [hm, hnext]
    rfl

/-! ## Bodies whose functions are changed -/

/-- What is known, with every function changed in one way. -/
def mapFunctions (g : FunctionDecl → FunctionDecl) (b : ClassBody) : ClassBody :=
  { b with methods := b.methods.map g, constructor? := b.constructor?.map g }

variable (g : FunctionDecl → FunctionDecl)

theorem addProperty_mapFunctions (p : Property) : (b.mapFunctions g).addProperty p = (b.addProperty p).mapFunctions g := by
  unfold addProperty
  split
  · rename_i h
    rw [if_pos (show (b.properties.any fun q => q.name = p.name) = true from h)]
  · rename_i h
    rw [if_neg (show ¬ (b.properties.any fun q => q.name = p.name) = true from h)]
    rfl

theorem addProperties_mapFunctions (ps : List Property) :
    ps.foldl addProperty (b.mapFunctions g) = (ps.foldl addProperty b).mapFunctions g := by
  induction ps generalizing b with
  | nil => rfl
  | cons p ps ih => rw [List.foldl_cons, addProperty_mapFunctions, ih, List.foldl_cons]

theorem addAttribute_mapFunctions (t : Text) :
    (b.mapFunctions g).addAttribute t = (b.addAttribute t).mapFunctions g := by
  unfold addAttribute
  split
  · rfl
  · split
    · exact addProperty_mapFunctions g _
    · rfl

variable {lines' : List Text} {total' i' : Nat}

/-- **A step that finds the same function but for a change adds the same method but for the change.** -/
theorem method_mapFunctions (hat : functionAt? lines' total' true i' = (functionAt? lines total true i).map g) :
    (b.mapFunctions g).method? lines' total' i' line = (b.method? lines total i line).map g := by
  unfold method?
  by_cases h : b.startsMethod line = true
  · rw [if_pos h, if_pos (show (b.mapFunctions g).startsMethod line = true from h), hat]
  · rw [if_neg h, if_neg (show ¬ (b.mapFunctions g).startsMethod line = true from h)]
    rfl

/-- The constructor gives the same attributes if the lines of it do. -/
theorem addMethod_mapFunctions {m : FunctionDecl} (hname : (g m).name = m.name)
    (hattributes : instanceAttributes lines' (i' + 1) (g m).endLine.toNat =
      instanceAttributes lines (i + 1) m.endLine.toNat) :
    (b.mapFunctions g).addMethod lines' i' (g m) = (b.addMethod lines i m).mapFunctions g := by
  unfold addMethod
  rw [hattributes, hname]
  split
  · exact addProperties_mapFunctions g (b := { b with constructor? := some m }) _
  · simp [mapFunctions]

/-- What is known after such a step is the same but for the change. -/
theorem step_mapFunctions (hat : functionAt? lines' total' true i' = (functionAt? lines total true i).map g)
    (hname : ∀ m, (g m).name = m.name)
    (hattributes : ∀ m, functionAt? lines total true i = some m →
      instanceAttributes lines' (i' + 1) (g m).endLine.toNat = instanceAttributes lines (i + 1) m.endLine.toNat) :
    (step lines' total' i' line (b.mapFunctions g)).1 = (step lines total i line b).1.mapFunctions g := by
  -- The indentation is that of the body in both, and has no part in what is added.
  let b' : ClassBody := { b with indent := b.indent.or (some (indentation line)) }
  unfold step
  simp only
  split
  · rfl
  · split
    · rename_i hindent
      rw [if_pos (show ¬ b.indent.or (some (indentation line)) = some (indentation line) from hindent)]
      rfl
    · rename_i hindent
      rw [if_neg (show ¬ ¬ b.indent.or (some (indentation line)) = some (indentation line) from hindent)]
      split
      · rw [hat]
        cases hm : functionAt? lines total true i with
        | none => rfl
        | some m => exact addMethod_mapFunctions g (b := b') (hname m) (hattributes m hm)
      · exact addAttribute_mapFunctions g (b := b') _

end SourceDoc.Indented.ClassBody
