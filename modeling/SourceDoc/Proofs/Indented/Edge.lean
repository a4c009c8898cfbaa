import SourceDoc.Indented.Outline

/-!
# Reading imports and exports line by line

A line completes some imports, or leaves one open whose names go on below (`importStep`); so it is with the exported
names (`exportStep`).  Where nothing is left open, what is read in the lines below is read as if they stood alone, so many
lines further down (`importsOf_append`, `exportsOf_append`).
-/

namespace SourceDoc

def Import.shift (n : Nat) (i : Import) : Import := { i with startLine := i.startLine + n }

def Export.shift (n : Nat) (e : Export) : Export := { e with startLine := e.startLine + n }

theorem Import.shift_shift (m n : Nat) : Import.shift m ∘ Import.shift n = Import.shift (m + n) := by
  funext i
  simp only [Function.comp_apply, Import.shift, Import.mk.injEq, true_and]
  omega

theorem Export.shift_shift (m n : Nat) : Export.shift m ∘ Export.shift n = Export.shift (m + n) := by
  funext e
  simp only [Function.comp_apply, Export.shift, Export.mk.injEq, true_and]
  omega

end SourceDoc

namespace SourceDoc.Indented

open Text

variable {lines below : List Text}

/-! ## Imports -/

/-- The imports that a line completes, and the one whose list goes on below. -/
def importStep (opened : Option OpenImport) (line : Nat) (t : Text) : List Import × Option OpenImport :=
  let code := uncommented t
  match opened with
  | some i =>
    let i := { i with names := i.names ++ ' ' :: code }
    if contains code [')'] then ([i.close], none) else ([], some i)
  | none =>
    match importOfNames? line code with
    | some i => if i.isOpen then ([], some i) else ([i.close], none)
    | none => (importsOfModules line code, none)

/-- The import whose list goes on below some lines, the first of which has a number. -/
def importLeft (opened : Option OpenImport) (line : Nat) : List Text → Option OpenImport
  | [] => opened
  | t :: rest => importLeft (importStep opened line t).2 (line + 1) rest

def OpenImport.shift (n : Nat) (i : OpenImport) : OpenImport := { i with startLine := i.startLine + n }

theorem importsFrom_cons (opened : Option OpenImport) (line : Nat) (t : Text) (rest : List Text) :
    importsFrom opened line (t :: rest) =
      (importStep opened line t).1 ++ importsFrom (importStep opened line t).2 (line + 1) rest := by
  cases opened with
  | some i =>
    simp only [importsFrom, importStep]
    split <;> rfl
  | none =>
    simp only [importsFrom, importStep]
    cases importOfNames? line (uncommented t) with
    | none => rfl
    | some i =>
      simp only
      split <;> rfl

theorem importsFrom_append {opened : Option OpenImport} {line : Nat} (h : importLeft opened line lines = none) :
    importsFrom opened line (lines ++ below) =
      importsFrom opened line lines ++ importsFrom none (line + lines.length) below := by
  induction lines generalizing opened line with
  | nil =>
    cases h
    rfl
  | cons t lines ih =>
    rw [List.cons_append, importsFrom_cons, importsFrom_cons, ih h, List.append_assoc, List.length_cons,
      Nat.add_right_comm, Nat.add_assoc]

theorem importOfNames_shift (n line : Nat) (t : Text) :
    importOfNames? ((n + line : Nat) : Int) t = (importOfNames? line t).map (OpenImport.shift n) := by
  unfold importOfNames?
  cases afterWord? "from".toList t with
  | none => rfl
  | some rest =>
    simp only [Option.bind_some]
    cases afterBlanks? (rest.drop (rest.takeWhile (!isBlank ·)).length) with
    | none => rfl
    | some rest' =>
      simp only [Option.bind_some, Option.map_map]
      congr 1
      funext names
      simp only [Function.comp_apply, OpenImport.shift, OpenImport.mk.injEq, true_and]
      omega

theorem importsOfModules_shift (n line : Nat) (t : Text) :
    importsOfModules ((n + line : Nat) : Int) t = (importsOfModules line t).map (Import.shift n) := by
  unfold importsOfModules
  cases afterWord? "import".toList t with
  | none => rfl
  | some items =>
    simp only [List.map_map]
    congr 1
    funext item
    simp only [Function.comp_apply, Import.shift, Import.mk.injEq, true_and]
    omega

theorem importStep_shift (opened : Option OpenImport) (n line : Nat) (t : Text) :
    importStep (opened.map (OpenImport.shift n)) (n + line) t =
      ((importStep opened line t).1.map (Import.shift n), (importStep opened line t).2.map (OpenImport.shift n)) := by
  unfold importStep
  cases opened with
  | some i =>
    simp only [Option.map_some]
    split <;> rfl
  | none =>
    simp only [Option.map_none, importOfNames_shift, importsOfModules_shift]
    cases importOfNames? line (uncommented t) with
    | none => rfl
    | some i =>
      simp only [Option.map_some]
      by_cases hopen : i.isOpen = true
      · rw [if_pos hopen, if_pos (show (i.shift n).isOpen = true from hopen)]
        rfl
      · rw [if_neg hopen, if_neg (show ¬ (i.shift n).isOpen = true from hopen)]
        rfl

theorem importsFrom_shift (n : Nat) (opened : Option OpenImport) (line : Nat) :
    importsFrom (opened.map (OpenImport.shift n)) (n + line) below =
      (importsFrom opened line below).map (Import.shift n) := by
  induction below generalizing opened line with
  | nil => cases opened <;> rfl
  | cons t below ih => rw [importsFrom_cons, importStep_shift, Nat.add_assoc, ih, ← List.map_append, ← importsFrom_cons]

/-- **The imports of closed lines come first.** -/
theorem importsOf_append (h : importLeft none 1 lines = none) :
    importsOf (lines ++ below) = importsOf lines ++ (importsOf below).map (Import.shift lines.length) := by
  unfold importsOf
  rw [importsFrom_append h, Nat.add_comm]
  exact congrArg _ (importsFrom_shift lines.length none 1)

/-! ## Exports -/

/-- The exports of a literal that is closed, or else the literal, which goes on below. -/
def OpenExport.settle (e : OpenExport) : List Export × Option OpenExport :=
  if contains e.literal [e.closing] then (e.close, none) else ([], some e)

/-- The exports that a line completes, and the literal that goes on below. -/
def exportStep (opened : Option OpenExport) (line : Nat) (t : Text) : List Export × Option OpenExport :=
  match opened with
  | some e => OpenExport.settle { e with literal := e.literal ++ ' ' :: uncommented t }
  | none =>
    match exportLiteral? line t with
    | some e => e.settle
    | none => ([], none)

/-- The literal that goes on below some lines, the first of which has a number. -/
def exportLeft (opened : Option OpenExport) (line : Nat) : List Text → Option OpenExport
  | [] => opened
  | t :: rest => exportLeft (exportStep opened line t).2 (line + 1) rest

def OpenExport.shift (n : Nat) (e : OpenExport) : OpenExport := { e with startLine := e.startLine + n }

theorem close_shift (n : Nat) (e : OpenExport) : (e.shift n).close = e.close.map (Export.shift n) := by
  unfold OpenExport.close
  simp only [List.map_filterMap]
  congr 1
  funext name
  split <;> rfl

theorem settle_shift (n : Nat) (e : OpenExport) :
    (e.shift n).settle = (e.settle.1.map (Export.shift n), e.settle.2.map (OpenExport.shift n)) := by
  unfold OpenExport.settle
  by_cases h : contains e.literal [e.closing] = true
  · rw [if_pos h, if_pos (show contains (e.shift n).literal [(e.shift n).closing] = true from h), close_shift]
    rfl
  · rw [if_neg h, if_neg (show ¬ contains (e.shift n).literal [(e.shift n).closing] = true from h)]
    rfl

@[simp] theorem exportsFrom_nil (opened : Option OpenExport) (line : Nat) :
    exportsFrom opened line [] = opened.toList.flatMap OpenExport.close := rfl

theorem exportsFrom_cons (opened : Option OpenExport) (line : Nat) (t : Text) (rest : List Text) :
    exportsFrom opened line (t :: rest) =
      (exportStep opened line t).1 ++ exportsFrom (exportStep opened line t).2 (line + 1) rest := by
  cases opened with
  | some e =>
    simp only [exportsFrom, exportStep, OpenExport.settle]
    split <;> rfl
  | none =>
    simp only [exportsFrom, exportStep]
    cases exportLiteral? line t with
    | none => rfl
    | some e =>
      simp only [OpenExport.settle]
      split <;> rfl

theorem exportsFrom_append {opened : Option OpenExport} {line : Nat} (h : exportLeft opened line lines = none) :
    exportsFrom opened line (lines ++ below) =
      exportsFrom opened line lines ++ exportsFrom none (line + lines.length) below := by
  induction lines generalizing opened line with
  | nil =>
    cases h
    rfl
  | cons t lines ih =>
    rw [List.cons_append, exportsFrom_cons, exportsFrom_cons, ih h, List.append_assoc, List.length_cons,
      Nat.add_right_comm, Nat.add_assoc]

theorem exportLiteral_shift (n line : Nat) (t : Text) :
    exportLiteral? ((n + line : Nat) : Int) t = (exportLiteral? line t).map (OpenExport.shift n) := by
  unfold exportLiteral?
  cases after? "__all__".toList t with
  | none => rfl
  | some rest =>
    simp only [Option.bind_some]
    cases after? ['='] (dropHead ['+'] (stripLeft rest)) with
    | none => rfl
    | some value =>
      simp only [Option.bind_some]
      split <;> simp [OpenExport.shift, Int.add_comm]

theorem exportStep_shift (opened : Option OpenExport) (n line : Nat) (t : Text) :
    exportStep (opened.map (OpenExport.shift n)) (n + line) t =
      ((exportStep opened line t).1.map (Export.shift n), (exportStep opened line t).2.map (OpenExport.shift n)) := by
  unfold exportStep
  cases opened with
  | some e => exact settle_shift n { e with literal := e.literal ++ ' ' :: uncommented t }
  | none =>
    simp only [Option.map_none, exportLiteral_shift]
    cases exportLiteral? line t with
    | none => rfl
    | some e => exact settle_shift n e

theorem exportsFrom_shift (n : Nat) (opened : Option OpenExport) (line : Nat) :
    exportsFrom (opened.map (OpenExport.shift n)) (n + line) below =
      (exportsFrom opened line below).map (Export.shift n) := by
  induction below generalizing opened line with
  | nil =>
    cases opened with
    | none => rfl
    | some e => simp [close_shift]
  | cons t below ih => rw [exportsFrom_cons, exportStep_shift, Nat.add_assoc, ih, ← List.map_append, ← exportsFrom_cons]

/-- **The exports of closed lines come first.** -/
theorem exportsOf_append (h : exportLeft none 1 lines = none) :
    exportsOf (lines ++ below) = exportsOf lines ++ (exportsOf below).map (Export.shift lines.length) := by
  unfold exportsOf
  rw [exportsFrom_append h, Nat.add_comm]
  exact congrArg _ (exportsFrom_shift lines.length none 1)

end SourceDoc.Indented
