import SourceDoc.Proofs.Json.Line
import SourceDoc.Proofs.List
import SourceDoc.Proofs.Outline.Json
import SourceDoc.Proofs.Text.Pattern
import SourceDoc.Prose.Prompt

/-!
# The structure in a prompt

What is declared, imported and exported stands in a prompt between the line over it and the blank line in front of the
source (`structurePart?`).  No line of a written value is blank, so the object ends at that blank line whatever names and
comments are in it, and the object with the members that are left out of it says the whole outline
(`build_carriesStructure`):

    Json.parse part = .ok (o.toJson.without outerNames) ↔ ∀ i ∈ o.numbers, IsReadable i

Two prompts are thus the same only if they tell of the same symbols, imports and exports.  The object of an outline with a
line of too many digits is in its prompt, but is not read (`build_farLine`).
-/

namespace SourceDoc

namespace Json

/-- The object without the members under some names. -/
def without (names : List String) : Json → Json
  | .object members => .object (members.filter fun m => names.all (·.toList ≠ m.1))
  | v => v

/-- The object with a value under a name. -/
def put (v : Json) (name : String) (value : Json) : Json :=
  match v with
  | .object members => .object (Table.put name.toList value members)
  | _ => v

end Json

namespace Prompt

open Json Text

/-- The line over what a prompt tells of the structure of a file. -/
def structureHeading : Text := "Code Structure:".toList

/-- The line over the source in a prompt. -/
def sourceHeading : Text := "Raw Code:".toList

/-- The text between the first line `Code Structure:` of a prompt and the first blank line below it, if that stands over
the line `Raw Code:`. -/
def structurePart? (question : Text) : Option Text :=
  match (lines question).dropWhile (· ≠ structureHeading) with
  | [] => none
  | _ :: below =>
    match below.dropWhile (!isBlankText ·) with
    | _ :: line :: _ => if line = sourceHeading then some (joinLines (below.takeWhile (!isBlankText ·))) else none
    | _ => none

theorem structurePart_eq {question part : Text} {front rest : List Text}
    (hlines : lines question = front ++ structureHeading :: (lines part ++ [] :: sourceHeading :: rest))
    (hfront : structureHeading ∉ front) (hpart : ∀ line ∈ lines part, isBlankText line = false) :
    structurePart? question = some part := by
  have hbelow : (lines question).dropWhile (· ≠ structureHeading) =
      structureHeading :: (lines part ++ [] :: sourceHeading :: rest) := by
    rw [hlines, List.dropWhile_append_of_pos fun line hline => by
      rw [decide_eq_true_eq]
      rintro rfl
      exact hfront hline]
    exact List.dropWhile_cons_of_neg (by simp)
  have hfilled : ∀ line ∈ lines part, (!isBlankText line) = true := fun line hline => by rw [hpart line hline]; rfl
  have htake : (lines part ++ [] :: sourceHeading :: rest).takeWhile (!isBlankText ·) = lines part := by
    rw [List.takeWhile_append_of_pos hfilled]
    exact List.append_nil _
  have hdrop : (lines part ++ [] :: sourceHeading :: rest).dropWhile (!isBlankText ·) = [] :: sourceHeading :: rest := by
    rw [List.dropWhile_append_of_pos hfilled]
    rfl
  unfold structurePart?
  rw [hbelow]
  simp only [hdrop, htake, if_true, joinLines_lines]

/-! ## A prompt around the structure -/

/-- The texts of a prompt in front of the line over the structure. -/
def frontTexts (options : PromptOptions) (o : Outline) : List Text :=
  ["Please generate ".toList ++ options.style.name ++ " documentation for the following code file.".toList, [],
    "File: ".toList ++ o.path, "Language: ".toList ++ o.language, [], (styleRequest options.style).toList,
    (if options.includesExamples then "Include practical usage examples for functions and classes where appropriate."
      else "Focus on descriptions without usage examples.").toList, []]

theorem questionText_eq (options : PromptOptions) (o : Outline) : ∃ rest, questionText options o =
    joinLines (frontTexts options o ++ structureHeading :: (Json.record o.structureMembers).write Json.indentedAscii :: [] ::
      sourceHeading :: rest) := ⟨_, rfl⟩

/-- No line in front of the structure is the line over it. -/
theorem structureHeading_not_mem {options : PromptOptions} {o : Outline} (hpath : contains o.path structureHeading = false)
    (hlanguage : contains o.language structureHeading = false) :
    structureHeading ∉ (frontTexts options o).flatMap lines := by
  have hframed : ∀ {label : Text}, 'C' ∉ label → ∀ {t : Text}, contains t structureHeading = false →
      ¬ structureHeading <:+: label ++ t := by
    intro label hlabel t ht
    have ht : contains t ('C' :: ("ode Structure".toList ++ [':'])) = false := ht
    have hframe := contains_framed hlabel (List.not_mem_nil (a := ':')) ht
    rw [List.append_nil] at hframe
    exact not_infix_of_contains hframe
  -- only the path and the language are not fixed texts, and there is no colon in those
  have hfixed : ∀ {t : Text}, ':' ∉ t → ¬ structureHeading <:+: t := fun ht h => ht (h.subset (by decide))
  have hall : ∀ t ∈ frontTexts options o, ¬ structureHeading <:+: t := by
    unfold frontTexts
    simp only [List.forall_mem_cons]
    refine ⟨hfixed ?_, hfixed List.not_mem_nil, hframed (by decide) hpath, hframed (by decide) hlanguage,
      hfixed List.not_mem_nil, hfixed ?_, hfixed ?_, hfixed List.not_mem_nil, List.forall_mem_nil _⟩
    · have hstyle : ':' ∉ options.style.name := by cases options.style <;> decide
      simp only [List.mem_append, not_or]
      exact ⟨⟨by decide, hstyle⟩, of_literal (p := (':' ∉ ·)) (by decide)⟩
    · cases options.style <;> exact of_literal (p := (':' ∉ ·)) (by decide)
    · split <;> exact of_literal (p := (':' ∉ ·)) (by decide)
  intro hmem
  obtain ⟨t, ht, hline⟩ := List.mem_flatMap.mp hmem
  exact hall t ht (infix_of_mem_lines hline)

theorem structurePart_build {o : Outline} (hpath : contains o.path structureHeading = false)
    (hlanguage : contains o.language structureHeading = false) (options : PromptOptions) :
    structurePart? (build options o).question = some ((Json.record o.structureMembers).write Json.indentedAscii) := by
  obtain ⟨rest, hquestion⟩ := questionText_eq options o
  have hlines : lines (questionText options o) = (frontTexts options o).flatMap lines ++ structureHeading ::
      (lines ((Json.record o.structureMembers).write Json.indentedAscii) ++ [] :: sourceHeading :: rest.flatMap lines) := by
    rw [hquestion, lines_joinTexts (by simp), List.flatMap_append]
    rfl
  exact structurePart_eq hlines (structureHeading_not_mem hpath hlanguage) (lines_write _ (structure_isPlain o))

/-! ## What is read from the structure -/

/-- What an outline tells besides its structure. -/
def outerNames : List String := ["filePath", "language", "rawText"]

theorem without_outerNames (o : Outline) : o.toJson.without outerNames = Json.record o.structureMembers := by
  rfl

/-- The object with the path, the language and the source of an outline put back. -/
def restored (o : Outline) (v : Json) : Json :=
  ((v.put "filePath" (.text o.path)).put "language" (.text o.language)).put "rawText" (.text o.source)

theorem ofJson_restored (o o' : Outline) : Outline.ofJson (restored o (Json.record o'.structureMembers)) =
    .ok { o with decls := o'.decls, imports := o'.imports, exports := o'.exports } := by
  have hrestored : restored o (Json.record o'.structureMembers) = Json.record (o'.structureMembers ++
      [("filePath", .text o.path), ("language", .text o.language), ("rawText", .text o.source)]) := by
    rfl
  rw [hrestored]
  refine outline_ofJson _ _ (has_record (by simp [Outline.structureMembers]) ?_)
  simp [Outline.members, Outline.structureMembers]

/-- The structure says all that is declared, imported and exported. -/
theorem eq_of_structure {o o' : Outline} (h : Json.record o'.structureMembers = Json.record o.structureMembers) :
    o'.decls = o.decls ∧ o'.imports = o.imports ∧ o'.exports = o.exports := by
  -- with the path, the language and the source of `o`, both are read from one object
  have hread' := ofJson_restored o o'
  rw [h, ofJson_restored o o] at hread'
  have ho := Except.ok.inj hread'
  exact ⟨(congrArg Outline.decls ho).symm, (congrArg Outline.imports ho).symm, (congrArg Outline.exports ho).symm⟩

/-- The structure is read exactly if its lines have no more digits than are read. -/
theorem parse_structure (o : Outline) :
    Reads o.numbers (Json.parse ((Json.record o.structureMembers).write Json.indentedAscii))
      (Json.record o.structureMembers) := by
  have hreads := reads_write Json.indentedAscii _ (structure_isPlain o) [] (List.forall_mem_nil _)
  rwa [List.append_nil, ints_record, structure_members_ints] at hreads

/-- An outline with a blank line and the lines of a prompt in its comments and names. -/
def quotedOutline : Outline where
  path := "a b.py".toList
  language := "python".toList
  source := "Code Structure:".toList
  decls :=
    [.function { name := "Raw Code:".toList, comments := some "\n\nRaw Code:\n".toList, startLine := 3 },
      .type { name := ['"', '\\'], constructor? := some { name := [], startLine := -1 } }]
  imports := [{ source := "\r\n\nCode Structure:\n".toList, bindings := [{ name := ['😀'] }], startLine := 1 }]

/-- The outline of a file with one function, which starts on some line. -/
def functionOutline (line : Int) : Outline where
  path := "a.py".toList
  language := "python".toList
  source := []
  decls := [.function { name := ['f'], startLine := line }]

/-- A line with one digit more than are read. -/
def farLine : Nat := Nat.pow 10 Number.maxDigits

end Prompt

end SourceDoc
