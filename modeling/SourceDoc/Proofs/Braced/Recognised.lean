import SourceDoc.Proofs.Braced.Body
import SourceDoc.Proofs.Braced.Heading
import SourceDoc.Proofs.Braced.Outline

/-!
# Functions read back

A function whose heading stands on one line, with an indented body and a brace under it, is found with all parts of its
heading and with its lines (`extract_heading`).  It is not found where the parameters of types hold a closing bracket,
since the reader takes the first one for their end; and where the type of its receiver has an argument with blanks, the
word after the last one is taken for the type.
-/

namespace SourceDoc.Braced

open Text

/-! ## The heading -/

/-- No blank stands in the argument of the receiver's type. -/
def Heading.HasPlainReceiver (h : Heading) : Prop := ∀ r ∈ h.receiver, ∀ a ∈ r.argument, ∀ c ∈ a, isBlank c = false

/-- A function has the parts of a heading, and a span. -/
structure Heading.IsRead (h : Heading) (start stop : Nat) (f : FunctionDecl) : Prop where
  name : f.name = h.name
  receiver : h.HasPlainReceiver → f.receiver = (h.receiver.map WrittenReceiver.type).getD []
  /-- Of a type whose argument has blanks no more is read than the word after the last of them. -/
  receiver_blank : ∀ r ∈ h.receiver, ∀ front blank word, r.argument = some (front ++ blank :: word) →
    isBlank blank = true → (∀ c ∈ word, isBlank c = false ∧ c ≠ '[' ∧ c ≠ '*') → f.receiver = word ++ [']']
  parameters : ∃ items, IsListOf h.parameters items ∧ Declares items f.parameters
  returnType : ∃ type, f.returnType = some type ∧ IsResult (strip h.result) type
  startLine : f.startLine = start
  endLine : f.endLine = stop

namespace Heading

variable {h : Heading}

theorem receiverType_signature (hw : h.IsWritten) (hreceiver : h.HasPlainReceiver) :
    receiverType (strip ((h.receiver.map WrittenReceiver.text).getD [])) =
      .ok ((h.receiver.map WrittenReceiver.type).getD []) := by
  cases hr : h.receiver with
  | none => rfl
  | some r => exact WrittenReceiver.receiverType_text (hw.receiver r hr) (hreceiver r hr)

theorem not_mem_receiver (hw : h.IsWritten) (hp : h.IsPlain) : ∀ r ∈ h.receiver, ')' ∉ r.text := fun r hr =>
  WrittenReceiver.not_mem_text (hw.receiver r hr) (hp.receiver r hr)

/-- The header of the function holds the parts of the heading. -/
theorem read_line (hw : h.IsWritten) (hp : h.IsPlain) (htypes : ∀ t ∈ h.typeParameters, ']' ∉ t) (below : List Text) :
    FunctionHeader.read? (h.line :: below) =
      some ⟨⟨strip ((h.receiver.map WrittenReceiver.text).getD []), h.name,
        h.parameters ++ ')' :: stripRight h.result⟩, h.parameters, stripRight h.result, some (0, h.signature.length)⟩ := by
  unfold FunctionHeader.read?
  rw [readSignature_line hw hp.words]
  simp only [functionStart_signature hw (not_mem_receiver hw hp) htypes, Option.bind_some]
  have hclosing : breakClosing? isNoQuote 1 none (h.parameters ++ ')' :: stripRight h.result) =
      some (h.parameters, stripRight h.result) :=
    breakClosing_closing (fun _ _ => rfl) hw.parameters.1 rfl rfl rfl _
  rw [hclosing]
  rfl

/-- With a closing bracket in the parameters of types there is no header, unless another bracket opens after it. -/
theorem read_nested (hw : h.IsWritten) (hp : h.IsPlain) {front back : Text}
    (htypes : h.typeParameters = some (front ++ ']' :: back)) (hfront : ']' ∉ front)
    (hback : ∀ c ∈ (stripLeft back).head?, c ≠ '(') (below : List Text) :
    FunctionHeader.read? (h.line :: below) = none := by
  unfold FunctionHeader.read?
  rw [readSignature_line hw hp.words]
  simp only [functionStart_nested hw (not_mem_receiver hw hp) htypes hfront hback, Option.bind_none]

theorem startsWith_line (h : Heading) : startsWith h.line "func".toList = true := by
  unfold startsWith
  rw [List.isPrefixOf_iff_prefix]
  refine ⟨[' '] ++ (h.receiver.map fun r => '(' :: r.text ++ [')', ' ']).getD [] ++ h.name ++
    (h.typeParameters.map fun t => '[' :: t ++ [']']).getD [] ++ ('(' :: h.parameters ++ [')']) ++ h.result ++
      ['\x7b'], ?_⟩
  simp [line, signature, front]

end Heading

/-! ## The functions of a file -/

section

variable {lines : List Text} {total : Nat} {functions : List FunctionDecl}

/-- The functions of a file are those on its lines. -/
theorem mem_functionsOf_iff (h : functionsOf lines total = .ok functions) (f : FunctionDecl) :
    f ∈ functions ↔ ∃ i < lines.length, functionOn? lines total i = .ok (some f) := by
  obtain ⟨found, hfound, hmatch⟩ := mapM_ok_of_forall (P := fun i r => functionOn? lines total i = .ok r)
    (List.range lines.length) fun i hi => by
      obtain ⟨r, hr, -⟩ := functionOn_ok total (List.mem_range.mp hi)
      exact ⟨r, hr, hr⟩
  have hfunctions : functions = found.filterMap id := by
    unfold functionsOf at h
    rw [hfound] at h
    cases h
    rfl
  rw [hfunctions, List.mem_filterMap]
  constructor
  · rintro ⟨f?, hmem, rfl⟩
    obtain ⟨i, hi, hon⟩ := exists_mem_of_forall₂ hmatch _ hmem
    exact ⟨i, List.mem_range.mp hi, hon⟩
  · rintro ⟨i, hi, hon⟩
    obtain ⟨f?, hmem, hf⟩ := exists_mem_of_forall₂ hmatch.flip i (List.mem_range.mpr hi)
    rw [hon] at hf
    cases hf
    exact ⟨_, hmem, rfl⟩

end

/-- The functions of an outline are those of the file, and no two start on one line. -/
theorem extract_functions (path source : Text) :
    ∃ o, (Extractor.builtIn .go).extract path source = .ok o ∧
      functionsOf (Text.lines source) (boundaryLines source).length = .ok o.functions ∧
      (∀ f ∈ o.functions, ∃ i < (Text.lines source).length,
        IsFunctionOn (Text.lines source) (boundaryLines source).length i f) ∧
      o.functions.Pairwise fun f f' => f.startLine < f'.startLine := by
  obtain ⟨o, types, ho, h⟩ := extract_holds path source
  exact ⟨o, ho, h.functions, h.function_on, h.functions_increasing⟩

/-! ## A function in a file -/

/-- A file holds a function: its heading, an indented body that closes its own braces, and a brace under it. -/
structure Heading.StandsIn (h : Heading) (lines above body below : List Text) : Prop where
  lines_eq : lines = above ++ h.line :: (body ++ ['\x7d'] :: below)
  indented : ∀ line ∈ body, line = [] ∨ isIndented line = true
  code : IsCode 0 (textOf body)

section

variable {h : Heading} {lines above body below : List Text}

/-- No function starts on the lines of the body, nor on the line that closes it. -/
theorem Heading.StandsIn.not_marked (hs : h.StandsIn lines above body below) {i : Nat} (hlow : above.length < i)
    (hhigh : i ≤ above.length + body.length + 1) : startsWith ((lines[i]?).getD []) "func".toList = false := by
  obtain ⟨k, rfl⟩ : ∃ k, i = above.length + (k + 1) := ⟨i - above.length - 1, by omega⟩
  have hget : lines[above.length + (k + 1)]? = (body ++ ['\x7d'] :: below)[k]? := by
    rw [hs.lines_eq, List.getElem?_append_right (Nat.le_add_right _ _), Nat.add_sub_cancel_left,
      List.getElem?_cons_succ]
  rw [hget]
  rcases Nat.lt_or_ge k body.length with hk | hk
  · rw [List.getElem?_append_left hk, List.getElem?_eq_getElem hk, Option.getD_some]
    rcases hs.indented _ (List.getElem_mem hk) with hnil | hblank
    · rw [hnil]
      rfl
    · generalize body[k] = line at hblank
      cases line with
      | nil => rfl
      | cons c line =>
        rw [← Bool.not_eq_true]
        intro hmark
        obtain ⟨rfl, -⟩ := List.cons_prefix_cons.mp (List.isPrefixOf_iff_prefix.mp hmark)
        cases hblank
  · obtain rfl : k = body.length := by omega
    rw [List.getElem?_append_right (Nat.le_refl _), Nat.sub_self]
    rfl

theorem Heading.StandsIn.drop_eq (hs : h.StandsIn lines above body below) :
    lines.drop above.length = h.line :: (body ++ ['\x7d'] :: below) := by
  rw [hs.lines_eq, List.drop_left]

theorem Heading.StandsIn.getElem_eq (hs : h.StandsIn lines above body below) : lines[above.length]? = some h.line := by
  have := congrArg List.head? hs.drop_eq
  rwa [List.head?_drop] at this

/-- **The function on the line of a heading has its parts.** -/
theorem Heading.StandsIn.functionOn (hs : h.StandsIn lines above body below) (hw : h.IsWritten) (hp : h.IsPlain)
    (htypes : ∀ t ∈ h.typeParameters, ']' ∉ t) (hline : ∀ line ∈ lines, '\n' ∉ line) (total : Nat) :
    ∃ f, functionOn? lines total above.length = .ok (some f) ∧
      h.IsRead (above.length + 1) (above.length + body.length + 2) f := by
  have hlines : lines = above ++ (h.signature ++ '\x7b' :: []) :: (body ++ ([] ++ ['\x7d']) :: below) := hs.lines_eq
  have hclosing : closingLine lines total above.length h.signature.length = above.length + body.length + 2 :=
    closingLine_block hlines rfl rfl hs.code hline total
  unfold functionOn?
  rw [hs.getElem_eq, Option.getD_some, if_pos h.startsWith_line]
  unfold functionAt?
  rw [hs.drop_eq, Heading.read_line hw hp htypes]
  obtain ⟨receiver, hreceiver⟩ := receiverType_ok ((h.receiver.map WrittenReceiver.text).getD [])
  simp only [hreceiver]
  refine ⟨_, rfl, rfl, fun hplain => ?_, fun r hr front blank word hargument hblank hword => ?_,
    ⟨_, isListOf_split hw.parameters.2 hw.parameters.1, parametersOf_read _⟩, ⟨_, rfl, ?_⟩, rfl, ?_⟩
  · rw [Heading.receiverType_signature hw hplain] at hreceiver
    cases hreceiver
    rfl
  · have hread := WrittenReceiver.receiverType_blank (hw.receiver r hr) hargument hblank hword
    rw [Option.mem_def.mp hr, Option.map_some, Option.getD_some, hread] at hreceiver
    cases hreceiver
    rfl
  · have hquote : ∀ c ∈ stripRight h.result, isQuote c = false := fun c hc =>
      hw.result.2.1 c ((stripRight_within h.result).subset hc)
    have hread := resultType_read hquote (by rw [strip_stripRight]; exact hp.result)
    rwa [strip_stripRight] at hread
  · show ((FunctionHeader.stop _ lines total above.length : Nat) : Int) = _
    unfold FunctionHeader.stop
    simp only [Nat.add_zero, hclosing]

theorem Heading.StandsIn.functionOn_nested (hs : h.StandsIn lines above body below) (hw : h.IsWritten) (hp : h.IsPlain)
    {front back : Text} (htypes : h.typeParameters = some (front ++ ']' :: back)) (hfront : ']' ∉ front)
    (hback : ∀ c ∈ (stripLeft back).head?, c ≠ '(') (total : Nat) :
    functionOn? lines total above.length = .ok none := by
  unfold functionOn?
  rw [hs.getElem_eq, Option.getD_some, if_pos h.startsWith_line]
  unfold functionAt?
  rw [hs.drop_eq, Heading.read_nested hw hp htypes hfront hback]

end

/-- The functions that start on the lines of a span. -/
def functionsIn (o : Outline) (start stop : Nat) : List FunctionDecl :=
  o.functions.filter fun f => (start : Int) ≤ f.startLine ∧ f.startLine ≤ (stop : Int)

section

variable {o : Outline} {source : Text} {total : Nat} {h : Heading} {above body below : List Text}
  (hfunctions : functionsOf (Text.lines source) total = .ok o.functions)
  (hlies : ∀ f ∈ o.functions, ∃ i < (Text.lines source).length, IsFunctionOn (Text.lines source) total i f)
  (hs : h.StandsIn (Text.lines source) above body below)

include hlies hs

/-- A function on the lines of a heading and its body starts on the first of them. -/
theorem startLine_of_mem {f : FunctionDecl} (hf : f ∈ functionsIn o (above.length + 1) (above.length + body.length + 2)) :
    f ∈ o.functions ∧ f.startLine = above.length + 1 := by
  obtain ⟨hmem, hspan⟩ := List.mem_filter.mp hf
  obtain ⟨hlow, hhigh⟩ := of_decide_eq_true hspan
  obtain ⟨i, -, hon⟩ := hlies f hmem
  have hstart : f.startLine = (i : Int) + 1 := hon.lies.starts
  by_cases hi : i = above.length
  · exact ⟨hmem, by omega⟩
  · have hmarked := hon.marked
    rw [hs.not_marked (by omega) (by omega)] at hmarked
    cases hmarked

include hfunctions

theorem functionsIn_nested (hw : h.IsWritten) (hp : h.IsPlain) {front back : Text}
    (htypes : h.typeParameters = some (front ++ ']' :: back)) (hfront : ']' ∉ front)
    (hback : ∀ c ∈ (stripLeft back).head?, c ≠ '(') :
    functionsIn o (above.length + 1) (above.length + body.length + 2) = [] := by
  refine List.eq_nil_iff_forall_not_mem.mpr fun f hf => ?_
  obtain ⟨hmem, hfirst⟩ := startLine_of_mem hlies hs hf
  obtain ⟨i, hi, hon⟩ := (mem_functionsOf_iff hfunctions f).mp hmem
  obtain ⟨found, hfound, hfunction⟩ := functionOn_ok total hi
  rw [hon] at hfound
  cases hfound
  have hstart : f.startLine = (i : Int) + 1 := (hfunction f rfl).lies.starts
  obtain rfl : i = above.length := by omega
  rw [hs.functionOn_nested hw hp htypes hfront hback] at hon
  cases hon

theorem functionsIn_read (hfs : o.functions.Pairwise fun f f' => f.startLine < f'.startLine) (hw : h.IsWritten)
    (hp : h.IsPlain) (htypes : ∀ t ∈ h.typeParameters, ']' ∉ t) :
    ∃ f, functionsIn o (above.length + 1) (above.length + body.length + 2) = [f] ∧
      h.IsRead (above.length + 1) (above.length + body.length + 2) f := by
  have hline : ∀ line ∈ Text.lines source, '\n' ∉ line := fun line hmem => not_mem_of_mem_splitOn hmem
  have hlength : above.length < (Text.lines source).length := by
    rw [hs.lines_eq]
    simp
  obtain ⟨f, hon, hread⟩ := hs.functionOn hw hp htypes hline total
  have hmem := (mem_functionsOf_iff hfunctions f).mpr ⟨above.length, hlength, hon⟩
  have hstart := hread.startLine
  refine ⟨f, filter_eq_singleton _ hfs hmem (decide_eq_true ⟨by omega, by omega⟩) fun f' hf' hspan => ?_, hread⟩
  have hfirst := (startLine_of_mem hlies hs (List.mem_filter.mpr ⟨hf', hspan⟩)).2
  omega

end

/-- **A function whose heading stands on one line is found, once, with all its parts and its lines,** if no bracket is
closed in its parameters of types and no blank stands in the argument of its receiver's type.  If such a bracket is
closed, and none opens after it, there is no function on these lines. -/
theorem extract_heading (h : Heading) (hw : h.IsWritten) (hp : h.IsPlain) (path source : Text)
    (above body below : List Text) (hs : h.StandsIn (Text.lines source) above body below) :
    ∃ o, (Extractor.builtIn .go).extract path source = .ok o ∧
      ((∀ t ∈ h.typeParameters, ']' ∉ t) →
        ∃ f, functionsIn o (above.length + 1) (above.length + body.length + 2) = [f] ∧
          h.IsRead (above.length + 1) (above.length + body.length + 2) f) ∧
      ∀ front back, h.typeParameters = some (front ++ ']' :: back) → ']' ∉ front →
        (∀ c ∈ (stripLeft back).head?, c ≠ '(') →
          functionsIn o (above.length + 1) (above.length + body.length + 2) = [] := by
  obtain ⟨o, ho, hfunctions, hlies, hfs⟩ := extract_functions path source
  exact ⟨o, ho, functionsIn_read hfunctions hlies hs hfs hw hp,
    fun front back => functionsIn_nested hfunctions hlies hs hw hp⟩

namespace Sample

/-- A method with parameters of types and two results. -/
def method : Heading where
  receiver := some ⟨some ['s'], true, "Stack".toList, some ['T']⟩
  name := "Push".toList
  typeParameters := some "E any".toList
  parameters := "v T, n int".toList
  result := " (int, error) ".toList

/-- The parameters of types hold a type with brackets of its own. -/
def nested : Heading where
  receiver := none
  name := ['F']
  typeParameters := some "S ~[]E, E any".toList
  parameters := "s S".toList
  result := " int ".toList

def body : List Text := ["\treturn 1".toList]

theorem code_body : IsCode 0 (textOf body) := by
  show IsCode 0 ['\t', 'r', 'e', 't', 'u', 'r', 'n', ' ', '1', '\n']
  repeat refine .plain _ _ (by decide) ?_
  exact .nil

end Sample

/-- A method is found with its receiver, its two parameters and its two results. -/
theorem extract_heading_sample : Sample.method.IsWritten ∧ Sample.method.IsPlain ∧
    Sample.method.StandsIn (Text.lines (Sample.method.line ++ "\n\treturn 1\n\x7d".toList)) [] Sample.body [] ∧
    ∃ o f, (Extractor.builtIn .go).extract "a.go".toList (Sample.method.line ++ "\n\treturn 1\n\x7d".toList) = .ok o ∧
      functionsIn o 1 3 = [f] ∧ Sample.method.IsRead 1 3 f := by
  have hw : Sample.method.IsWritten := by
    refine ⟨?_, by decide, ?_, ⟨rfl, by decide⟩, ⟨rfl, by decide, by decide⟩, by decide⟩
    · rintro r hr
      cases hr
      exact ⟨by decide, by decide, by rintro a ha; cases ha; rfl⟩
    · rintro t ht
      cases ht
      rfl
  have hp : Sample.method.IsPlain := by
    have hinner : ∀ inner, strip Sample.method.result = '(' :: inner ++ [')'] → inner = "int, error".toList := by
      intro inner h
      have hcut : '(' :: ("int, error".toList ++ [')']) = '(' :: (inner ++ [')']) := h
      exact (List.append_cancel_right (List.cons.inj hcut).2).symm
    refine ⟨?_, by decide, ⟨fun inner h => ?_, fun inner h => ?_⟩⟩
    · rintro r hr a ha
      cases hr
      cases ha
      decide
    · rw [hinner inner h]
      rfl
    · rw [hinner inner h]
      intro hone
      exact absurd hone (by decide)
  have hs : Sample.method.StandsIn (Text.lines (Sample.method.line ++ "\n\treturn 1\n\x7d".toList)) [] Sample.body [] :=
    ⟨rfl, by decide, Sample.code_body⟩
  obtain ⟨o, ho, hfound, -⟩ := extract_heading Sample.method hw hp "a.go".toList _ [] Sample.body [] hs
  obtain ⟨f, hf, hread⟩ := hfound (by rintro t ht; cases ht; decide)
  exact ⟨hw, hp, hs, o, f, ho, hf, hread⟩

/-- A bracket that is closed in the parameters of types keeps a function from being found. -/
theorem extract_nested : Sample.nested.IsWritten ∧
    Sample.nested.StandsIn (Text.lines (Sample.nested.line ++ "\n\treturn 1\n\x7d".toList)) [] Sample.body [] ∧
    ∃ o, (Extractor.builtIn .go).extract "a.go".toList (Sample.nested.line ++ "\n\treturn 1\n\x7d".toList) = .ok o ∧
      functionsIn o 1 3 = [] := by
  have hw : Sample.nested.IsWritten := by
    refine ⟨by simp [Sample.nested], by decide, ?_, ⟨rfl, by decide⟩, ⟨rfl, by decide, by decide⟩, by decide⟩
    rintro t ht
    cases ht
    rfl
  have hp : Sample.nested.IsPlain := by
    refine ⟨by simp [Sample.nested], by decide, ⟨fun inner h => ?_, fun inner h => ?_⟩⟩
    · cases h
    · cases h
  have hs : Sample.nested.StandsIn (Text.lines (Sample.nested.line ++ "\n\treturn 1\n\x7d".toList)) [] Sample.body [] :=
    ⟨rfl, by decide, Sample.code_body⟩
  obtain ⟨o, ho, hfunctions, hlies, -⟩ := extract_functions "a.go".toList
    (Sample.nested.line ++ "\n\treturn 1\n\x7d".toList)
  have htypes : Sample.nested.typeParameters = some ("S ~[".toList ++ ']' :: "E, E any".toList) := rfl
  have hback : ∀ c ∈ (stripLeft "E, E any".toList).head?, c ≠ '(' := by
    rintro c hc
    cases hc
    decide
  exact ⟨hw, hs, o, ho, functionsIn_nested hfunctions hlies hs hw hp htypes (by decide) hback⟩

end SourceDoc.Braced
