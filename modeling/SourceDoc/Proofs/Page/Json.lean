import SourceDoc.Page.Json
import SourceDoc.Proofs.Document.Json

/-!
# JSON pages read back

The page of a document is read back as the document, whatever its texts are and whatever the time, exactly if the
numbers on it have no more digits than are read:

    d.WellKeyed → (readPage (documentPage now d) = .ok d ↔ ∀ i ∈ numbers d, IsReadable i)     (readPage_documentPage)

The numbers are the counts and the lines.  A document with a line number of more digits is not read back
(`readPage_farLine`).
-/

namespace SourceDoc.JsonPage

open Json

/-- The whole numbers on the page of a document: the lines of its parts, the counts, and the lines of the outline. -/
def numbers (d : Document) : List Int :=
  d.partNumbers ++ [(d.outline.lineCount : Int), d.outline.functions.length, d.outline.types.length,
    d.outline.imports.length, d.outline.exports.length] ++ d.outline.numbers

theorem documentValue_isPlain (now : Text) (d : Document) (h : d.WellKeyed) : (documentValue now d).IsPlain := by
  refine isPlain_record _ (by simp) ?_
  simp only [List.forall_mem_cons]
  refine ⟨isPlain_record _ (by simp) ?_, document_isPlain d h, isPlain_record _ (by simp) ?_, outline_isPlain d.outline,
    by simp⟩
  · simp [generator, ofString]
  · simp [ofNat]

theorem documentValue_ints (now : Text) (d : Document) : (documentValue now d).ints = numbers d := by
  rw [documentValue, ints_record]
  simp only [List.flatMap_cons, List.flatMap_nil, ints_record, document_ints, outline_ints]
  simp [numbers, generator, ofString, ofNat]

/-- The value for a page holds the document. -/
theorem documentOf_documentValue (now : Text) (d : Document) : documentOf (documentValue now d) = .ok d := by
  have h : (documentValue now d).Has _ := has_record (by simp) (List.Subset.refl _)
  have hr := h.required
  simp only [List.forall_mem_cons] at hr
  obtain ⟨-, hdocumentation, -, hparsing, -⟩ := hr
  unfold documentOf
  rw [hdocumentation, hparsing]
  simp only [Except.bind, outline_ofJson_toJson]
  exact document_ofJson_toJson d

/-- What is read off the page of a document. -/
theorem reads_documentPage (now : Text) (d : Document) (h : d.WellKeyed) :
    Reads (numbers d) (Json.parse (documentPage now d)) (documentValue now d) := by
  rw [← documentValue_ints now d]
  exact reads_write indented (documentValue now d) (documentValue_isPlain now d h) ['\n'] (by simp [isSpace])

/-- With readable numbers the document is read back. -/
theorem readPage_of_readable (now : Text) (d : Document) (h : d.WellKeyed) (hi : ∀ i ∈ numbers d, IsReadable i) :
    readPage (documentPage now d) = .ok d := by
  have hreads := reads_documentPage now d h
  unfold Reads at hreads
  rw [if_pos hi] at hreads
  unfold readPage
  rw [hreads]
  simp only [documentOf_documentValue]
  rfl

/-- With a number that is not readable nothing is read back. -/
theorem readPage_of_not_readable (now : Text) (d : Document) (h : d.WellKeyed) (i : Int) (hi : i ∈ numbers d)
    (hn : ¬ IsReadable i) : readPage (documentPage now d) ≠ .ok d := by
  have hreads := reads_documentPage now d h
  unfold Reads at hreads
  rw [if_neg fun hall => hn (hall i hi)] at hreads
  obtain ⟨e, he⟩ := hreads
  unfold readPage
  rw [he]
  intro hok
  cases hok

/-- A document whose texts hold quotes, a backslash, control characters and a character beyond 16 bits, with two
described parameters. -/
def quotedDocument : Document :=
  let f : FunctionDecl :=
    { name := ['"', '\\'], parameters := [{ name := ['a'] }, { name := ['b'] }], startLine := 1, endLine := 2 }
  { outline := { path := ['/', '"'], language := [], source := ['\x00', '\n', '\x1f', '😀'], decls := [.function f] }
    title := ['\r']
    functions := [{ decl := f, parameters := [(['b'], ['"']), (['a'], [])], returns := some [] }]
    proseError := some [] }

/-- The document of a file with one function, which starts on some line. -/
def functionDocument (line : Int) : Document :=
  Document.assemble
    { path := "a.py".toList
      language := "python".toList
      source := []
      decls := [.function { name := ['f'], startLine := line }] } none none

theorem functionDocument_wellKeyed (line : Int) : (functionDocument line).WellKeyed where
  functions := by
    simp [functionDocument, Document.assemble, Outline.functions, Decl.function?, Document.documentFunction,
      DocumentedFunction.WellKeyed]
  types := by simp [functionDocument, Document.assemble, Outline.types, Decl.type?]

theorem line_mem_numbers (line : Int) : line ∈ numbers (functionDocument line) := by
  simp [numbers, functionDocument, Document.assemble, Document.partNumbers, Outline.functions, Decl.function?,
    Document.documentFunction, DocumentedFunction.numbers, FunctionDecl.numbers]

/-- A line with one digit more than are read. -/
def farLine : Nat := Nat.pow 10 Number.maxDigits

end SourceDoc.JsonPage
