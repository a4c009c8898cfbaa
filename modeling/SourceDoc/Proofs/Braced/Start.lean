import SourceDoc.Proofs.Braced.Body
import SourceDoc.Proofs.Braced.Outline

/-!
# The lines on which types start

Whether a line starts a type depends on the line and on whether a group is open there (`startOn?`), so the lines of a
file can be looked at part by part (`typeStartsFrom_append`).  The types that start on a line are those that it starts
(`mem_typeStartsFrom_iff`), and the types of the file are read from there (`Holds.mem_types_iff`).
-/

namespace SourceDoc.Braced

open Text

/-! ## The front of a declaration -/

/-- A type with members has its kind behind its name and its parameters. -/
theorem typeStart_read {name rest : Text} (h : isIdentifier name = true) (hrest : ∀ c ∈ rest.head?, isWord c = false) :
    typeStart? (name ++ rest) = (afterBlanks? (skipSquare rest)).bind fun t =>
      if opensBody t .struct then some (name, .struct) else if opensBody t .interface then some (name, .interface)
      else none := by
  rw [typeStart?, identifier_read h hrest]
  rfl

/-- Where no kind stands behind the name and the parameters there is no type with members. -/
theorem typeStart_none {name rest : Text} (h : isIdentifier name = true) (hrest : ∀ c ∈ rest.head?, isWord c = false)
    (hno : ∀ t, afterBlanks? (skipSquare rest) = some t → ∀ kind, opensBody t kind = false) :
    typeStart? (name ++ rest) = none := by
  rw [typeStart_read h hrest]
  cases ht : afterBlanks? (skipSquare rest) with
  | none => rfl
  | some t =>
    rw [Option.bind_some, hno t ht .struct, hno t ht .interface]
    rfl

theorem not_opensBody {t : Text} {kind : BodyKind} (h : startsWith t kind.word = false) : opensBody t kind = false := by
  have hnone : after? kind.word t = none := if_neg (Bool.not_eq_true _ ▸ h)
  unfold opensBody
  rw [hnone]

/-! ## Headers -/

/-- The header of a type with members from its name on. -/
def headerText (name : Text) (kind : BodyKind) : Text := name ++ (' ' :: (kind.word ++ [' ', '\x7b']))

theorem typeStart_header {name : Text} (h : isIdentifier name = true) (kind : BodyKind) (t : Text) :
    typeStart? (headerText name kind ++ t) = some (name, kind) := by
  have htext : headerText name kind ++ t = name ++ (' ' :: (kind.word ++ (' ' :: '\x7b' :: t))) := by simp [headerText]
  rw [htext, typeStart_read h (by rintro c ⟨⟩; rfl)]
  cases kind <;> rfl

theorem strip_headerText {name : Text} (h : isIdentifier name = true) (kind : BodyKind) :
    strip (headerText name kind) = headerText name kind := by
  obtain ⟨hname, hne⟩ := strip_identifier h
  have htext : headerText name kind = name ++ (' ' :: (kind.word ++ [' '])) ++ ['\x7b'] := by simp [headerText]
  rw [htext]
  exact strip_append_self hname hne (by decide) (by decide) _

/-- **The brace of the body is the first one of the header,** whatever the name holds. -/
theorem braceColumn_header {front : Text} (hfront : '\x7b' ∉ front) (kind : BodyKind) (rest : Text) :
    braceColumn (front ++ kind.word ++ (' ' :: '\x7b' :: rest)) kind = .ok (front.length + kind.word.length + 1) := by
  obtain ⟨front', rest', hfound, between, hbetween⟩ := breakOn_append kind.word front (' ' :: '\x7b' :: rest)
  have hline := eq_of_breakOn hfound
  rw [← hbetween, ← List.append_assoc (front' ++ kind.word)] at hline
  have hsame : front ++ kind.word = front' ++ kind.word ++ between := List.append_cancel_right hline
  have hword : '\x7b' ∉ kind.word := by cases kind <;> decide
  have hbare : '\x7b' ∉ between ++ [' '] := by
    have hall : '\x7b' ∉ front' ++ kind.word ++ between := by
      rw [← hsame]
      simp [hfront, hword]
    simp only [List.mem_append, not_or] at hall ⊢
    exact ⟨hall.2, by decide⟩
  have hbrace : breakOn? ['\x7b'] rest' = some (between ++ [' '], rest) := by
    have hcut : breakOn? ['\x7b'] ('\x7b' :: rest) = some ([], rest) := rfl
    rw [← hbetween, List.append_cons, breakOn_cons_append hbare, hcut]
    simp
  have hlength := congrArg List.length hsame
  simp only [List.length_append] at hlength
  unfold braceColumn
  rw [hfound]
  simp only [hbrace, List.length_append, List.length_singleton]
  congr 1
  omega

/-! ## Bodies -/

/-- The members of a body behind its brace: what stands on the line of the brace, which has number `i`, or else the
lines below it up to the closing one. -/
def membersBehind (i : Nat) (tail : Text) (body : List Text) : List (Nat × Text) :=
  match breakLast? '\x7d' tail with
  | some (inner, _) => ((splitOn ';' inner).filter (!isBlankText ·)).map fun part => (i, part)
  | none => bodyFrom 1 (i + 1) body

theorem bodyOf_eq {lines above body below : List Text} {front tail : Text} {column stop : Nat}
    (hlines : lines = above ++ (front ++ tail) :: (body ++ below)) (hcolumn : column + 1 = front.length)
    (hstop : stop = above.length + 1 + body.length) :
    bodyOf lines above.length column stop = membersBehind above.length tail body := by
  have hget : lines[above.length]? = some (front ++ tail) := by
    rw [hlines, List.getElem?_append_right (Nat.le_refl _), Nat.sub_self]
    rfl
  have hbody : (lines.take stop).drop (above.length + 1) = body := by
    have hsplit : lines = (above ++ [front ++ tail]) ++ (body ++ below) := by rw [hlines]; simp
    have hfront : above.length + 1 = (above ++ [front ++ tail]).length := by simp
    rw [hstop, List.drop_take, hfront, hsplit, List.drop_left, Nat.add_sub_cancel_left, List.take_left]
  unfold bodyOf membersBehind
  dsimp only
  rw [hget, Option.getD_some, hcolumn, List.drop_left]
  cases breakLast? '\x7d' tail with
  | none => exact congrArg (bodyFrom 1 (above.length + 1)) hbody
  | some found => rfl

/-- The type that has some members. -/
def typeWith (name : Text) (kind : BodyKind) (members : List (Nat × Text)) (startLine endLine : Int)
    (comments : Option Text) : SourceDoc.TypeDecl :=
  { name := name
    methods := (membersOf members kind).2.1
    properties := (membersOf members kind).1
    superType := (membersOf members kind).2.2.head?
    isInterface := kind = .interface
    startLine := startLine
    endLine := endLine
    comments := comments
    kind := kind.word }

/-- **A type is read from its header and its body:** `opening` is what stands in front of the word for its kind, `tail`
what stands behind the brace, and `body` ends with the line that closes it. -/
theorem typeAt_block {lines above body below : List Text} {opening tail : Text} {kind : BodyKind} {n : Nat}
    (hlines : lines = above ++ (opening ++ kind.word ++ (' ' :: '\x7b' :: tail)) :: (body ++ below))
    (hopening : '\x7b' ∉ opening) (htail : Progress.line? ⟨1, .code⟩ false tail = some ⟨1, .code⟩)
    (hclosing : Progress.linesToClosing? ⟨1, .code⟩ (body ++ below) = some n) (hlength : body.length = n + 1)
    (total : Nat) (name : Text) :
    typeAt lines total above.length name kind = .ok (typeWith name kind (membersBehind above.length tail body)
      (above.length + 1) (above.length + n + 2) (leadingComments lines above.length)) := by
  have hget : (lines[above.length]?).getD [] = opening ++ kind.word ++ (' ' :: '\x7b' :: tail) := by
    rw [hlines, List.getElem?_append_right (Nat.le_refl _), Nat.sub_self]
    rfl
  have hcolumn : opening.length + kind.word.length + 1 = (opening ++ kind.word ++ [' ']).length := by
    rw [List.length_append, List.length_append]
    rfl
  have hbrace : lines = above ++ ((opening ++ kind.word ++ [' ']) ++ '\x7b' :: tail) :: (body ++ below) := by
    rw [hlines]
    simp
  have hstop := closingLine_of_closing hbrace htail hclosing total
  have hbehind : lines = above ++ ((opening ++ kind.word ++ [' ', '\x7b']) ++ tail) :: (body ++ below) := by
    rw [hlines]
    simp
  have hmembers : bodyOf lines above.length (opening.length + kind.word.length + 1) (above.length + n + 2) =
      membersBehind above.length tail body := bodyOf_eq hbehind (by simp; omega) (by omega)
  unfold typeAt typeWith
  rw [hget, braceColumn_header hopening]
  simp only [Except.map, hcolumn, hstop]
  rw [← hcolumn, hmembers]
  rfl

/-! ## Line by line -/

/-- The name and the kind of the type that the line starts. -/
def startOn? (inGroup : Bool) (line : Text) : Option (Text × BodyKind) :=
  (if startsWith line "type".toList then declaredStart? (strip line) else none).or
    (if inGroup && isIndented line then typeStart? (strip line) else none)

/-- A group is open after the line. -/
def groupAfter (inGroup : Bool) (line : Text) : Bool :=
  if startsWith line "type".toList && opensGroup "type".toList (strip line) then true
  else if inGroup && strip line = [')'] && !isIndented line then false
  else inGroup

/-- What a line starts, with the number of the line. -/
def startsAt (i : Nat) (start : Option (Text × BodyKind)) : List (Nat × Text × BodyKind) :=
  start.toList.map fun (name, kind) => (i, name, kind)

theorem declaredStart_of_opensGroup {t : Text} (h : opensGroup "type".toList t = true) : declaredStart? t = none := by
  unfold opensGroup at h
  unfold declaredStart? afterWord?
  cases hrest : after? "type".toList t with
  | none => rfl
  | some rest =>
    rw [hrest] at h
    simp only [decide_eq_true_eq] at h
    rw [Option.bind_some]
    cases hblanks : afterBlanks? rest with
    | none => rfl
    | some u =>
      rw [eq_stripLeft_of_afterBlanks hblanks, h]
      rfl

/-- A line that starts with the word for types is not indented. -/
theorem not_isIndented_of_type {line : Text} (h : startsWith line "type".toList = true) : isIndented line = false := by
  obtain ⟨rest, rfl⟩ := List.isPrefixOf_iff_prefix.mp h
  rfl

theorem typeStartsFrom_cons (inGroup : Bool) (i : Nat) (line : Text) (rest : List Text) :
    typeStartsFrom inGroup i (line :: rest) =
      startsAt i (startOn? inGroup line) ++ typeStartsFrom (groupAfter inGroup line) (i + 1) rest := by
  rw [typeStartsFrom]
  simp only
  unfold groupAfter startOn?
  split
  · rename_i hopen
    obtain ⟨hmark, hgroup⟩ := Bool.and_eq_true_iff.mp hopen
    rw [if_pos hmark, declaredStart_of_opensGroup hgroup, not_isIndented_of_type hmark, Bool.and_false]
    rfl
  · split
    · rename_i hclose
      simp only [Bool.and_eq_true, decide_eq_true_eq, Bool.not_eq_true'] at hclose
      obtain ⟨⟨-, hclose⟩, hmargin⟩ := hclose
      have hnone : declaredStart? [')'] = none := rfl
      rw [hclose, hmargin, hnone, Bool.and_false, ite_self]
      rfl
    · rfl

/-- **The starts in some lines are those in the first of them and those in the others.** -/
theorem typeStartsFrom_append (inGroup : Bool) (i : Nat) (above below : List Text) :
    typeStartsFrom inGroup i (above ++ below) =
      typeStartsFrom inGroup i above ++ typeStartsFrom (above.foldl groupAfter inGroup) (i + above.length) below := by
  induction above generalizing inGroup i with
  | nil => rfl
  | cons line above ih =>
    rw [List.cons_append, typeStartsFrom_cons, typeStartsFrom_cons, ih, List.append_assoc, List.length_cons,
      Nat.add_assoc, Nat.add_comm 1]
    rfl

section

variable {lines above below : List Text} {line name : Text} {kind : BodyKind} {total : Nat}

/-- The header behind the word for types, and what else stands on its line. -/
theorem startOn_declared (h : isIdentifier name = true) (inGroup : Bool) (rest : Text) :
    startOn? inGroup ("type".toList ++ ' ' :: (headerText name kind ++ rest)) = some (name, kind) := by
  have hmark : startsWith ("type".toList ++ ' ' :: (headerText name kind ++ rest)) "type".toList = true := rfl
  have hword : strip "type".toList = "type".toList ∧ strip ['\x7b'] = ['\x7b'] := by decide
  have hheader : strip ("type".toList ++ ' ' :: headerText name kind) = "type".toList ++ ' ' :: headerText name kind := by
    have htext : "type".toList ++ ' ' :: headerText name kind =
        "type".toList ++ (' ' :: (name ++ ' ' :: (kind.word ++ [' ']))) ++ ['\x7b'] := by simp [headerText]
    rw [htext]
    exact strip_append_self hword.1 (by decide) hword.2 (by decide) _
  have hline : "type".toList ++ ' ' :: (headerText name kind ++ rest) =
      "type".toList ++ ' ' :: headerText name kind ++ rest := by simp
  have hstrip := strip_append_right hheader (by simp) rest
  unfold startOn?
  rw [if_pos hmark, hline, hstrip, declaredStart?, List.append_assoc, List.cons_append, afterWord_space, Option.bind_some,
    headerText, List.append_assoc, stripLeft_identifier h, ← List.append_assoc, ← headerText, typeStart_header h]
  rfl

/-- **The start on a line is what the line starts.** -/
theorem mem_typeStartsFrom_iff (hlines : lines = above ++ line :: below) :
    (above.length, name, kind) ∈ typeStartsFrom false 0 lines ↔
      startOn? (above.foldl groupAfter false) line = some (name, kind) := by
  have habove : ∀ start ∈ typeStartsFrom false 0 above, start.1 < above.length := by
    intro start hstart
    obtain ⟨n, line', hn, hline, -⟩ := (typeStartsFrom_cases false 0 above).1 start hstart
    have := (List.getElem?_eq_some_iff.mp hline).1
    omega
  have hbelow : ∀ inGroup, ∀ start ∈ typeStartsFrom inGroup (above.length + 1) below, above.length < start.1 := by
    intro inGroup start hstart
    obtain ⟨n, line', hn, -, -⟩ := (typeStartsFrom_cases inGroup _ below).1 start hstart
    omega
  rw [hlines, typeStartsFrom_append, typeStartsFrom_cons, Nat.zero_add, List.mem_append, List.mem_append]
  constructor
  · rintro (hmem | hmem | hmem)
    · exact absurd (habove _ hmem) (Nat.lt_irrefl _)
    · obtain ⟨start, hstart, heq⟩ := List.mem_map.mp hmem
      cases heq
      exact Option.mem_toList.mp hstart
    · exact absurd (hbelow _ _ hmem) (Nat.lt_irrefl _)
  · intro hstart
    exact .inr (.inl (List.mem_map.mpr ⟨(name, kind), Option.mem_toList.mpr hstart, rfl⟩))

/-- A type has the name that its line gives it, and starts there. -/
theorem typeAt_cases {i : Nat} {t : SourceDoc.TypeDecl} (h : typeAt lines total i name kind = .ok t) :
    t.name = name ∧ t.kind = kind.word ∧ t.startLine = i + 1 := by
  obtain ⟨column, -, rfl⟩ := exists_of_map_ok h
  exact ⟨rfl, rfl, rfl⟩

/-- **The types that start on a line are those that it starts.** -/
theorem Holds.mem_types_iff {source : Text} {types : List SourceDoc.TypeDecl} {o : Outline} (h : Holds source types o)
    (hlines : Text.lines source = above ++ line :: below) (t : SourceDoc.TypeDecl) :
    t ∈ types ∧ t.startLine = above.length + 1 ↔
      ∃ name kind, startOn? (above.foldl groupAfter false) line = some (name, kind) ∧
        typeAt (Text.lines source) (boundaryLines source).length above.length name kind = .ok t := by
  have hfound := h.found
  unfold typesOf at hfound
  constructor
  · rintro ⟨hmem, hstart⟩
    obtain ⟨⟨i, name, kind⟩, hstarts, hat⟩ := exists_of_mem_mapM hfound hmem
    have hi := (typeAt_cases hat).2.2
    obtain rfl : i = above.length := by omega
    exact ⟨name, kind, (mem_typeStartsFrom_iff hlines).mp hstarts, hat⟩
  · rintro ⟨name, kind, hstart, hat⟩
    obtain ⟨t', hmem, hat'⟩ := exists_of_mapM_ok hfound ((mem_typeStartsFrom_iff hlines).mpr hstart)
    cases hat.symm.trans hat'
    exact ⟨hmem, (typeAt_cases hat).2.2⟩

/-- The types that start on a line. -/
def typesOn (o : Outline) (line : Int) : List SourceDoc.TypeDecl := o.types.filter fun t => t.startLine = line

/-- **A line that starts a type starts one,** which is read from there. -/
theorem Holds.typesOn_eq {source : Text} {types : List SourceDoc.TypeDecl} {o : Outline} (h : Holds source types o)
    (hlines : Text.lines source = above ++ line :: below)
    (hstart : startOn? (above.foldl groupAfter false) line = some (name, kind)) :
    ∃ t, typeAt (Text.lines source) (boundaryLines source).length above.length name kind = .ok t ∧
      typesOn o (above.length + 1) = [attach o.functions t] := by
  obtain ⟨t, hmem, hat⟩ := exists_of_mapM_ok h.found ((mem_typeStartsFrom_iff hlines).mpr hstart)
  have hfirst := (typeAt_cases hat).2.2
  refine ⟨t, hat, ?_⟩
  have hone : types.filter (fun t => t.startLine = (above.length : Int) + 1) = [t] :=
    filter_eq_singleton _ h.types_increasing hmem (decide_eq_true hfirst) fun t' _ ht' => by
      rw [of_decide_eq_true ht', hfirst]
  unfold typesOn
  rw [h.attached, List.filter_map]
  exact congrArg (List.map (attach o.functions)) hone

end

end SourceDoc.Braced
