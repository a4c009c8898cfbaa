import SourceDoc.Proofs.Braced.Parameter

/-!
# Headings of functions

A heading stands on one line: a receiver, a name, parameters of types, parameters and a result, up to the brace of the
body.  The reader finds that brace unless the result ends like the word for a structure or an interface
(`Heading.readSignature_line`), the parts in front of the parameters unless a bracket is closed in the parameters of
types (`Heading.functionStart_signature`), and the type of the receiver unless its argument has blanks
(`WrittenReceiver.receiverType_text`).
-/

namespace SourceDoc.Braced

open Text

/-! ## Headings -/

/-- A receiver as it is written: its name, the mark of a pointer, its type and the argument of that. -/
structure WrittenReceiver where
  name : Option Text
  isPointer : Bool
  type : Text
  argument : Option Text

/-- The text between the brackets. -/
def WrittenReceiver.text (r : WrittenReceiver) : Text :=
  (r.name.map (· ++ [' '])).getD [] ++ (if r.isPointer then ['*'] else []) ++ r.type ++
    (r.argument.map fun a => '[' :: a ++ [']']).getD []

/-- The heading of a function as it is written; the result is all between the parameters and the brace. -/
structure Heading where
  receiver : Option WrittenReceiver
  name : Text
  typeParameters : Option Text
  parameters : Text
  result : Text

namespace Heading

/-- The heading up to its parameters. -/
def front (h : Heading) : Text :=
  "func ".toList ++ (h.receiver.map fun r => '(' :: r.text ++ [')', ' ']).getD [] ++ h.name ++
    (h.typeParameters.map fun t => '[' :: t ++ [']']).getD []

/-- The heading without its brace. -/
def signature (h : Heading) : Text := h.front ++ ('(' :: h.parameters ++ [')']) ++ h.result

/-- The line with the heading. -/
def line (h : Heading) : Text := h.signature ++ ['\x7b']

end Heading

/-- The brackets of a text are balanced. -/
def IsBalanced (t : Text) : Prop := openAfter [] 0 t = some 0

/-- The receiver has identifiers for names, and its argument is balanced. -/
structure WrittenReceiver.IsWritten (r : WrittenReceiver) : Prop where
  name : ∀ name ∈ r.name, isIdentifier name = true
  type : isIdentifier r.type = true
  argument : ∀ a ∈ r.argument, IsBalanced a

/-- The names are identifiers, the brackets of each part are balanced, no quotes stand in parameters and result, no
braces in the result, and no comment begins on the line. -/
structure Heading.IsWritten (h : Heading) : Prop where
  receiver : ∀ r ∈ h.receiver, r.IsWritten
  name : isIdentifier h.name = true
  typeParameters : ∀ t ∈ h.typeParameters, IsBalanced t
  parameters : IsBalanced h.parameters ∧ ∀ c ∈ h.parameters, isQuote c = false
  result : IsBalanced h.result ∧ (∀ c ∈ h.result, isQuote c = false) ∧ '\x7b' ∉ h.result
  bare : Text.contains h.line ['/', '/'] = false

/-- The reader sees through the receiver and the result. -/
structure Heading.IsPlain (h : Heading) : Prop where
  receiver : ∀ r ∈ h.receiver, ∀ a ∈ r.argument, ')' ∉ a
  /-- The brace after such a word would be taken for one of a type. -/
  words : endsWith (strip h.result) "interface".toList = false ∧ endsWith (strip h.result) "struct".toList = false
  result : IsPlainResult (strip h.result)

/-! ## The line -/

/-- Without slashes side by side no comment is taken off. -/
theorem uncommented_eq {line : Text} (h : ¬ ['/', '/'] <:+: line) : uncommented line = line := by
  unfold uncommented
  generalize (none : Option Char) = quote
  induction line generalizing quote with
  | nil => rfl
  | cons c line ih =>
    have hrest : ¬ ['/', '/'] <:+: line := fun hin => h (hin.trans (List.suffix_cons c line).isInfix)
    cases quote with
    | some q => exact congrArg (c :: ·) (ih hrest _)
    | none =>
      rw [uncommentedFrom]
      split
      · exact congrArg (c :: ·) (ih hrest _)
      · split
        · rename_i hslash
          obtain ⟨rfl, hnext⟩ := hslash
          obtain ⟨rest, rfl⟩ := List.head?_eq_some_iff.mp hnext
          exact absurd ⟨[], rest, rfl⟩ h
        · exact congrArg (c :: ·) (ih hrest _)

/-- The reader of a signature goes over the text, from one number of open brackets to another. -/
def Runs (depth : Int) (t : Text) (depth' : Int) : Prop :=
  ∀ before rest, signatureLine depth before (t ++ rest) = signatureLine depth' (t.reverse ++ before) rest

theorem Runs.nil (depth : Int) : Runs depth [] depth := fun _ _ => rfl

theorem Runs.append {depth depth' depth'' : Int} {a b : Text} (ha : Runs depth a depth') (hb : Runs depth' b depth'') :
    Runs depth (a ++ b) depth'' := by
  intro before rest
  rw [List.append_assoc, ha, hb, List.reverse_append, List.append_assoc]

theorem runs_opening {c : Char} (hc : isOpening c = true) (depth : Int) (h : depth ≠ 0 ∨ c ≠ '\x7b') :
    Runs depth [c] (depth + 1) := by
  intro before rest
  simp only [isOpening, Bool.or_eq_true, decide_eq_true_eq] at hc
  show signatureLine depth before (c :: rest) = signatureLine (depth + 1) (c :: before) rest
  rcases hc with (rfl | rfl) | rfl
  · simp [signatureLine]
  · simp [signatureLine]
  · have hdepth : depth ≠ 0 := h.resolve_right fun hne => hne rfl
    simp [signatureLine, hdepth]

theorem runs_closing {c : Char} (hc : isClosing c = true) (depth : Int) : Runs depth [c] (depth - 1) := by
  intro before rest
  simp only [isClosing, Bool.or_eq_true, decide_eq_true_eq] at hc
  show signatureLine depth before (c :: rest) = signatureLine (depth - 1) (c :: before) rest
  rcases hc with (rfl | rfl) | rfl
  · simp [signatureLine]
  · simp [signatureLine]
  · simp [signatureLine]

theorem runs_other {c : Char} (hopen : isOpening c = false) (hclose : isClosing c = false) (depth : Int) :
    Runs depth [c] depth := by
  intro before rest
  simp only [isOpening, isClosing, Bool.or_eq_false_iff, decide_eq_false_iff_not] at hopen hclose
  show signatureLine depth before (c :: rest) = signatureLine depth (c :: before) rest
  simp [signatureLine, hopen, hclose]

/-- Inside brackets, or without braces, a text changes no more than how many brackets are open. -/
theorem runs_of_openAfter (outer : Nat) {depth depth' : Nat} {t : Text} (h : openAfter [] depth t = some depth')
    (hbrace : 1 ≤ outer ∨ '\x7b' ∉ t) : Runs (outer + depth : Nat) t (outer + depth' : Nat) := by
  induction t generalizing depth with
  | nil =>
    cases h
    exact .nil _
  | cons c t ih =>
    have hrest : 1 ≤ outer ∨ '\x7b' ∉ t := hbrace.imp id fun hno hmem => hno (List.mem_cons_of_mem _ hmem)
    have hc : 1 ≤ outer ∨ c ≠ '\x7b' := hbrace.imp id fun hno he => hno (he ▸ List.mem_cons_self)
    rw [openAfter] at h
    by_cases hopen : isOpening c = true
    · rw [if_pos hopen] at h
      have hstep := runs_opening hopen ((outer + depth : Nat) : Int) (hc.imp (fun _ => by omega) id)
      exact hstep.append (ih h hrest)
    · rw [if_neg hopen] at h
      rw [Bool.not_eq_true] at hopen
      by_cases hclose : isClosing c = true
      · rw [if_pos hclose] at h
        split at h
        · cases h
        · have hstep := runs_closing hclose ((outer + depth : Nat) : Int)
          rw [show ((outer + depth : Nat) : Int) - 1 = (outer + (depth - 1) : Nat) by omega] at hstep
          exact hstep.append (ih h hrest)
      · rw [if_neg hclose, if_neg (by simp)] at h
        rw [Bool.not_eq_true] at hclose
        exact (runs_other hopen hclose _).append (ih h hrest)

/-- A text without brackets. -/
def IsFlat (t : Text) : Prop := ∀ c ∈ t, isOpening c = false ∧ isClosing c = false

theorem IsFlat.isBalanced {t : Text} (h : IsFlat t) : IsBalanced t :=
  openAfter_of_flat fun c hc => ⟨(h c hc).1, (h c hc).2, List.not_mem_nil⟩

theorem IsFlat.runs {t : Text} (h : IsFlat t) : Runs 0 t 0 :=
  runs_of_openAfter 0 h.isBalanced (.inr fun hmem => absurd (h _ hmem).1 (by decide))

/-- No word character is a bracket. -/
theorem isFlat_of_isIdentifier {name : Text} (h : isIdentifier name = true) : IsFlat name :=
  fun c hc => (isInert_of_isIdentifier h c hc).2

/-- A balanced text between brackets. -/
theorem runs_between {inner : Text} (h : IsBalanced inner) {opening closing : Char}
    (hopen : opening = '(' ∨ opening = '[') (hclose : isClosing closing = true) :
    Runs 0 (opening :: inner ++ [closing]) 0 := by
  have hfirst : Runs 0 [opening] 1 := by
    refine runs_opening ?_ 0 (.inr ?_)
    · rcases hopen with rfl | rfl <;> rfl
    · rcases hopen with rfl | rfl <;> decide
  have hinner : Runs 1 inner 1 := runs_of_openAfter 1 h (.inl (Nat.le_refl 1))
  exact (hfirst.append hinner).append (runs_closing hclose 1)

theorem IsBalanced.append {a b : Text} (ha : IsBalanced a) (hb : IsBalanced b) : IsBalanced (a ++ b) := by
  unfold IsBalanced
  rw [openAfter_append, ha]
  exact hb

theorem IsBalanced.between {inner : Text} (h : IsBalanced inner) : IsBalanced ('[' :: inner ++ [']']) := by
  have hinside : openAfter [] 1 inner = some 1 := openAfter_inside [] h
  show openAfter [] 1 (inner ++ [']']) = some 0
  rw [openAfter_append, hinside]
  rfl

theorem WrittenReceiver.IsWritten.isBalanced {r : WrittenReceiver} (h : r.IsWritten) : IsBalanced r.text := by
  unfold WrittenReceiver.text
  refine IsBalanced.append (IsBalanced.append (IsBalanced.append ?_ ?_) ?_) ?_
  · cases hname : r.name with
    | none => rfl
    | some name => exact (isFlat_of_isIdentifier (h.name name hname)).isBalanced.append rfl
  · cases r.isPointer <;> rfl
  · exact (isFlat_of_isIdentifier h.type).isBalanced
  · cases hargument : r.argument with
    | none => rfl
    | some a => exact (h.argument a hargument).between

namespace Heading

variable {h : Heading}

theorem runs_signature (hw : h.IsWritten) : Runs 0 h.signature 0 := by
  have hword : Runs 0 "func ".toList 0 := IsFlat.runs (by unfold IsFlat; decide)
  have hreceiver : Runs 0 ((h.receiver.map fun r => '(' :: r.text ++ [')', ' ']).getD []) 0 := by
    cases hr : h.receiver with
    | none => exact .nil 0
    | some r =>
      have hrun := runs_between (hw.receiver r hr).isBalanced (.inl rfl) (rfl : isClosing ')' = true)
      have hblank : Runs 0 [' '] 0 := IsFlat.runs (by unfold IsFlat; decide)
      have := hrun.append hblank
      rwa [List.append_assoc] at this
  have htypes : Runs 0 ((h.typeParameters.map fun t => '[' :: t ++ [']']).getD []) 0 := by
    cases ht : h.typeParameters with
    | none => exact .nil 0
    | some t => exact runs_between (hw.typeParameters t ht) (.inr rfl) rfl
  have hparameters := runs_between hw.parameters.1 (.inl rfl) (rfl : isClosing ')' = true)
  have hresult : Runs 0 h.result 0 := runs_of_openAfter 0 hw.result.1 (.inr hw.result.2.2)
  exact ((((hword.append hreceiver).append (isFlat_of_isIdentifier hw.name).runs).append htypes).append
    hparameters).append hresult

/-- What is left of the signature without blanks at its end. -/
theorem strip_signature (h : Heading) :
    strip h.signature = h.front ++ ('(' :: h.parameters ++ [')']) ++ stripRight h.result := by
  unfold signature
  refine strip_append_right ?_ ?_ _
  · rw [strip_eq_self_iff]
    refine ⟨fun c hc => ?_, fun c hc => ?_⟩
    · cases hc
      rfl
    · rw [List.getLast?_append, List.getLast?_append] at hc
      cases hc
      rfl
  · exact List.append_ne_nil_of_right_ne_nil _ (List.append_ne_nil_of_right_ne_nil _ (List.cons_ne_nil _ _))

/-- A suffix of a text without the last character of its front is one of the rest. -/
theorem suffix_of_append {word front rest : Text} (h : word <:+ front ++ rest) (hlast : ∀ c ∈ front.getLast?, c ∉ word) :
    word <:+ rest := by
  obtain ⟨before, hbefore⟩ := h
  rcases List.append_eq_append_iff.mp hbefore with ⟨between, hfront, hword⟩ | ⟨between, -, hrest⟩
  · by_cases hnil : between = []
    · rw [hword, hnil]
      exact List.suffix_refl _
    · have hmem : between.getLast hnil ∈ word := hword ▸ List.mem_append_left _ (List.getLast_mem hnil)
      refine absurd hmem (hlast _ ?_)
      rw [hfront, List.getLast?_append, List.getLast?_eq_some_getLast hnil]
      rfl
  · exact ⟨between, hrest.symm⟩

/-- The signature ends with a word only if the result does. -/
theorem endsWith_signature {heading : Heading} {word : Text} (hword : ∀ c ∈ word, isBlank c = false ∧ c ≠ ')')
    (h : endsWith (strip (signature heading)) word = true) : endsWith (strip heading.result) word = true := by
  unfold endsWith at h ⊢
  rw [List.isSuffixOf_iff_suffix, strip_signature] at h
  rw [List.isSuffixOf_iff_suffix]
  obtain ⟨gap, hgap, hresult⟩ := stripRight_split heading.result
  have hafter : word <:+ stripRight heading.result := by
    refine suffix_of_append h fun c hc => ?_
    rw [List.getLast?_append, List.getLast?_append] at hc
    cases hc
    exact fun hmem => (hword _ hmem).2 rfl
  rw [hresult] at hafter
  refine suffix_of_append hafter fun c hc hmem => ?_
  have hblank := List.all_eq_true.mp hgap c (List.mem_of_getLast? hc)
  rw [(hword c hmem).1] at hblank
  cases hblank

/-- **The brace of the body is found at the end of the line.** -/
theorem signatureLine_line (hw : h.IsWritten)
    (hwords : endsWith (strip h.result) "interface".toList = false ∧ endsWith (strip h.result) "struct".toList = false) :
    signatureLine 0 [] h.line = .closed h.signature.length := by
  have hrun := runs_signature hw [] ['\x7b']
  rw [List.append_nil] at hrun
  have hleft : (stripLeft h.signature.reverse).reverse = strip h.signature := by
    have hhead : stripLeft h.signature = h.signature := (dropLeft_eq_self_iff isBlank _).mpr fun c hc => by
      cases hc
      rfl
    show stripRight h.signature = stripRight (stripLeft h.signature)
    rw [hhead]
  have hinterface : endsWith (strip h.signature) "interface".toList = false := by
    rw [← Bool.not_eq_true]
    intro hends
    have := endsWith_signature (by decide) hends
    rw [hwords.1] at this
    cases this
  have hstruct : endsWith (strip h.signature) "struct".toList = false := by
    rw [← Bool.not_eq_true]
    intro hends
    have := endsWith_signature (by decide) hends
    rw [hwords.2] at this
    cases this
  unfold line
  rw [hrun, signatureLine, if_neg (by decide), if_neg (by decide), if_pos rfl]
  simp only [hleft, hinterface, hstruct, Bool.not_false, and_self, if_true, List.length_reverse]

/-- The signature is read off the line alone. -/
theorem readSignature_line (hw : h.IsWritten)
    (hwords : endsWith (strip h.result) "interface".toList = false ∧ endsWith (strip h.result) "struct".toList = false)
    (below : List Text) :
    readSignature (h.line :: below) = (strip h.signature, some (0, h.signature.length)) := by
  unfold readSignature maxSignatureLines
  rw [signatureFrom, uncommented_eq (not_infix_of_contains hw.bare)]
  simp only [signatureLine_line hw hwords]
  have htake : h.line.take h.signature.length = h.signature := List.take_left
  rw [htake]
  simp only [List.map_cons, List.map_nil, joinWith, strip_strip]

end Heading

/-! ## The parts -/

theorem skipSquare_typeParameters {types? : Option Text} (htypes : ∀ t ∈ types?, ']' ∉ t) (rest : Text) :
    skipSquare ((types?.map fun t => '[' :: t ++ [']']).getD [] ++ '(' :: rest) = '(' :: rest := by
  cases types? with
  | none => rfl
  | some t =>
    have htext : '[' :: t ++ [']'] ++ '(' :: rest = '[' :: (t ++ ']' :: '(' :: rest) := by simp
    show skipSquare ('[' :: t ++ [']'] ++ '(' :: rest) = _
    rw [htext]
    exact skipSquare_read rfl (htypes t rfl)

/-- A name is read after a blank. -/
theorem readName {name tail : Text} (hname : isIdentifier name = true) (htail : ∀ c ∈ tail.head?, isWord c = false) :
    (afterBlanks? (' ' :: name ++ tail)).bind identifier? = some (name, tail) := by
  obtain ⟨c, word, rfl, hc, -⟩ := identifier_cases hname
  have hleft : stripLeft (c :: word ++ tail) = c :: word ++ tail :=
    (dropLeft_eq_self_iff isBlank _).mpr fun d hd => by
      cases hd
      exact not_isBlank_of_isWord (isWord_of_isIdentStart hc)
  have hafter : afterBlanks? (' ' :: (c :: word) ++ tail) = some (c :: word ++ tail) := congrArg some hleft
  rw [hafter, Option.bind_some]
  exact identifier_read hname htail

/-- Names have no bracket that closes a receiver. -/
theorem not_mem_identifier {name : Text} (h : isIdentifier name = true) : ')' ∉ name := by
  intro hmem
  have hclose := (isFlat_of_isIdentifier h _ hmem).2
  cases hclose

/-- A receiver whose argument has no bracket that closes it has none. -/
theorem WrittenReceiver.not_mem_text {r : WrittenReceiver} (hw : r.IsWritten) (hplain : ∀ a ∈ r.argument, ')' ∉ a) :
    ')' ∉ r.text := by
  unfold WrittenReceiver.text
  simp only [List.mem_append, not_or]
  refine ⟨⟨⟨?_, ?_⟩, not_mem_identifier hw.type⟩, ?_⟩
  · cases hname : r.name with
    | none => exact List.not_mem_nil
    | some name =>
      have := not_mem_identifier (hw.name name hname)
      simpa using this
  · cases r.isPointer <;> decide
  · cases hargument : r.argument with
    | none => exact List.not_mem_nil
    | some a =>
      have := hplain a hargument
      simpa using this

/-- The receiver is the text in front of the first closing bracket. -/
theorem receiverOf_text {text : Text} (h : ')' ∉ text) (rest : Text) :
    receiverOf? (' ' :: '(' :: text ++ ')' :: rest) = some (text, rest) := by
  have hleft : stripLeft (' ' :: '(' :: text ++ ')' :: rest) = '(' :: (text ++ ')' :: rest) := rfl
  obtain ⟨htake, hdrop⟩ := cut_first h rest
  unfold receiverOf?
  rw [hleft]
  simp only [htake, hdrop]

/-- No receiver stands in front of a name. -/
theorem receiverOf_name {name : Text} (h : isIdentifier name = true) (rest : Text) :
    receiverOf? (' ' :: name ++ rest) = some ([], ' ' :: name ++ rest) := by
  obtain ⟨c, word, rfl, hc, -⟩ := identifier_cases h
  have hleft : stripLeft (' ' :: (c :: word) ++ rest) = c :: word ++ rest :=
    (dropLeft_eq_self_iff isBlank (c :: word ++ rest)).mpr fun d hd => by
      cases hd
      exact not_isBlank_of_isWord (isWord_of_isIdentStart hc)
  unfold receiverOf?
  rw [hleft]
  split
  · rename_i heq
    obtain ⟨rfl, -⟩ := List.cons.inj heq
    cases hc
  · rfl

namespace Heading

variable {h : Heading}

/-- The heading after its name. -/
def tail (h : Heading) : Text :=
  (h.typeParameters.map fun t => '[' :: t ++ [']']).getD [] ++ '(' :: (h.parameters ++ ')' :: stripRight h.result)

/-- The receiver and the name are read, and what follows them is left. -/
theorem functionStart_tail (hw : h.IsWritten) (hreceiver : ∀ r ∈ h.receiver, ')' ∉ r.text) :
    functionStart? (strip h.signature) =
      match stripLeft (skipSquare h.tail) with
      | '(' :: inner => some ⟨strip ((h.receiver.map WrittenReceiver.text).getD []), h.name, inner⟩
      | _ => none := by
  have htext : strip h.signature = "func".toList ++
      (' ' :: (h.receiver.map fun r => '(' :: r.text ++ [')', ' ']).getD [] ++ h.name ++ h.tail) := by
    rw [h.strip_signature]
    simp [front, tail]
  have hafter : ∀ t, after? "func".toList ("func".toList ++ t) = some t := fun t => rfl
  have hreceiverOf : receiverOf?
      (' ' :: (h.receiver.map fun r => '(' :: r.text ++ [')', ' ']).getD [] ++ h.name ++ h.tail) =
        some ((h.receiver.map WrittenReceiver.text).getD [], ' ' :: h.name ++ h.tail) := by
    cases hr : h.receiver with
    | none => exact receiverOf_name hw.name h.tail
    | some r =>
      have := receiverOf_text (hreceiver r hr) (' ' :: h.name ++ h.tail)
      simpa using this
  have hhead : ∀ c ∈ h.tail.head?, isWord c = false := by
    intro c hc
    unfold tail at hc
    cases ht : h.typeParameters with
    | none =>
      rw [ht] at hc
      cases hc
      decide
    | some t =>
      rw [ht] at hc
      cases hc
      decide
  rw [htext, functionStart?, hafter, Option.bind_some, hreceiverOf]
  simp only [Option.bind_some, readName hw.name hhead] <;> rfl

/-- **The beginning of a function is read as it is written,** if no bracket is closed in the parameters of types. -/
theorem functionStart_signature (hw : h.IsWritten) (hreceiver : ∀ r ∈ h.receiver, ')' ∉ r.text)
    (htypes : ∀ t ∈ h.typeParameters, ']' ∉ t) :
    functionStart? (strip h.signature) =
      some ⟨strip ((h.receiver.map WrittenReceiver.text).getD []), h.name, h.parameters ++ ')' :: stripRight h.result⟩ := by
  rw [functionStart_tail hw hreceiver, tail, skipSquare_typeParameters htypes]
  rfl

/-- With a closing bracket in the parameters of types no function begins, unless another bracket opens after it. -/
theorem functionStart_nested (hw : h.IsWritten) (hreceiver : ∀ r ∈ h.receiver, ')' ∉ r.text) {front back : Text}
    (htypes : h.typeParameters = some (front ++ ']' :: back)) (hfront : ']' ∉ front)
    (hback : ∀ c ∈ (stripLeft back).head?, c ≠ '(') : functionStart? (strip h.signature) = none := by
  generalize hrest : ']' :: '(' :: (h.parameters ++ ')' :: stripRight h.result) = rest
  have htail : h.tail = '[' :: (front ++ ']' :: (back ++ rest)) := by
    rw [← hrest, tail, htypes]
    simp
  have hskip : skipSquare h.tail = back ++ rest := by
    rw [htail]
    exact skipSquare_read rfl hfront
  rw [functionStart_tail hw hreceiver, hskip]
  rcases stripLeft_append_cases back rest with ⟨-, hleft⟩ | ⟨c, more, hbackLeft, hleft⟩
  · rw [hleft, ← hrest]
    rfl
  · have hc : c ≠ '(' := hback c (by rw [hbackLeft]; rfl)
    rw [hleft]
    split
    · rename_i heq
      exact absurd (List.cons.inj heq).1 hc
    · rfl

end Heading

/-! ## The receiver -/

namespace WrittenReceiver

/-- The receiver after its name. -/
def typeText (r : WrittenReceiver) : Text :=
  (if r.isPointer then ['*'] else []) ++ (r.type ++ (r.argument.map fun a => '[' :: a ++ [']']).getD [])

variable {r : WrittenReceiver} (hw : r.IsWritten)

include hw

theorem not_isBlank_typeText (hplain : ∀ a ∈ r.argument, ∀ c ∈ a, isBlank c = false) :
    ∀ c ∈ r.typeText, isBlank c = false := by
  unfold typeText
  refine List.forall_mem_append.mpr ⟨?_, List.forall_mem_append.mpr ⟨fun c hc => ?_, ?_⟩⟩
  · cases r.isPointer <;> decide
  · exact not_isBlank_of_isWord (isWord_of_isIdentifier hw.type c hc)
  · cases hargument : r.argument with
    | none => exact List.forall_mem_nil _
    | some a =>
      refine List.forall_mem_append.mpr ⟨List.forall_mem_cons.mpr ⟨rfl, hplain a hargument⟩, ?_⟩
      decide

theorem typeText_ne_nil : r.typeText ≠ [] := by
  obtain ⟨c, word, htype, -, -⟩ := identifier_cases hw.type
  unfold typeText
  rw [htype]
  simp

/-- The type is what stands between the mark of a pointer and the argument. -/
theorem before_typeText : before '[' (dropLeft (· = '*') r.typeText) = r.type := by
  have hword := isWord_of_isIdentifier hw.type
  have hstar : dropLeft (· = '*') r.typeText = r.type ++ (r.argument.map fun a => '[' :: a ++ [']']).getD [] := by
    have hself : ∀ rest, dropLeft (· = '*') (r.type ++ rest) = r.type ++ rest := by
      intro rest
      obtain ⟨c, word, htype, hc, -⟩ := identifier_cases hw.type
      refine (dropLeft_eq_self_iff _ _).mpr fun d hd => ?_
      rw [htype] at hd
      cases hd
      rw [decide_eq_false_iff_not]
      rintro rfl
      cases hc
    unfold typeText
    cases r.isPointer
    · exact hself _
    · exact hself _
  have hpos : ∀ c ∈ r.type, decide (c ≠ '[') = true := by
    intro c hc
    refine decide_eq_true ?_
    rintro rfl
    exact absurd (hword _ hc) (by decide)
  rw [hstar]
  unfold before
  rw [List.takeWhile_append_of_pos hpos]
  cases r.argument with
  | none => exact List.append_nil _
  | some a => exact List.append_nil _

theorem strip_typeText : strip r.typeText = r.typeText := by
  have hrest : strip (r.type ++ (r.argument.map fun a => '[' :: a ++ [']']).getD []) =
      r.type ++ (r.argument.map fun a => '[' :: a ++ [']']).getD [] := by
    obtain ⟨htype, hne⟩ := strip_identifier hw.type
    cases r.argument with
    | none => exact (congrArg strip (List.append_nil _)).trans (htype.trans (List.append_nil _).symm)
    | some a =>
      have hargument : strip ('[' :: a ++ [']']) = '[' :: a ++ [']'] := by
        refine (strip_eq_self_iff _).mpr ⟨fun c hc => ?_, fun c hc => ?_⟩
        · cases hc
          rfl
        · rw [List.getLast?_append] at hc
          cases hc
          rfl
      have hboth := strip_append_self htype hne hargument (List.cons_ne_nil _ _) []
      rwa [List.append_nil] at hboth
  unfold typeText
  cases r.isPointer with
  | false => exact hrest
  | true =>
    have hne := List.append_ne_nil_of_left_ne_nil (strip_identifier hw.type).2
      ((r.argument.map fun a => '[' :: a ++ [']']).getD [])
    have hstar : strip ['*'] = ['*'] := rfl
    exact strip_append_self hstar (List.cons_ne_nil _ _) hrest hne []

omit hw in
theorem text_eq (r : WrittenReceiver) : r.text = (r.name.map (· ++ [' '])).getD [] ++ r.typeText := by
  simp only [text, typeText, List.append_assoc]

/-- The receiver neither starts nor ends with a blank. -/
theorem strip_text : strip r.text = r.text ∧ r.text ≠ [] := by
  have htype := strip_typeText hw
  have hne := typeText_ne_nil hw
  rw [text_eq]
  cases hname : r.name with
  | none => exact ⟨htype, hne⟩
  | some name =>
    obtain ⟨hstrip, hnameNe⟩ := strip_identifier (hw.name name hname)
    exact ⟨strip_append_self hstrip hnameNe htype hne [' '], List.append_ne_nil_of_right_ne_nil _ hne⟩

/-- The type of a receiver is what its last word says. -/
theorem receiverType_of_last {word : Text} (h : (words r.text).getLast? = some word) :
    receiverType (strip r.text) = .ok (before '[' (dropLeft (· = '*') word)) := by
  obtain ⟨hstrip, hne⟩ := strip_text hw
  rw [hstrip]
  unfold receiverType
  rw [if_neg hne, h]

/-- **The type of the receiver is read** where its argument has no blanks. -/
theorem receiverType_text (hplain : ∀ a ∈ r.argument, ∀ c ∈ a, isBlank c = false) :
    receiverType (strip r.text) = .ok r.type := by
  have hbare := not_isBlank_typeText hw hplain
  have hne := typeText_ne_nil hw
  have hlast : (words r.text).getLast? = some r.typeText := by
    rw [text_eq]
    cases r.name with
    | none =>
      show (wordsFrom [] r.typeText).getLast? = _
      rw [wordsFrom_word hbare [] (.inr hne)]
      rfl
    | some name =>
      show (words (name ++ [' '] ++ r.typeText)).getLast? = _
      rw [List.append_assoc]
      exact getLast_words name rfl hbare hne
  rw [receiverType_of_last hw hlast, before_typeText hw]

/-- Where its argument has blanks, the word after the last one is taken for the type, with the bracket after it. -/
theorem receiverType_blank {front word : Text} {blank : Char} (hargument : r.argument = some (front ++ blank :: word))
    (hblank : isBlank blank = true) (hword : ∀ c ∈ word, isBlank c = false ∧ c ≠ '[' ∧ c ≠ '*') :
    receiverType (strip r.text) = .ok (word ++ [']']) := by
  have hbare : ∀ c ∈ word ++ [']'], isBlank c = false :=
    List.forall_mem_append.mpr ⟨fun c hc => (hword c hc).1, by decide⟩
  have hlast : (words r.text).getLast? = some (word ++ [']']) := by
    have htext : r.text = (r.name.map (· ++ [' '])).getD [] ++ (if r.isPointer then ['*'] else []) ++ r.type ++
        '[' :: front ++ blank :: (word ++ [']']) := by
      rw [text, hargument]
      simp
    rw [htext]
    exact getLast_words _ hblank hbare (by simp)
  have hstar : dropLeft (· = '*') (word ++ [']']) = word ++ [']'] := by
    refine (dropLeft_eq_self_iff _ _).mpr fun c hc => decide_eq_false fun he => ?_
    rcases List.mem_append.mp (List.mem_of_mem_head? hc) with hmem | hmem
    · exact (hword c hmem).2.2 he
    · rw [he] at hmem
      exact absurd hmem (by decide)
  have hbefore : before '[' (word ++ [']']) = word ++ [']'] := by
    have hpos : ∀ c ∈ word ++ [']'], decide (c ≠ '[') = true :=
      List.forall_mem_append.mpr ⟨fun c hc => decide_eq_true (hword c hc).2.1, by decide⟩
    have hself : (word ++ [']'] ++ []).takeWhile (· ≠ '[') = word ++ [']'] ++ [].takeWhile (· ≠ '[') :=
      List.takeWhile_append_of_pos hpos
    rwa [List.takeWhile_nil, List.append_nil] at hself
  rw [receiverType_of_last hw hlast, hstar, hbefore]

end WrittenReceiver

end SourceDoc.Braced
