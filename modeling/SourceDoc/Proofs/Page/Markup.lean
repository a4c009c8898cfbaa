import Mathlib.Data.List.Basic
import SourceDoc.Page.Markup

/-!
# The marks of markup

The marks of a text are its characters that could be read as markup.  An escaped text has none (`marks_escape`), so
pieces of a page have the same marks if they have the same elements and the values of their attributes have the same
marks (`SameMarks`), whatever their texts are.
-/

namespace SourceDoc.Markup

/-- A character that can be read as markup. -/
def isMark (c : Char) : Bool := c = '<' || c = '>' || c = '"' || c = '\''

/-- The characters of a text that can be read as markup. -/
def marks (t : Text) : Text := t.filter isMark

/-! ## Texts -/

@[simp] theorem marks_nil : marks [] = [] := rfl

@[simp] theorem marks_append (a b : Text) : marks (a ++ b) = marks a ++ marks b := List.filter_append a b

theorem marks_cons (c : Char) (t : Text) : marks (c :: t) = marks [c] ++ marks t := marks_append [c] t

theorem marks_eq_nil_iff {t : Text} : marks t = [] ↔ ∀ c ∈ t, isMark c = false := by
  simp [marks, List.filter_eq_nil_iff]

/-- Characters of a class without marks make a text without marks. -/
theorem marks_of_class {p : Char → Bool} (hp : p '<' = false ∧ p '>' = false ∧ p '"' = false ∧ p '\'' = false)
    {t : Text} (ht : ∀ c ∈ t, p c = true) : marks t = [] := by
  obtain ⟨hless, hgreater, hquote, hapostrophe⟩ := hp
  rw [marks_eq_nil_iff]
  refine fun c hc => Bool.eq_false_iff.mpr fun hmark => ?_
  have hclass := ht c hc
  simp only [isMark, Bool.or_eq_true, decide_eq_true_eq] at hmark
  rcases hmark with ((rfl | rfl) | rfl) | rfl <;> simp_all

theorem marks_flatMap {α : Type} (f : α → Text) (l : List α) : marks (l.flatMap f) = l.flatMap fun a => marks (f a) :=
  List.filter_flatMap

/-- The characters that are written as references. -/
def referred : List Char := ['&', '<', '>', '"', '\'']

theorem forall_referred {p : Char → Prop} (h : p '&' ∧ p '<' ∧ p '>' ∧ p '"' ∧ p '\'') : ∀ c ∈ referred, p c := by
  simpa only [referred, List.forall_mem_cons, List.not_mem_nil, IsEmpty.forall_iff, implies_true, and_true] using h

theorem escapeChar_of_not_mem {c : Char} (h : c ∉ referred) : escapeChar c = [c] := by
  simp only [referred, List.mem_cons, List.not_mem_nil, or_false, not_or] at h
  obtain ⟨hamp, hless, hgreater, hquote, hapostrophe⟩ := h
  rw [escapeChar, if_neg hamp, if_neg hless, if_neg hgreater, if_neg hquote, if_neg hapostrophe]

theorem marks_escapeChar (c : Char) : marks (escapeChar c) = [] := by
  by_cases hc : c ∈ referred
  · exact forall_referred (p := fun c => marks (escapeChar c) = []) (by decide) c hc
  · rw [escapeChar_of_not_mem hc]
    simp only [referred, List.mem_cons, List.not_mem_nil, or_false, not_or] at hc
    simp [marks, isMark, hc]

/-- What is written for a character tells where it ends. -/
theorem escapeChar_append_inj {c d : Char} {a b : Text} (h : escapeChar c ++ a = escapeChar d ++ b) :
    c = d ∧ a = b := by
  have hreference : ∀ c ∈ referred, (escapeChar c).head? = some '&' := forall_referred (by decide)
  have hother : ∀ {c d : Char} {a b : Text}, c ∈ referred → d ∉ referred →
      escapeChar c ++ a = escapeChar d ++ b → False := by
    intro c d a b hc hd h
    have hhead := congrArg List.head? h
    rw [escapeChar_of_not_mem hd, List.head?_append, hreference c hc] at hhead
    cases hhead
    exact hd (by decide)
  have hsame : c = d := by
    by_cases hc : c ∈ referred <;> by_cases hd : d ∈ referred
    · have hall : ∀ c ∈ referred, ∀ d ∈ referred, escapeChar c <+: escapeChar d → c = d := by
        refine forall_referred ⟨?_, ?_, ?_, ?_, ?_⟩ <;> refine forall_referred ?_ <;> decide
      rcases List.prefix_or_prefix_of_prefix (List.prefix_append _ a) (h ▸ List.prefix_append _ b) with hprefix | hprefix
      · exact hall c hc d hd hprefix
      · exact (hall d hd c hc hprefix).symm
    · exact (hother hc hd h).elim
    · exact (hother hd hc h.symm).elim
    · rw [escapeChar_of_not_mem hc, escapeChar_of_not_mem hd] at h
      exact (List.cons.inj h).1
  subst hsame
  exact ⟨rfl, List.append_cancel_left h⟩

/-- **Different texts are written differently.** -/
theorem escape_injective : Function.Injective escape := by
  have hne : ∀ (c : Char) (t : Text), escape (c :: t) ≠ [] := by
    intro c t
    rw [escape, List.flatMap_cons]
    refine List.append_ne_nil_of_left_ne_nil ?_ _
    unfold escapeChar
    split_ifs <;> simp
  intro a b h
  induction a generalizing b with
  | nil =>
    cases b with
    | nil => rfl
    | cons d b => exact absurd h.symm (hne d b)
  | cons c a ih =>
    cases b with
    | nil => exact absurd h (hne c a)
    | cons d b =>
      obtain ⟨rfl, hrest⟩ := escapeChar_append_inj h
      rw [ih hrest]

/-- **An escaped text has no marks.** -/
@[simp] theorem marks_escape (t : Text) : marks (escape t) = [] := by
  rw [escape, marks_flatMap, List.flatMap_eq_nil_iff]
  exact fun c _ => marks_escapeChar c

/-! ## Elements -/

theorem marks_attributeText (a : String × Text) :
    marks (attributeText a) = marks (' ' :: (a.1.toList ++ ['=', '"'])) ++ marks a.2 ++ ['"'] := by
  have htext : attributeText a = ' ' :: (a.1.toList ++ ['=', '"']) ++ a.2 ++ ['"'] := by simp [attributeText]
  rw [htext, marks_append, marks_append]
  rfl

@[simp] theorem allText_nil : allText [] = [] := rfl

theorem allText_cons (m : Markup) (ms : List Markup) : allText (m :: ms) = toText m ++ allText ms := rfl

@[simp] theorem allText_append (ms ms' : List Markup) : allText (ms ++ ms') = allText ms ++ allText ms' := by
  induction ms with
  | nil => rfl
  | cons m ms ih => rw [List.cons_append, allText_cons, allText_cons, ih, List.append_assoc]

theorem allText_singleton (m : Markup) : allText [m] = toText m := List.append_nil _

theorem toText_text (t : Text) : toText (text t) = escape t := rfl

/-- An element is written as its children between its tags. -/
theorem toText_element (name : String) (attributes : List (String × Text)) (children : List Markup) :
    toText (element name attributes children) =
      ('<' :: (name.toList ++ attributes.flatMap attributeText ++ ['>'])) ++ allText children ++
        ('<' :: '/' :: (name.toList ++ ['>'])) := by
  show '<' :: (name.toList ++ attributes.flatMap attributeText ++ '>' :: (allText children ++
    '<' :: '/' :: (name.toList ++ ['>']))) = _
  simp

/-- The marks of an element are those of its tags and, between them, those of its children. -/
theorem marks_element (name : String) (attributes : List (String × Text)) (children : List Markup) :
    marks (toText (element name attributes children)) =
      marks ('<' :: (name.toList ++ attributes.flatMap attributeText ++ ['>'])) ++ marks (allText children) ++
        marks ('<' :: '/' :: (name.toList ++ ['>'])) := by
  rw [toText_element, marks_append, marks_append]

/-- The marks of a tag are those of its name and of its attributes. -/
theorem marks_tag (name : String) (attributes : List (String × Text)) :
    marks ('<' :: (name.toList ++ attributes.flatMap attributeText ++ ['>'])) =
      marks ('<' :: name.toList) ++ (attributes.flatMap fun a => marks (attributeText a)) ++ marks ['>'] := by
  rw [← List.cons_append, ← List.cons_append, marks_append, marks_append, marks_flatMap]

/-- Some pieces have the same marks as others. -/
def SameMarks (ms ms' : List Markup) : Prop := marks (allText ms) = marks (allText ms')

namespace SameMarks

variable {ms ms' more more' : List Markup}

theorem refl (ms : List Markup) : SameMarks ms ms := rfl

theorem append (h : SameMarks ms ms') (hmore : SameMarks more more') : SameMarks (ms ++ more) (ms' ++ more') := by
  unfold SameMarks at *
  rw [allText_append, allText_append, marks_append, marks_append, h, hmore]

theorem cons {m m' : Markup} (h : SameMarks [m] [m']) (hmore : SameMarks ms ms') : SameMarks (m :: ms) (m' :: ms') :=
  append h hmore

/-- **Texts have no marks.** -/
theorem text (t t' : Text) : SameMarks [.text t] [.text t'] := by
  rw [SameMarks, allText_singleton, allText_singleton, toText_text, toText_text, marks_escape, marks_escape]

/-- Attributes count with the marks of their values. -/
theorem element (name : String) {attributes attributes' : List (String × Text)}
    (hattributes : attributes.map (fun a => (a.1, marks a.2)) = attributes'.map fun a => (a.1, marks a.2))
    (hchildren : SameMarks ms ms') : SameMarks [.element name attributes ms] [.element name attributes' ms'] := by
  have hvalues : ∀ l : List (String × Text), (l.flatMap fun a => marks (attributeText a)) =
      (l.map fun a => (a.1, marks a.2)).flatMap fun a => marks (' ' :: (a.1.toList ++ ['=', '"'])) ++ a.2 ++ ['"'] := by
    intro l
    rw [List.flatMap_map]
    exact congrArg (List.flatMap · l) (funext marks_attributeText)
  rw [SameMarks, allText_singleton, allText_singleton, marks_element, marks_element, marks_tag, marks_tag, hvalues, hvalues,
    hattributes, hchildren]

theorem plain (name : String) (h : SameMarks ms ms') : SameMarks [.plain name ms] [.plain name ms'] :=
  element name rfl h

theorem classed (name cls : String) (h : SameMarks ms ms') : SameMarks [.classed name cls ms] [.classed name cls ms'] :=
  element name rfl h

/-- Items of the same kind have the same marks if they have so one by one. -/
theorem map {α β γ : Type} {f : α → Markup} {g : β → Markup} {kind : α → γ} {kind' : β → γ}
    (hkind : ∀ a b, kind a = kind' b → SameMarks [f a] [g b]) {l : List α} {l' : List β}
    (h : l.map kind = l'.map kind') : SameMarks (l.map f) (l'.map g) := by
  induction l generalizing l' with
  | nil =>
    cases l' with
    | nil => exact refl []
    | cons b l' => cases h
  | cons a l ih =>
    cases l' with
    | nil => cases h
    | cons b l' =>
      obtain ⟨hab, hrest⟩ := List.cons.inj h
      exact cons (hkind a b hab) (ih hrest)

/-- What is there in both cases or in none. -/
theorem toList {α : Type} {f : α → Markup} (hf : ∀ a b, SameMarks [f a] [f b]) {o o' : Option α}
    (h : o.isSome = o'.isSome) : SameMarks (o.toList.map f) (o'.toList.map f) := by
  cases o <;> cases o'
  · exact refl []
  · cases h
  · cases h
  · exact hf _ _

end SameMarks

/-! ## The number of marks -/

/-- The number of marks of some pieces. -/
def weight (ms : List Markup) : Nat := (marks (allText ms)).length

theorem weight_append (ms ms' : List Markup) : weight (ms ++ ms') = weight ms + weight ms' := by
  rw [weight, allText_append, marks_append, List.length_append]
  rfl

theorem weight_cons (m : Markup) (ms : List Markup) : weight (m :: ms) = weight [m] + weight ms := weight_append [m] ms

theorem weight_element (name : String) (attributes : List (String × Text)) (children : List Markup) :
    weight [element name attributes children] = weight [element name attributes []] + weight children := by
  unfold weight
  rw [allText_singleton, allText_singleton, marks_element, marks_element]
  simp only [List.length_append, allText_nil, marks_nil, List.length_nil]
  omega

/-- The marks in the value of an attribute count. -/
theorem weight_attribute (name : String) (attributes : List (String × Text)) (key : String) (value : Text) :
    weight [element name (attributes ++ [(key, value)]) []] =
      weight [element name (attributes ++ [(key, [])]) []] + (marks value).length := by
  unfold weight
  rw [allText_singleton, allText_singleton, marks_element, marks_element, marks_tag, marks_tag, List.flatMap_append,
    List.flatMap_append, List.flatMap_singleton, List.flatMap_singleton, marks_attributeText, marks_attributeText]
  simp only [List.length_append, marks_nil, List.length_nil]
  omega

theorem SameMarks.weight_eq {ms ms' : List Markup} (h : SameMarks ms ms') : weight ms = weight ms' :=
  congrArg List.length h

end SourceDoc.Markup
