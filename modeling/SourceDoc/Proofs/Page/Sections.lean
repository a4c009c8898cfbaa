import SourceDoc.Proofs.Page.Contents
import SourceDoc.Proofs.Text.Nesting

/-!
# The headings of a page

A page shows the texts of a document on lines between headings and fences of its own.  Where these texts have no line
boundaries and no backticks, and none at the front of a line is a heading itself, nothing on these lines is mistaken for
a heading or a fence: what is read off the page are the headings of its sections (`lists_sectionLines`), and nothing
above the table of contents (`plain_frontLines`).  Each part of a page is shown to list what it should wherever it
stands outside code (`Lists`), so the parts are put together by `Lists.append`.
-/

namespace SourceDoc

open Text

/-! ## What a page shows -/

/-- The texts that the signature of a function shows. -/
def FunctionDecl.texts (f : FunctionDecl) : List Text :=
  f.name :: (f.returnType.toList ++ f.parameters.flatMap fun p => p.name :: (p.type.toList ++ p.initial.toList))

/-- The descriptions of some parts. -/
def partTexts (names : List Text) (docs : List (Text × Text)) : List Text := names.filterMap (Table.get? · docs)

/-- The texts that a page shows of a function. -/
def DocumentedFunction.texts (f : DocumentedFunction) : List Text :=
  f.decl.texts ++ f.description.toList ++ partTexts (f.decl.parameters.map Parameter.name) f.parameters ++
    (if returnsValue f.decl then f.returns.toList else []) ++ f.example?.toList

/-- The texts that a page shows of a type. -/
def DocumentedType.texts (t : DocumentedType) : List Text :=
  t.decl.name :: t.decl.kind :: (t.decl.superType.toList ++ t.description.toList ++
    (t.constructor?.toList.flatMap fun c => c.decl.texts) ++
    (t.decl.properties.flatMap fun p => p.name :: p.type.toList) ++
    partTexts (t.decl.properties.map Property.name) t.properties ++ t.methods.flatMap DocumentedFunction.texts)

/-- The texts that a page shows of an export. -/
def DocumentedExport.texts (e : DocumentedExport) : List Text :=
  e.decl.name :: e.decl.kind :: (e.decl.definition.toList ++ e.description.toList)

/-- The texts that a page shows of a document: all but its source, comments, imports and receivers. -/
def Document.texts (d : Document) : List Text :=
  d.title :: d.path :: d.language :: (d.description.toList ++ d.proseError.toList ++
    d.functions.flatMap DocumentedFunction.texts ++ d.types.flatMap DocumentedType.texts ++
    d.exports.flatMap DocumentedExport.texts ++ d.usage.toList ++ d.notes.toList)

/-- The texts that a page shows at the front of a line. -/
def Document.paragraphs (d : Document) : List Text :=
  d.description.toList ++ (d.functions.flatMap fun f => f.description.toList) ++
    (d.types.flatMap fun t => t.description.toList ++ t.methods.flatMap fun m => m.description.toList) ++
    d.usage.toList ++ d.notes.toList

namespace Markdown

/-- A text that a page can show without a change to its lines. -/
structure IsShowable (t : Text) : Prop where
  isLine : IsLine t
  unquoted : '\x60' ∉ t
  unmarked : contains t contentsMark = false

instance (t : Text) : Decidable (IsShowable t) :=
  decidable_of_iff (IsLine t ∧ '\x60' ∉ t ∧ contains t contentsMark = false)
    ⟨fun ⟨hline, hquote, hmark⟩ => ⟨hline, hquote, hmark⟩, fun h => ⟨h.isLine, h.unquoted, h.unmarked⟩⟩

/-! ## Entries -/

/-- An entry of a table of contents: the name of a section, and whether it is one of a function or a type. -/
structure Entry where
  name : Text
  isNested : Bool
  deriving DecidableEq, Repr

/-- The title of the section. -/
def Entry.title (e : Entry) : Text := if e.isNested then code e.name else e.name

/-- The heading of the section of an entry. -/
def Entry.heading (e : Entry) : Heading := ⟨if e.isNested then 3 else 2, e.title⟩

/-- The line of the entry with an anchor. -/
def Entry.line (e : Entry) (anchor : Text) : Text :=
  (if e.isNested then [' ', ' '] else []) ++ "- [".toList ++ e.name ++ "](#".toList ++ anchor ++ [')']

/-- A section with the sections in it, where there are any. -/
def nestedEntries (title : String) (names : List Text) : List Entry :=
  if names = [] then [] else ⟨title.toList, false⟩ :: names.map fun name => ⟨name, true⟩

/-- A section without sections in it, if it is there. -/
def flatEntry (title : String) (isPresent : Bool) : List Entry := if isPresent then [⟨title.toList, false⟩] else []

/-- The sections of a document. -/
def entries (d : Document) : List Entry :=
  nestedEntries "Functions" (d.functions.map fun f => f.decl.name) ++
    nestedEntries "Classes" (d.types.map fun t => t.decl.name) ++
    flatEntry "Exports" (d.exports ≠ []) ++ flatEntry "Usage" (present? d.usage).isSome ++
    flatEntry "Notes" (present? d.notes).isSome

section

variable {ls : List Text} {hs : List Heading} {t language : Text}

/-! ## The lines of a section -/

theorem isLine_typeCode {type : Option Text} (h : ∀ t ∈ type, IsLine t) : IsLine (typeCode type) := by
  cases type with
  | none => decide
  | some t => exact isLine_code (h t rfl)

theorem mem_present {t : Text} {o : Option Text} (h : present? o = some t) : o = some t :=
  (Option.filter_eq_some_iff.mp h).1

theorem described_cases (o : Option Text) : described o ∈ o.toList ∨ described o = placeholder := by
  unfold described
  cases h : present? o with
  | none => exact .inr rfl
  | some t =>
    rw [mem_present h]
    exact .inl List.mem_cons_self

/-- A description stands on a line of its own and is no heading. -/
theorem described_isLine {o : Option Text} (h : ∀ t ∈ o.toList, IsShowable t ∧ IsParagraph t) :
    IsLine (described o) ∧ IsPlain (described o) := by
  rcases described_cases o with hmem | heq
  · obtain ⟨hshown, hparagraph⟩ := h _ hmem
    exact ⟨hshown.isLine, isPlain_paragraph hshown.unquoted hparagraph⟩
  · rw [heq]
    exact ⟨by decide, isPlain_paragraph (by decide) (by unfold IsParagraph; decide)⟩

theorem Lists.described {o : Option Text} (h : ∀ t ∈ o.toList, IsShowable t ∧ IsParagraph t) :
    Lists [described o, []] [] :=
  .cons (described_isLine h).1 (described_isLine h).2 (.singleton isLine_nil isPlain_nil)

theorem isLine_partDescription {name : Text} {docs : List (Text × Text)} (h : ∀ t ∈ Table.get? name docs, IsLine t) :
    IsLine (partDescription name docs) := by
  unfold partDescription
  cases hget : Table.get? name docs with
  | none => decide
  | some t => exact h t hget

/-- What holds of the characters of a text that may be absent holds of what is made of it. -/
theorem forall_mem_optional {p : Char → Prop} {f : Text → Text} {o : Option Text}
    (hf : ∀ t, (∀ c ∈ t, p c) → ∀ c ∈ f t, p c) (h : ∀ t ∈ o, ∀ c ∈ t, p c) : ∀ c ∈ (o.map f).getD [], p c := by
  cases o with
  | none => exact List.forall_mem_nil _
  | some t => exact hf t (h t rfl)

theorem mem_telling {unknown t : Text} {type : Option Text} (h : telling? unknown type = some t) : type = some t :=
  mem_present (Option.filter_eq_some_iff.mp h).1

/-- What holds of the characters of the texts of a function and of some marks holds of its signature. -/
theorem forall_mem_signature {p : Char → Prop} (hp : ∀ c ∈ "(,) =:->".toList, p c) {f : FunctionDecl}
    (h : ∀ t ∈ f.texts, ∀ c ∈ t, p c) (unknown : Text) : ∀ c ∈ signature unknown f, p c := by
  have hmark : ∀ t : Text, t ⊆ "(,) =:->".toList → ∀ c ∈ t, p c := fun t ht c hc => hp c (ht hc)
  simp only [FunctionDecl.texts, List.forall_mem_cons, List.forall_mem_append] at h
  obtain ⟨hname, hreturn, hparameters⟩ := h
  have htelling : ∀ {type : Option Text}, (∀ t ∈ type.toList, ∀ c ∈ t, p c) →
      ∀ t ∈ telling? unknown type, ∀ c ∈ t, p c := fun htype t ht =>
    htype t (by rw [mem_telling ht]; exact List.mem_cons_self)
  have hparameter : ∀ q ∈ f.parameters, ∀ c ∈ parameterText unknown q, p c := by
    intro q hq
    have hq := List.forall_mem_flatMap.mp hparameters q hq
    simp only [List.forall_mem_cons, List.forall_mem_append] at hq
    refine List.forall_mem_append.mpr ⟨List.forall_mem_append.mpr ⟨hq.1, ?_⟩, ?_⟩
    · refine forall_mem_optional (fun t ht => ?_) (htelling hq.2.1)
      exact List.forall_mem_append.mpr ⟨hmark _ (by decide), List.forall_mem_cons.mpr ⟨hp _ (by decide), ht⟩⟩
    · refine forall_mem_optional (fun t ht => ?_) fun t ht => hq.2.2 t (Option.mem_toList.mpr ht)
      exact List.forall_mem_append.mpr ⟨hmark _ (by decide), ht⟩
  refine List.forall_mem_append.mpr ⟨List.forall_mem_append.mpr ⟨hname, ?_⟩, ?_⟩
  · refine List.forall_mem_cons.mpr ⟨hp _ (by decide), List.forall_mem_append.mpr ⟨?_, hmark _ (by decide)⟩⟩
    exact forall_mem_joinWith (hmark _ (by decide)) (List.forall_mem_map.mpr hparameter)
  · refine forall_mem_optional (fun t ht => ?_) (htelling hreturn)
    exact List.forall_mem_append.mpr ⟨hmark _ (by decide), ht⟩

/-- The signature of a function is code on one line. -/
theorem Lists.signature (hlanguage : IsLine language) {f : FunctionDecl} (h : ∀ t ∈ f.texts, IsShowable t)
    (unknown : Text) : Lists (Markdown.fenced language (SourceDoc.signature unknown f)) [] := by
  refine .fenced hlanguage ?_ fun hquote => ?_
  · exact forall_mem_signature (by decide) (fun t ht => (h t ht).isLine) unknown
  · refine forall_mem_signature (p := (· ≠ '\x60')) (by decide) (fun t ht c hc => ?_) unknown _ hquote rfl
    rintro rfl
    exact (h t ht).unquoted hc

/-- The words of badges. -/
def badgeWords : List Text := ["async", "generator", "static", "private", "protected"].map String.toList

theorem badgeWords_showable : ∀ word ∈ badgeWords, IsLine word ∧ '\x60' ∉ word := by decide

theorem restricted_subset {visibility : Option Text} : ∀ tag ∈ restricted? visibility, tag ∈ badgeWords := by
  intro tag htag
  obtain ⟨-, hword⟩ := Option.filter_eq_some_iff.mp htag
  rcases Bool.or_eq_true_iff.mp hword with h | h <;> rw [of_decide_eq_true h] <;> decide

/-- What holds of a word holds of what a flag leaves of it. -/
theorem forall_mem_flag {p : Text → Prop} {word : Text} (h : p word) (flag : Bool) :
    ∀ tag ∈ (if flag then [word] else []), p tag := by
  intro tag htag
  cases flag
  · cases htag
  · rwa [List.mem_singleton.mp htag]

theorem badges_subset (f : FunctionDecl) : ∀ tag ∈ badges f, tag ∈ badgeWords := by
  simp only [badges, List.forall_mem_append]
  exact ⟨⟨⟨forall_mem_flag (by decide) _, forall_mem_flag (by decide) _⟩, forall_mem_flag (by decide) _⟩,
    fun tag htag => restricted_subset tag (Option.mem_toList.mp htag)⟩

/-- The badges of a function stand on one line. -/
theorem Lists.badges (f : FunctionDecl) :
    Lists (if badges f = [] then [] else [joinWith [' '] ((SourceDoc.badges f).map code), []]) [] := by
  have hbadges := badges_subset f
  cases htags : SourceDoc.badges f with
  | nil => exact .nil
  | cons tag tags =>
    rw [htags] at hbadges
    rw [if_neg (List.cons_ne_nil _ _)]
    refine .cons ?_ ?_ (.singleton isLine_nil isPlain_nil)
    · refine forall_mem_joinWith (by decide) (List.forall_mem_map.mpr fun t ht => ?_)
      exact isLine_code (badgeWords_showable t (hbadges t ht)).1
    · have hquote := (badgeWords_showable tag (hbadges tag List.mem_cons_self)).2
      cases tags with
      | nil => exact isPlain_code hquote
      | cons tag' tags =>
        rw [List.map_cons, joinWith_cons _ _ _ (by simp), List.append_assoc]
        exact isPlain_code_append hquote (by rintro c hc; cases hc; decide)

/-- A label in bold is plain. -/
theorem isPlain_labelled (label : String) (rest : Text) : IsPlain (labelled label rest) := by
  unfold labelled
  rw [List.append_assoc, List.append_assoc]
  exact isPlain_front (by decide) _

theorem isLine_labelled {label : String} {rest : Text} (hlabel : IsLine label.toList) (h : IsLine rest) :
    IsLine (labelled label rest) :=
  isLine_append.mpr ⟨isLine_append.mpr ⟨isLine_append.mpr ⟨by decide, hlabel⟩, by decide⟩, h⟩

theorem mem_partTexts {name t : Text} {names : List Text} {docs : List (Text × Text)} (hname : name ∈ names)
    (h : Table.get? name docs = some t) : t ∈ partTexts names docs := List.mem_filterMap.mpr ⟨name, hname, h⟩

/-- A label with a list below it, where that has any items. -/
theorem Lists.labelled {α : Type} {label : String} (hlabel : IsLine label.toList) {item : α → Text} {l : List α}
    (h : ∀ a ∈ l, IsLine (item a) ∧ IsPlain (item a)) :
    Lists (if l = [] then [] else Markdown.labelled label [] :: [] :: (l.map item ++ [[]])) [] := by
  split
  · exact .nil
  · have hitems := (Lists.of_plain (List.forall_mem_map.mpr h)).then (.singleton isLine_nil isPlain_nil)
    exact .cons (isLine_labelled hlabel isLine_nil) (isPlain_labelled label _) (.cons isLine_nil isPlain_nil hitems)

theorem parameterLine_isLine {docs : List (Text × Text)} {p : Parameter}
    (h : ∀ t ∈ p.name :: (p.type.toList ++ p.initial.toList), IsLine t)
    (hdocs : ∀ t ∈ Table.get? p.name docs, IsLine t) :
    IsLine (parameterLine docs p) ∧ IsPlain (parameterLine docs p) := by
  simp only [List.forall_mem_cons, List.forall_mem_append, Option.mem_toList] at h
  obtain ⟨hname, htype, hinitial⟩ := h
  have hinitial' : IsLine ((p.initial.map fun v => ", default ".toList ++ code v).getD []) :=
    forall_mem_optional (fun t ht => isLine_append.mpr ⟨by decide, isLine_code ht⟩) hinitial
  unfold parameterLine
  simp only [List.append_assoc]
  refine ⟨?_, isPlain_front (by decide) _⟩
  simp only [isLine_append]
  exact ⟨by decide, isLine_code hname, by decide, isLine_typeCode htype, hinitial', by decide,
    isLine_partDescription hdocs⟩

/-- **A function has a heading of the table unless it is a method.** -/
theorem lists_functionLines (unknown : Text) (hlanguage : IsLine language) {level : Nat} (hlevel : level ≠ 0)
    {f : DocumentedFunction} (h : ∀ t ∈ f.texts, IsShowable t)
    (hparagraph : ∀ t ∈ f.description.toList, IsParagraph t) :
    Lists (functionLines unknown language level f)
      (if level = 2 ∨ level = 3 then [⟨level, code f.decl.name⟩] else []) := by
  simp only [DocumentedFunction.texts, List.forall_mem_append] at h
  obtain ⟨⟨⟨⟨hdecl, hdescription⟩, hparts⟩, hreturns⟩, hexample⟩ := h
  have hname := isTitle_code (hdecl _ List.mem_cons_self).isLine
  have hhead := Lists.heading hlevel hname (.singleton isLine_nil isPlain_nil)
  rw [List.append_nil] at hhead
  have hdescribed : Lists [SourceDoc.described f.description, []] [] :=
    .described fun t ht => ⟨hdescription t ht, hparagraph t ht⟩
  have hparameter : ∀ q ∈ f.decl.parameters,
      IsLine (parameterLine f.parameters q) ∧ IsPlain (parameterLine f.parameters q) := by
    intro q hq
    refine parameterLine_isLine (fun t ht => (hdecl t ?_).isLine) fun t ht => ?_
    · exact List.mem_cons_of_mem _ (List.mem_append_right _ (List.mem_flatMap.mpr ⟨q, hq, ht⟩))
    · exact (hparts t (mem_partTexts (List.mem_map_of_mem hq) ht)).isLine
  unfold functionLines
  refine (((((hhead.then (.badges f.decl)).then hdescribed).then (.signature hlanguage hdecl unknown)).then
    (.labelled (by decide) hparameter)).then ?_).then ?_
  · -- the result
    by_cases hvalue : returnsValue f.decl = true
    · rw [if_pos hvalue] at hreturns ⊢
      have htype : ∀ t ∈ f.decl.returnType, IsLine t := fun t ht =>
        (hdecl t (List.mem_cons_of_mem _ (List.mem_append_left _ (Option.mem_toList.mpr ht)))).isLine
      have hprose : IsLine (((present? f.returns).map (" - ".toList ++ ·)).getD []) :=
        forall_mem_optional (fun t ht => isLine_append.mpr ⟨by decide, ht⟩) fun t ht =>
          (hreturns t (by rw [mem_present ht]; exact List.mem_cons_self)).isLine
      have htype' : IsLine (' ' :: typeCode f.decl.returnType) := isLine_cons.mpr ⟨rfl, isLine_typeCode htype⟩
      have hresult := isLine_append.mpr ⟨htype', hprose⟩
      exact .cons (isLine_labelled (by decide) hresult) (isPlain_labelled _ _) (.singleton isLine_nil isPlain_nil)
    · rw [if_neg hvalue]
      exact .nil
  · -- the example
    cases hpresent : present? f.example? with
    | none => exact .nil
    | some t =>
      have ht := hexample t (by rw [mem_present hpresent]; exact List.mem_cons_self)
      exact .cons (isLine_labelled (by decide) isLine_nil) (isPlain_labelled _ _)
        (.cons isLine_nil isPlain_nil (.fenced hlanguage ht.isLine ht.unquoted))

theorem propertyLine_isLine {docs : List (Text × Text)} {p : Property} (h : ∀ t ∈ p.name :: p.type.toList, IsLine t)
    (hdocs : ∀ t ∈ Table.get? p.name docs, IsLine t) :
    IsLine (propertyLine docs p) ∧ IsPlain (propertyLine docs p) := by
  simp only [List.forall_mem_cons, Option.mem_toList] at h
  have htags : ∀ tag ∈ (if p.isStatic then ["static".toList] else []) ++ (restricted? p.visibility).toList ++
      (if p.isOptional then ["optional".toList] else []), IsLine tag := by
    simp only [List.forall_mem_append, Option.mem_toList]
    exact ⟨⟨forall_mem_flag (by decide) _, fun tag htag => (badgeWords_showable tag (restricted_subset tag htag)).1⟩,
      forall_mem_flag (by decide) _⟩
  unfold propertyLine
  simp only [List.append_assoc]
  refine ⟨?_, isPlain_front (by decide) _⟩
  simp only [isLine_append]
  refine ⟨by decide, ?_, isLine_code h.1, by decide, isLine_typeCode h.2, by decide, isLine_partDescription hdocs⟩
  rw [List.append_assoc] at htags
  exact List.forall_mem_flatMap.mpr fun tag htag => isLine_append.mpr ⟨isLine_code (htags tag htag), by decide⟩

/-- **A type has a heading of the table, and its methods have none.** -/
theorem lists_typeLines (unknown : Text) (hlanguage : IsLine language) {t : DocumentedType}
    (h : ∀ text ∈ t.texts, IsShowable text) (hparagraph : ∀ text ∈ t.description.toList, IsParagraph text)
    (hmethods : ∀ m ∈ t.methods, ∀ text ∈ m.description.toList, IsParagraph text) :
    Lists (typeLines unknown language t) [⟨3, code t.decl.name⟩] := by
  simp only [DocumentedType.texts, List.forall_mem_cons, List.forall_mem_append, List.forall_mem_flatMap] at h
  obtain ⟨hname, hkind, ⟨⟨⟨⟨⟨hsuper, hdescription⟩, hconstructor⟩, hproperties⟩, hparts⟩, hmethod⟩⟩ := h
  have hhead := Lists.heading (n := 3) (by decide) (isTitle_code hname.isLine) (.singleton isLine_nil isPlain_nil)
  have hproperty : ∀ p ∈ t.decl.properties,
      IsLine (propertyLine t.properties p) ∧ IsPlain (propertyLine t.properties p) := by
    intro p hp
    have hshown := List.forall_mem_cons.mpr (hproperties p hp)
    exact propertyLine_isLine (fun text htext => (hshown text htext).isLine) fun text htext =>
      (hparts text (mem_partTexts (List.mem_map_of_mem hp) htext)).isLine
  unfold typeLines
  refine (((((hhead.then ?_).then ?_).then (.described fun text htext =>
    ⟨hdescription text htext, hparagraph text htext⟩)).then ?_).then (.labelled (by decide) hproperty)).then ?_
  · -- the kind
    split
    · exact .nil
    · exact .cons (isLine_code hkind.isLine) (isPlain_code hkind.unquoted) (.singleton isLine_nil isPlain_nil)
  · -- the type above it
    cases hpresent : present? t.decl.superType with
    | none => exact .nil
    | some parent =>
      have hparent := hsuper parent (by rw [mem_present hpresent]; exact List.mem_cons_self)
      have hline : IsLine (' ' :: code parent) := isLine_cons.mpr ⟨rfl, isLine_code hparent.isLine⟩
      exact .cons (isLine_labelled (by decide) hline) (isPlain_labelled _ _) (.singleton isLine_nil isPlain_nil)
  · -- the constructor
    cases hc : t.constructor? with
    | none => exact .nil
    | some c =>
      rw [hc] at hconstructor
      exact .cons (isLine_labelled (by decide) isLine_nil) (isPlain_labelled _ _)
        (.cons isLine_nil isPlain_nil (.signature hlanguage (hconstructor c List.mem_cons_self) unknown))
  · -- the methods
    split
    · exact .nil
    · refine .cons (isLine_labelled (by decide) isLine_nil) (isPlain_labelled _ _) (.cons isLine_nil isPlain_nil ?_)
      exact .flatMap_silent fun m hm => lists_functionLines unknown hlanguage (by decide) (hmethod m hm) (hmethods m hm)

/-- **An export has no heading of the table.** -/
theorem lists_exportLines {e : DocumentedExport} (h : ∀ t ∈ e.texts, IsShowable t) : Lists (exportLines e) [] := by
  simp only [DocumentedExport.texts, List.forall_mem_cons, List.forall_mem_append, Option.mem_toList] at h
  obtain ⟨hname, hkind, hdefinition, hdescription⟩ := h
  have hprose : IsLine (((present? e.description).map (": ".toList ++ ·)).getD []) :=
    forall_mem_optional (fun t ht => isLine_append.mpr ⟨by decide, ht⟩) fun t ht =>
      (hdescription t (mem_present ht)).isLine
  unfold exportLines
  refine .cons ?_ ?_ ?_
  · simp only [isLine_append]
    exact ⟨⟨⟨⟨⟨by decide, isLine_code hname.isLine⟩, by decide⟩, hkind.isLine⟩, by decide⟩, hprose⟩
  · simp only [List.append_assoc]
    exact isPlain_front (by decide) _
  · cases hpresent : present? e.decl.definition with
    | none => exact .nil
    | some t =>
      refine .singleton (isLine_append.mpr ⟨by decide, isLine_code (hdefinition t (mem_present hpresent)).isLine⟩) ?_
      have hlead : "  - Type definition: ".toList = [' ', ' '] ++ "- Type definition: ".toList := by decide
      have hplain : IsPlain ("- Type definition: ".toList ++ code t) := isPlain_front (by decide) _
      simp only [hlead, List.append_assoc]
      exact hplain.blank_append rfl

/-- **A section has its own heading in front of those in it.** -/
theorem Lists.sectionOf {title : String} (htitle : IsTitle title.toList) (h : Lists ls hs) :
    Lists (Markdown.sectionOf title ls) (if ls = [] then [] else ⟨2, title.toList⟩ :: hs) := by
  unfold Markdown.sectionOf
  split
  · exact .nil
  · exact .heading (n := 2) (by decide) htitle (.cons isLine_nil isPlain_nil h)

/-- A section with sections in it. -/
theorem Lists.nested {title : String} (htitle : IsTitle title.toList) {α : Type} {part : α → List Text}
    {name : α → Text} {l : List α} (hpart : ∀ a, part a ≠ []) (h : ∀ a ∈ l, Lists (part a) [⟨3, code (name a)⟩]) :
    Lists (Markdown.sectionOf title (l.flatMap part)) ((nestedEntries title (l.map name)).map Entry.heading) := by
  have hsection := Lists.sectionOf htitle (Lists.flatMap h)
  unfold nestedEntries
  cases l with
  | nil => exact .nil
  | cons a l =>
    have hbody : (a :: l).flatMap part ≠ [] := fun hnil =>
      hpart a (List.flatMap_eq_nil_iff.mp hnil a List.mem_cons_self)
    rw [if_neg hbody] at hsection
    rw [← List.map_eq_flatMap] at hsection
    rw [List.map_cons, if_neg (List.cons_ne_nil _ _), ← List.map_cons, List.map_cons, List.map_map, List.map_map]
    exact hsection

theorem Lists.prose {title : String} (htitle : IsTitle title.toList) {o : Option Text}
    (h : ∀ t ∈ o.toList, IsShowable t ∧ IsParagraph t) :
    Lists (proseSection title o) ((flatEntry title (present? o).isSome).map Entry.heading) := by
  unfold proseSection
  cases hpresent : present? o with
  | none => exact .nil
  | some t =>
    obtain ⟨hshown, hparagraph⟩ := h t (by rw [mem_present hpresent]; exact List.mem_cons_self)
    have hplain := isPlain_paragraph hshown.unquoted hparagraph
    exact .sectionOf htitle (.cons hshown.isLine hplain (.singleton isLine_nil isPlain_nil))

/-! ## The lines of a document -/

/-- The lines of a page above the table of contents. -/
def frontLines (d : Document) : List Text :=
  ["# ".toList ++ d.title, [], labelled "File" (' ' :: code d.path ++ "  ".toList),
      labelled "Language" (' ' :: d.language), [], SourceDoc.described d.description, []] ++
    match present? d.proseError with
    | some reason => ["> **Note:** ".toList ++ unavailable ++ ": ".toList ++ reason, []]
    | none => []

/-- The lines of the sections of a page. -/
def sectionLines (d : Document) : List Text :=
  sectionOf "Functions" (d.functions.flatMap (functionLines d.unknown d.language 3)) ++
    sectionOf "Classes" (d.types.flatMap (typeLines d.unknown d.language)) ++
    sectionOf "Exports" (if d.exports.flatMap exportLines = [] then [] else d.exports.flatMap exportLines ++ [[]]) ++
    proseSection "Usage" d.usage ++ proseSection "Notes" d.notes

/-- The last line of a page. -/
def lastLine (now : Text) : Text := "*Generated by autodocs on ".toList ++ now ++ ['*']

/-- The lines of a page below the table of contents. -/
def backLines (now : Text) (d : Document) : List Text := sectionLines d ++ ["---".toList, [], lastLine now]

theorem documentLines_eq (now : Text) (d : Document) :
    documentLines now d = frontLines d ++ contentsMark :: [] :: backLines now d := by
  unfold documentLines frontLines backLines sectionLines lastLine
  cases present? d.proseError <;> simp only [List.append_assoc, List.cons_append, List.nil_append]

/-- The title of a page is no heading of the table. -/
theorem isPlain_title (title : Text) : IsPlain ("# ".toList ++ title) := by
  have hstrip : strip ("# ".toList ++ title) = '#' :: stripRight (' ' :: title) :=
    strip_append_right (a := ['#']) (by decide) (List.cons_ne_nil _ _) (' ' :: title)
  have hfront : '#' :: stripRight (' ' :: title) <+: '#' :: ' ' :: title :=
    List.cons_prefix_cons.mpr ⟨rfl, stripRight_within _⟩
  rw [← hstrip] at hfront
  refine ⟨Option.eq_none_iff_forall_ne_some.mpr fun h hsome => ?_, by rw [hstrip]; rfl⟩
  obtain ⟨hlevel, gap, rest, -, -, hline, -⟩ := (heading_eq_some_iff _ h).mp hsome
  rw [hline] at hfront
  rcases hlevel with hlevel | hlevel <;> rw [hlevel] at hfront <;>
    cases (List.cons_prefix_cons.mp (List.cons_prefix_cons.mp hfront).2).1

/-- A text with something around it that has no angle brackets. -/
theorem unmarked_framed {a t b : Text} (ha : '<' ∉ a) (hb : '>' ∉ b) (h : contains t contentsMark = false) :
    contains (a ++ t ++ b) contentsMark = false := by
  have hmark : contentsMark = '<' :: ("!-- autodocs:toc --".toList ++ ['>']) := by decide
  rw [hmark] at h ⊢
  exact contains_framed ha hb h

section

variable {d : Document} (htexts : ∀ t ∈ d.texts, IsShowable t) (hparagraphs : ∀ t ∈ d.paragraphs, IsParagraph t)

include htexts

/-- No line above the table of contents has its mark. -/
theorem unmarked_frontLines : ∀ line ∈ frontLines d, contains line contentsMark = false := by
  simp only [Document.texts, List.forall_mem_cons, List.forall_mem_append] at htexts
  obtain ⟨htitle, hpath, hlanguage, ⟨⟨⟨⟨⟨hdescription, herror⟩, -⟩, -⟩, -⟩, -⟩, -⟩ := htexts
  have hempty : contains [] contentsMark = false := by decide
  have hpath' : contains (labelled "File" (' ' :: code d.path ++ "  ".toList)) contentsMark = false := by
    have := unmarked_framed (a := "**File:** \x60".toList) (b := "\x60  ".toList) (by decide) (by decide) hpath.unmarked
    have heq : labelled "File" (' ' :: code d.path ++ "  ".toList) =
      "**File:** \x60".toList ++ d.path ++ "\x60  ".toList := by simp [labelled, code]
    rwa [heq]
  have hlanguage' : contains (labelled "Language" (' ' :: d.language)) contentsMark = false := by
    have := unmarked_framed (a := "**Language:** ".toList) (b := []) (by decide) (by decide) hlanguage.unmarked
    have heq : labelled "Language" (' ' :: d.language) = "**Language:** ".toList ++ d.language ++ [] := by
      simp [labelled]
    rwa [heq]
  have hdescription' : contains (SourceDoc.described d.description) contentsMark = false := by
    rcases described_cases d.description with hmem | heq
    · exact (hdescription _ hmem).unmarked
    · rw [heq]
      decide
  unfold frontLines
  simp only [List.forall_mem_append, List.forall_mem_cons]
  refine ⟨⟨?_, hempty, hpath', hlanguage', hempty, hdescription', hempty, List.forall_mem_nil _⟩, ?_⟩
  · have := unmarked_framed (a := "# ".toList) (b := []) (by decide) (by decide) htitle.unmarked
    rwa [List.append_nil] at this
  · cases hpresent : present? d.proseError with
    | none => exact List.forall_mem_nil _
    | some reason =>
      have hreason := herror reason (by rw [mem_present hpresent]; exact List.mem_cons_self)
      refine List.forall_mem_cons.mpr ⟨?_, List.forall_mem_singleton.mpr hempty⟩
      have := unmarked_framed (a := "> **Note:** ".toList ++ unavailable ++ ": ".toList) (b := []) (by decide)
        (by decide) hreason.unmarked
      rwa [List.append_nil] at this

include hparagraphs

/-- All lines above the table of contents are plain. -/
theorem plain_frontLines : ∀ line ∈ frontLines d, IsLine line ∧ IsPlain line := by
  simp only [Document.texts, List.forall_mem_cons, List.forall_mem_append] at htexts
  obtain ⟨htitle, hpath, hlanguage, ⟨⟨⟨⟨⟨hdescription, herror⟩, -⟩, -⟩, -⟩, -⟩, -⟩ := htexts
  simp only [Document.paragraphs, List.forall_mem_append] at hparagraphs
  obtain ⟨⟨⟨⟨hparagraph, -⟩, -⟩, -⟩, -⟩ := hparagraphs
  have hempty : IsLine [] ∧ IsPlain [] := ⟨isLine_nil, isPlain_nil⟩
  unfold frontLines
  simp only [List.forall_mem_append, List.forall_mem_cons]
  refine ⟨⟨⟨isLine_append.mpr ⟨by decide, htitle.isLine⟩, isPlain_title d.title⟩, hempty,
    ⟨isLine_labelled (by decide) ?_, isPlain_labelled _ _⟩, ⟨isLine_labelled (by decide) ?_, isPlain_labelled _ _⟩,
    hempty, described_isLine fun t ht => ⟨hdescription t ht, hparagraph t ht⟩, hempty, List.forall_mem_nil _⟩, ?_⟩
  · exact isLine_append.mpr ⟨isLine_cons.mpr ⟨rfl, isLine_code hpath.isLine⟩, by decide⟩
  · exact isLine_cons.mpr ⟨rfl, hlanguage.isLine⟩
  · cases hpresent : present? d.proseError with
    | none => exact List.forall_mem_nil _
    | some reason =>
      have hreason := herror reason (by rw [mem_present hpresent]; exact List.mem_cons_self)
      refine List.forall_mem_cons.mpr ⟨⟨?_, ?_⟩, List.forall_mem_singleton.mpr hempty⟩
      · simp only [isLine_append]
        exact ⟨⟨⟨by decide, by decide⟩, by decide⟩, hreason.isLine⟩
      · simp only [List.append_assoc]
        exact isPlain_front (by decide) _

/-- **The sections of a document are the headings of its page.** -/
theorem lists_sectionLines : Lists (sectionLines d) ((entries d).map Entry.heading) := by
  simp only [Document.texts, List.forall_mem_cons, List.forall_mem_append, List.forall_mem_flatMap] at htexts
  obtain ⟨-, -, hlanguage, ⟨⟨⟨⟨-, hfunctions⟩, htypes⟩, hexports⟩, husage⟩, hnotes⟩ := htexts
  simp only [Document.paragraphs, List.forall_mem_append, List.forall_mem_flatMap] at hparagraphs
  obtain ⟨⟨⟨⟨-, hfunction⟩, htype⟩, husage'⟩, hnotes'⟩ := hparagraphs
  unfold sectionLines entries
  simp only [List.map_append]
  refine ((((Lists.nested (by decide) ?_ fun f hf => ?_).append
    (.nested (by decide) ?_ fun t ht => ?_)).append ?_).append ?_).append ?_
  · exact fun f => by simp [functionLines]
  · exact lists_functionLines d.unknown hlanguage.isLine (by decide) (hfunctions f hf) (hfunction f hf)
  · exact fun t => by simp [typeLines]
  · exact lists_typeLines d.unknown hlanguage.isLine (htypes t ht) (htype t ht).1 (htype t ht).2
  · have hbody : Lists (d.exports.flatMap exportLines ++ [[]]) [] :=
      (Lists.flatMap_silent fun e he => lists_exportLines (hexports e he)).then (.singleton isLine_nil isPlain_nil)
    cases hnone : d.exports with
    | nil => exact .nil
    | cons e es =>
      rw [hnone] at hbody
      have hne : (e :: es).flatMap exportLines ≠ [] := by simp [exportLines]
      have hsection : Lists (sectionOf "Exports" ((e :: es).flatMap exportLines ++ [[]])) _ :=
        .sectionOf (by decide) hbody
      rw [if_neg (by simp)] at hsection
      rw [if_neg hne]
      exact hsection
  · exact .prose (by decide) fun t ht => ⟨husage t ht, husage' t ht⟩
  · exact .prose (by decide) fun t ht => ⟨hnotes t ht, hnotes' t ht⟩

end

end

end Markdown

end SourceDoc
