import SourceDoc.Proofs.Page.Html
import SourceDoc.Proofs.Table

/-!
# The marks of HTML pages

The page of a document has the marks of the template, of the shape of the document and, in the identifiers of methods,
those of the names of types (`documentPage_same`, `length_documentPage`).  So pages of documents of one shape have the
same marks if the names of types with methods have the same, and not if those of one document alone have any:

    d.shape = e.shape → the page of d has the marks of the page of e if d and e have the same owner marks, and,
      where e has none, only if d has none                                              (renderDocument_marks)
-/

namespace SourceDoc.Html

open Markup

/-! ## Slots -/

/-- The slot of the types. -/
def typesSlot : Text := "CLASSES".toList

/-- The section of the types. -/
def typesSection (d : Document) : List Markup := sectionOf "Classes" (d.types.map (typeBlock d.unknown))

theorem fill_typesSlot (now : Text) (d : Document) :
    Template.Piece.fill (slotValues now d) (.slot typesSlot) = allText (typesSection d) := rfl

/-- All slots but that of the types have the marks of the shape. -/
theorem slotValues_same (now now' : Text) (d e : Document) (h : d.shape = e.shape) :
    List.Forall₂ (fun p q => p.1 = q.1 ∧ (p.1 ≠ typesSlot → marks p.2 = marks q.2)) (slotValues now d)
      (slotValues now' e) := by
  obtain ⟨hfunctions, -, hexports, herror, husage, hnotes⟩ := DocumentShape.mk.inj h
  have hfunctions' : SameMarks (sectionOf "Functions" (d.functions.map (functionBlock d.unknown "func".toList)))
      (sectionOf "Functions" (e.functions.map (functionBlock e.unknown "func".toList))) :=
    boxed_map_same "section" _ (fun f g hfg => functionBlock_same _ _ rfl f g hfg) hfunctions
  have hexports' : SameMarks (sectionOf "Exports" (d.exports.map exportBlock))
      (sectionOf "Exports" (e.exports.map exportBlock)) :=
    boxed_map_same "section" _ (fun x y hxy => exportBlock_same x y hxy) hexports
  unfold slotValues
  simp only [List.map_cons, List.map_nil]
  exact .cons ⟨rfl, fun _ => SameMarks.text d.title e.title⟩ <|
    .cons ⟨rfl, fun _ => SameMarks.text d.path e.path⟩ <|
    .cons ⟨rfl, fun _ => SameMarks.text d.language e.language⟩ <|
    .cons ⟨rfl, fun _ => description_same d e herror⟩ <|
    .cons ⟨rfl, fun _ => contents_same d e h⟩ <|
    .cons ⟨rfl, fun _ => hfunctions'⟩ <|
    .cons ⟨rfl, fun hne => absurd rfl hne⟩ <|
    .cons ⟨rfl, fun _ => hexports'⟩ <|
    .cons ⟨rfl, fun _ => proseSection_same "Usage" husage⟩ <|
    .cons ⟨rfl, fun _ => proseSection_same "Notes" hnotes⟩ <|
    .cons ⟨rfl, fun _ => SameMarks.text now now'⟩ .nil

theorem marks_fill_other (now now' : Text) (d e : Document) (h : d.shape = e.shape) {p : Template.Piece}
    (hp : p ≠ .slot typesSlot) : marks (p.fill (slotValues now d)) = marks (p.fill (slotValues now' e)) := by
  cases p with
  | char c => rfl
  | slot name =>
    have hname : name ≠ typesSlot := fun he => hp (he ▸ rfl)
    have hrel := Table.rel_get (R := fun key v v' => key ≠ typesSlot → marks v = marks v') (slotValues_same now now' d e h) name
    rw [Template.Piece.fill, Template.Piece.fill]
    generalize Table.get? name (slotValues now d) = value at hrel ⊢
    generalize Table.get? name (slotValues now' e) = value' at hrel ⊢
    cases hrel with
    | none => rfl
    | some hsame => exact hsame hname

/-! ## Pages -/

theorem marks_documentPage (template now : Text) (d : Document) :
    marks (documentPage template now d) =
      (Template.pieces template).flatMap fun p => marks (p.fill (slotValues now d)) :=
  marks_flatMap _ _

/-- **Pages of one shape have the same marks if the names of types with methods have.** -/
theorem documentPage_same (template now now' : Text) (d e : Document) (h : d.shape = e.shape)
    (howner : d.types.map ownerMarks = e.types.map ownerMarks) :
    marks (documentPage template now d) = marks (documentPage template now' e) := by
  have htypes : d.types.map DocumentedType.shape = e.types.map DocumentedType.shape := (DocumentShape.mk.inj h).2.1
  have hkinds : (d.types.map fun t => (t.shape, ownerMarks t)) = e.types.map fun t => (t.shape, ownerMarks t) := by
    rw [← List.zip_map', ← List.zip_map', htypes, howner]
  have hsection : SameMarks (typesSection d) (typesSection e) :=
    boxed_map_same "section" _ (fun t t' ht =>
      typeBlock_same _ _ t t' (Prod.mk.inj ht).1 (Prod.mk.inj ht).2) hkinds
  rw [marks_documentPage, marks_documentPage]
  refine congrArg (List.flatMap · (Template.pieces template)) (funext fun p => ?_)
  by_cases hp : p = .slot typesSlot
  · rw [hp, fill_typesSlot, fill_typesSlot]
    exact hsection
  · exact marks_fill_other now now' d e h hp

/-- The document with types without names. -/
def withoutOwners (d : Document) : Document := { d with types := d.types.map nameless }

theorem shape_withoutOwners (d : Document) : (withoutOwners d).shape = d.shape := by
  unfold Document.shape withoutOwners
  simp only [List.map_map]
  rfl

/-- All marks that the names of types leave in the blocks of their methods. -/
def straysOf (d : Document) : Text := d.types.flatMap strayMarks

theorem weight_typesSection (d : Document) :
    weight (typesSection d) = weight (typesSection (withoutOwners d)) + (straysOf d).length := by
  have hblocks : ∀ ts : List DocumentedType, weight (ts.map (typeBlock d.unknown)) =
      weight ((ts.map nameless).map (typeBlock d.unknown)) + (ts.flatMap strayMarks).length := by
    intro ts
    induction ts with
    | nil => rfl
    | cons t ts ih =>
      simp only [List.map_cons, List.flatMap_cons, List.length_append]
      rw [weight_cons, weight_cons (typeBlock d.unknown (nameless t)), weight_typeBlock, ih]
      omega
  unfold straysOf
  by_cases hnone : d.types = []
  · simp [typesSection, withoutOwners, hnone]
  · have hne : d.types.map (typeBlock d.unknown) ≠ [] := by simpa using hnone
    have hne' : (d.types.map nameless).map (typeBlock d.unknown) ≠ [] := by simpa using hnone
    have hnameless : typesSection (withoutOwners d) =
        sectionOf "Classes" ((d.types.map nameless).map (typeBlock d.unknown)) := rfl
    rw [hnameless, typesSection, sectionOf, sectionOf, weight_boxed _ _ _ hne, weight_boxed _ _ _ hne', hblocks]
    omega

/-- **The number of marks of a page:** those that it has without the names of types, and for every slot of the types
those that the names leave. -/
theorem length_documentPage (template now : Text) (d : Document) :
    (marks (documentPage template now d)).length =
      (marks (documentPage template now (withoutOwners d))).length +
        (Template.pieces template).count (.slot typesSlot) * (straysOf d).length := by
  rw [marks_documentPage, marks_documentPage]
  induction Template.pieces template with
  | nil => simp
  | cons p ps ih =>
    rw [List.flatMap_cons, List.flatMap_cons, List.length_append, List.length_append, ih, List.count_cons]
    by_cases hp : p = .slot typesSlot
    · have htypes : (marks (p.fill (slotValues now d))).length =
          (marks (p.fill (slotValues now (withoutOwners d)))).length + (straysOf d).length := by
        rw [hp, fill_typesSlot, fill_typesSlot]
        exact weight_typesSection d
      rw [htypes, hp, if_pos (by simp), Nat.add_mul]
      omega
    · rw [marks_fill_other now now d (withoutOwners d) (shape_withoutOwners d).symm hp, if_neg (by simpa using hp), Nat.add_zero]
      omega

/-! ## Documents of one shape -/

/-- No name of a type leaves a mark. -/
def HasPlainOwners (d : Document) : Prop := ∀ t ∈ d.types, ownerMarks t = []

theorem HasPlainOwners.map_ownerMarks {d : Document} (hd : HasPlainOwners d) :
    d.types.map ownerMarks = List.replicate d.types.length [] := by
  rw [List.map_congr_left hd, List.map_const']

theorem hasPlainOwners_withoutOwners (d : Document) : HasPlainOwners (withoutOwners d) := by
  intro t ht
  obtain ⟨t', -, rfl⟩ := List.mem_map.mp ht
  exact ownerMarks_nameless t'

theorem documentPage_same_of_plain (template now now' : Text) {d e : Document} (h : d.shape = e.shape)
    (hd : HasPlainOwners d) (he : HasPlainOwners e) :
    marks (documentPage template now d) = marks (documentPage template now' e) := by
  have hlength : d.types.length = e.types.length := by
    simpa using congrArg List.length (DocumentShape.mk.inj h).2.1
  refine documentPage_same template now now' d e h ?_
  rw [hd.map_ownerMarks, he.map_ownerMarks, hlength]

theorem hasPlainOwners_of_straysOf {d : Document} (h : straysOf d = []) : HasPlainOwners d := by
  intro t ht
  have hstray : strayMarks t = [] := List.flatMap_eq_nil_iff.mp h t ht
  unfold ownerMarks
  split
  · rfl
  · rename_i hsome
    obtain ⟨m, hm⟩ := List.exists_mem_of_ne_nil _ hsome
    exact List.flatMap_eq_nil_iff.mp hstray m hm

/-- **The names of types may leave no marks** if the page is to have those of a page without any. -/
theorem hasPlainOwners_of_same {template now now' : Text} (hmissing : Template.missingSlots template = [])
    {d e : Document} (h : d.shape = e.shape) (he : HasPlainOwners e)
    (hsame : marks (documentPage template now d) = marks (documentPage template now' e)) : HasPlainOwners d := by
  have hplain : marks (documentPage template now (withoutOwners d)) = marks (documentPage template now' e) :=
    documentPage_same_of_plain template now now' ((shape_withoutOwners d).trans h) (hasPlainOwners_withoutOwners d) he
  have hlength := length_documentPage template now d
  rw [hplain, hsame] at hlength
  have hslot : 0 < (Template.pieces template).count (.slot typesSlot) :=
    List.count_pos_iff.mpr ((Template.missingSlots_eq_nil_iff template).mp hmissing typesSlot (by decide))
  have hzero : (Template.pieces template).count (.slot typesSlot) * (straysOf d).length = 0 := by omega
  have hnone : (straysOf d).length = 0 := (Nat.mul_eq_zero.mp hzero).resolve_left hslot.ne'
  exact hasPlainOwners_of_straysOf (List.length_eq_zero_iff.mp hnone)

/-- **No text adds markup to a page or takes it away,** except for the names of types with methods.  With a template that
has its slots and a clock that shows something there are pages of both documents. -/
theorem renderDocument_marks (template? : Option Text) (hmissing : Renderer.missing ⟨.html, template?⟩ = [])
    (c c' : Clock) (now now' : Text) (hc : c.read.1 = some now) (hc' : c'.read.1 = some now') (d e : Document)
    (h : d.shape = e.shape) :
    ∃ a b : Artifact,
      (Renderer.renderDocument ⟨.html, template?⟩ d c).1 = .ok a ∧
      (Renderer.renderDocument ⟨.html, template?⟩ e c').1 = .ok b ∧
      (d.types.map ownerMarks = e.types.map ownerMarks → marks a.content = marks b.content) ∧
      (HasPlainOwners e → (marks a.content = marks b.content ↔ HasPlainOwners d)) := by
  have hslots : Template.missingSlots (template?.getD defaultTemplate) = [] := hmissing
  refine ⟨_, _, Renderer.renderDocument_html hmissing d hc, Renderer.renderDocument_html hmissing e hc', ?_,
    fun he => ⟨?_, ?_⟩⟩
  · exact documentPage_same _ now now' d e h
  · exact hasPlainOwners_of_same hslots h he
  · exact fun hd => documentPage_same_of_plain _ now now' h hd he

/-- A document about one type with one method. -/
def methodOwner (name : String) : Document where
  outline := { path := "a.py".toList, language := "python".toList, source := [] }
  title := name.toList
  types := [{ decl := { name := name.toList }, methods := [{ decl := { name := "m".toList } }] }]

/-- The name is no part of the shape. -/
theorem shape_methodOwner (name other : String) : (methodOwner name).shape = (methodOwner other).shape := rfl

theorem renderDocument_marks_sample : Renderer.missing ⟨.html, none⟩ = [] ∧
    (methodOwner "A").shape = (methodOwner "B").shape ∧
    ∃ a b : Artifact,
      (Renderer.renderDocument ⟨.html, none⟩ (methodOwner "A") { reading := fun _ => some [] }).1 = .ok a ∧
      (Renderer.renderDocument ⟨.html, none⟩ (methodOwner "B") { reading := fun _ => some [] }).1 = .ok b ∧
      marks a.content = marks b.content := by
  have hmissing : Renderer.missing ⟨.html, none⟩ = [] := Renderer.missing_none .html
  obtain ⟨a, b, ha, hb, hsame, -⟩ := renderDocument_marks none hmissing { reading := fun _ => some [] }
    { reading := fun _ => some [] } [] [] rfl rfl (methodOwner "A") (methodOwner "B") (shape_methodOwner "A" "B")
  exact ⟨hmissing, shape_methodOwner "A" "B", a, b, ha, hb, hsame (by decide)⟩

/-- A name with marks adds markup to the default page. -/
theorem documentPage_markedOwner : (methodOwner "A\"><b>").shape = (methodOwner "A").shape ∧
    marks (documentPage defaultTemplate [] (methodOwner "A\"><b>")) ≠
      marks (documentPage defaultTemplate [] (methodOwner "A")) := by
  have hshape := shape_methodOwner "A\"><b>" "A"
  have hplain : HasPlainOwners (methodOwner "A") := by
    simp only [HasPlainOwners, methodOwner, List.forall_mem_singleton]
    decide
  refine ⟨hshape, fun hsame => ?_⟩
  have hmarked := hasPlainOwners_of_same missingSlots_defaultTemplate hshape hplain hsame _ List.mem_cons_self
  exact absurd hmarked (by decide)

end SourceDoc.Html
