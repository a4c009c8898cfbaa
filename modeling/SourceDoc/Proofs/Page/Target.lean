import Mathlib.Data.List.Count
import SourceDoc.Outline.Normal
import SourceDoc.Proofs.Extractor.Outline
import SourceDoc.Proofs.Page.Marks
import SourceDoc.Proofs.Page.Sections
import SourceDoc.Proofs.Page.Tag

/-!
# Links and their targets

The anchors of the page of a document are the links of its table of contents and the blocks of its functions, types,
methods and exports, in this order (`anchors_documentPage`).  The page has a link for every function, type and export,
and the link leads to the block that it is for; it is the only block with this identifier if no other function, or type,
or export, has the name (`IsLinked`).

    extract path source = .ok o → … → ∃ a, renderDocument (assemble o prose error) c = .ok a ∧ IsLinked … a.content
                                                                                    (renderDocument_isLinked)

Names are not told apart: two functions of one name have one target (`identifiersOf_repeated`).
-/

namespace SourceDoc.Html

open Markup Markdown

/-! ## Anchors of a page -/

/-- The identifier of the block of a function. -/
def functionTarget (name : Text) : Text := "func-".toList ++ escape name

/-- The identifier of the block of a type. -/
def typeTarget (name : Text) : Text := "class-".toList ++ escape name

/-- The identifier of the block of an export. -/
def exportTarget (name : Text) : Text := "export-".toList ++ escape name

/-- The identifier of the block of a method; the name of its type stands in it as it is. -/
def methodTarget (owner name : Text) : Text := "method-".toList ++ owner ++ '-' :: escape name

/-- A link to a block. -/
def linkTag (target : Text) : Tag := ⟨['a'], [("href".toList, '#' :: target)]⟩

/-- The tag that opens a block. -/
def blockTag (cls : String) (target : Text) : Tag := ⟨"div".toList, [("class".toList, cls.toList), ("id".toList, target)]⟩

/-- The targets of the links in the table of contents. -/
def targets (d : Document) : List Text :=
  d.functions.map (fun f => functionTarget f.decl.name) ++ d.types.map (fun t => typeTarget t.decl.name) ++
    d.exports.map fun e => exportTarget e.decl.name

/-- The block of a type and those of its methods. -/
def typeTags (t : DocumentedType) : List Tag :=
  blockTag "class" (typeTarget t.decl.name) ::
    t.methods.map fun m => blockTag "function" (methodTarget t.decl.name m.decl.name)

/-! ## Blocks -/

theorem quote_not_mem_of_marks {t : Text} (h : marks t = []) : '"' ∉ t := by
  intro hmem
  have hmark : '"' ∈ marks t := List.mem_filter.mpr ⟨hmem, by decide⟩
  rw [h] at hmark
  cases hmark

theorem quote_not_mem_escape (t : Text) : '"' ∉ escape t := quote_not_mem_of_marks (marks_escape t)

theorem badgeWords_plain : ∀ word ∈ badgeWords, '"' ∉ "badge badge-".toList ++ word := by decide

theorem anchors_badge {tag : Text} (h : tag ∈ badgeWords) : Anchors [badge tag] [] :=
  .element (by decide) (List.forall_mem_singleton.mpr (isReadable (by decide) (badgeWords_plain tag h))) (.text tag)

theorem anchors_partBlock {tags : List Text} (htags : ∀ tag ∈ tags, tag ∈ badgeWords) (name type prose : Text)
    {after : List Markup} (hafter : Anchors after []) : Anchors [partBlock tags name type after prose] [] := by
  have hbadges : Anchors (tags.map badge) [] := .none fun tag htag => anchors_badge (htags tag htag)
  refine .classed (by decide) (by decide) (.after (.after (.after hbadges ?_) hafter) ?_)
  · refine .cons (.classed (by decide) (by decide) (.text name)) (.cons (.text _) ?_)
    exact .classed (by decide) (by decide) (.text type)
  · exact .plain (by decide) (.text prose)

theorem anchors_parameterBlock (unknown : Text) (docs : List (Text × Text)) (p : Parameter) :
    Anchors [parameterBlock unknown docs p] [] := by
  refine anchors_partBlock (by simp) _ _ _ ?_
  cases p.initial with
  | none => exact .nil
  | some v => exact .cons (.text _) (.plain (by decide) (.text _))

theorem anchors_propertyBlock (unknown : Text) (docs : List (Text × Text)) (p : Property) :
    Anchors [propertyBlock unknown docs p] [] := by
  refine anchors_partBlock ?_ _ _ _ ?_
  · exact List.forall_mem_append.mpr ⟨forall_mem_flag (by decide) _, fun tag htag =>
      restricted_subset tag (Option.mem_toList.mp htag)⟩
  · split
    · exact .cons (.text _) (.plain (by decide) (.text _))
    · exact .nil

theorem anchors_signatureBox {label : String} (t : Text) : Anchors [signatureBox label t] [] :=
  .classed (by decide) (by decide) (.cons (.plain (by decide) (.text _)) (.text _))

/-- A box around blocks, where there are any. -/
theorem anchors_boxed {cls : String} (hcls : IsTagWord cls) {head : Markup} (hhead : Anchors [head] [])
    {blocks : List Markup} {as : List Tag} (h : Anchors blocks as) :
    Anchors (if blocks.isEmpty then [] else [classed "div" cls (head :: blocks)]) as := by
  cases blocks with
  | nil => exact h
  | cons m ms => exact .classed (by decide) hcls (.after hhead h)

/-- A block with an identifier. -/
theorem anchors_block {cls : String} (hcls : IsTagWord cls) {target : Text} (htarget : '"' ∉ target) {ms : List Markup}
    {as : List Tag} (h : Anchors ms as) :
    Anchors [element "div" [("class", cls.toList), ("id", target)] ms] (blockTag cls target :: as) := by
  refine .element (by decide) (List.forall_mem_cons.mpr ⟨isReadable (by decide) hcls.quote_not_mem, ?_⟩) h
  exact List.forall_mem_singleton.mpr (isReadable (by decide) htarget)

/-- **A function has one anchor,** its block, if the anchor in front of its name has no quotes. -/
theorem anchors_functionBlock (unknown : Text) {anchor : Text} (ha : '"' ∉ anchor) (f : DocumentedFunction) :
    Anchors [functionBlock unknown anchor f] [blockTag "function" (anchor ++ '-' :: escape f.decl.name)] := by
  have htarget : '"' ∉ anchor ++ '-' :: escape f.decl.name := by simp [ha, quote_not_mem_escape]
  refine anchors_block (by decide) htarget (.after (.after (.after ?_ ?_) ?_) ?_)
  · have hbadges : Anchors ((badges f.decl).map badge) [] :=
      .none fun tag htag => anchors_badge (badges_subset f.decl tag htag)
    refine .cons (.plain (by decide) (hbadges.after (.text _))) (.cons (.plain (by decide) (.text _)) ?_)
    exact anchors_signatureBox _
  · exact anchors_boxed (by decide) (.plain (by decide) (.text _)) (.none fun p _ => anchors_parameterBlock _ _ p)
  · split
    · refine .classed (by decide) (by decide) (.cons (.plain (by decide) (.text _)) ?_)
      refine .classed (by decide) (by decide) ?_
      exact .cons (.classed (by decide) (by decide) (.text _)) (.plain (by decide) (.text _))
    · exact .nil
  · split
    · refine .classed (by decide) (by decide) (.cons (.plain (by decide) (.text _)) ?_)
      exact .plain (by decide) (.plain (by decide) (.text _))
    · exact .nil

theorem anchors_typeFront (unknown : Text) (t : DocumentedType) : Anchors (typeFront unknown t) [] := by
  have hname : Anchors [plain "h3" [text t.decl.name]] [] := .plain (by decide) (.text _)
  refine .after (.after (.after (.after (.after hname ?_) (.plain (by decide) (.text _))) ?_) ?_) ?_
  · split
    · exact .nil
    · exact .plain (by decide) (.plain (by decide) (.text _))
  · split
    · exact .plain (by decide) (.cons (.plain (by decide) (.text _)) (.cons (.text _) (.plain (by decide) (.text _))))
    · exact .nil
  · split
    · exact anchors_signatureBox _
    · exact .nil
  · exact anchors_boxed (by decide) (.plain (by decide) (.text _)) (.none fun p _ => anchors_propertyBlock _ _ p)

/-- **The anchors of a type** are its block and those of its methods. -/
theorem anchors_typeBlock (unknown : Text) {t : DocumentedType} (h : ownerMarks t = []) :
    Anchors [typeBlock unknown t] (typeTags t) := by
  have hmethods : Anchors (t.methods.map (methodBlock unknown t.decl.name))
      (t.methods.map fun m => blockTag "function" (methodTarget t.decl.name m.decl.name)) := by
    refine .map fun m hm => .classed (by decide) (by decide) ?_
    have hname : marks t.decl.name = [] := by rwa [ownerMarks, if_neg (List.ne_nil_of_mem hm)] at h
    exact anchors_functionBlock unknown (by simp [quote_not_mem_of_marks hname]) m
  rw [typeBlock_eq]
  refine anchors_block (by decide) (by simp [quote_not_mem_escape]) (.after (anchors_typeFront unknown t) ?_)
  exact anchors_boxed (by decide) (.plain (by decide) (.text _)) hmethods

theorem anchors_exportBlock (e : DocumentedExport) :
    Anchors [exportBlock e] [blockTag "export" (exportTarget e.decl.name)] := by
  refine anchors_block (by decide) (by simp [quote_not_mem_escape]) (.after (.after ?_ ?_) ?_)
  · refine .cons (.plain (by decide) (.text _)) (.plain (by decide) (.cons (.plain (by decide) (.text _)) ?_))
    exact .cons (.text _) (.plain (by decide) (.text _))
  · exact .none fun t _ => .plain (by decide) (.text t)
  · exact .none fun t _ => anchors_signatureBox t

/-! ## Sections -/

theorem anchors_proseSection {heading : String} (t : Option Text) : Anchors (proseSection heading t) [] :=
  anchors_boxed (by decide) (.plain (by decide) (.text _)) (.none fun t _ => .plain (by decide) (.text t))

theorem anchors_description (d : Document) : Anchors (description d) [] :=
  .cons (.plain (by decide) (.text _)) (.none fun _ _ =>
    .classed (by decide) (by decide) (.cons (.plain (by decide) (.text _)) (.text _)))

theorem anchors_linkGroup (heading : String) {anchor : String} (ha : IsTagWord anchor) (suffix : String)
    (names : List Text) :
    Anchors (linkGroup heading anchor suffix names)
      (names.map fun name => linkTag (anchor.toList ++ '-' :: escape name)) := by
  rw [linkGroup]
  split
  · rename_i hnone
    rw [hnone]
    exact .nil
  · refine .cons (.plain (by decide) (.text _)) (.plain (by decide) (.map fun name _ => .plain (by decide) ?_))
    refine .element (by decide) (List.forall_mem_singleton.mpr (isReadable (by decide) ?_)) (.text _)
    simp [ha.quote_not_mem, quote_not_mem_escape]

theorem anchors_contents (d : Document) : Anchors (contents d) ((targets d).map linkTag) := by
  have hfunctions := anchors_linkGroup "Functions" (show IsTagWord "func" by decide) "()" (d.functions.map (·.decl.name))
  have htypes := anchors_linkGroup "Classes" (show IsTagWord "class" by decide) "" (d.types.map (·.decl.name))
  have hexports := anchors_linkGroup "Exports" (show IsTagWord "export" by decide) "" (d.exports.map (·.decl.name))
  have hlinks : Anchors (contents d) _ :=
    anchors_boxed (by decide) (.plain (by decide) (.text _)) ((hfunctions.append htypes).append hexports)
  rw [List.map_map, List.map_map, List.map_map] at hlinks
  rw [targets, List.map_append, List.map_append, List.map_map, List.map_map, List.map_map]
  exact hlinks

/-! ## Pages -/

/-- The blocks of a document. -/
def blockTags (d : Document) : List Tag :=
  d.functions.map (fun f => blockTag "function" (functionTarget f.decl.name)) ++ d.types.flatMap typeTags ++
    d.exports.map fun e => blockTag "export" (exportTarget e.decl.name)

/-- The anchors of the value of a slot. -/
def slotTags (d : Document) (slot : Text) : List Tag :=
  if slot = "TABLE_OF_CONTENTS".toList then (targets d).map linkTag
  else if slot = "FUNCTIONS".toList then d.functions.map fun f => blockTag "function" (functionTarget f.decl.name)
  else if slot = "CLASSES".toList then d.types.flatMap typeTags
  else if slot = "EXPORTS".toList then d.exports.map fun e => blockTag "export" (exportTarget e.decl.name)
  else []

theorem hasAnchors_slot (now : Text) {d : Document} (hd : HasPlainOwners d) :
    ∀ slot ∈ defaultSlots, HasAnchors (Template.Piece.fill (slotValues now d) (.slot slot)) (slotTags d slot) := by
  have hfunctions : Anchors (sectionOf "Functions" (d.functions.map (functionBlock d.unknown "func".toList)))
      (d.functions.map fun f => blockTag "function" (functionTarget f.decl.name)) :=
    anchors_boxed (by decide) (.plain (by decide) (.text _)) (.map fun f _ => anchors_functionBlock _ (by decide) f)
  have htypes : Anchors (typesSection d) (d.types.flatMap typeTags) :=
    anchors_boxed (by decide) (.plain (by decide) (.text _)) (.flatMap fun t ht => anchors_typeBlock _ (hd t ht))
  have hexports : Anchors (sectionOf "Exports" (d.exports.map exportBlock))
      (d.exports.map fun e => blockTag "export" (exportTarget e.decl.name)) :=
    anchors_boxed (by decide) (.plain (by decide) (.text _)) (.map fun e _ => anchors_exportBlock e)
  simp only [defaultSlots, List.map_cons, List.map_nil, List.forall_mem_cons]
  exact ⟨Anchors.text d.title, Anchors.text d.title, Anchors.text d.path, Anchors.text d.language,
    anchors_description d, anchors_contents d, hfunctions, htypes, hexports, anchors_proseSection d.usage,
    anchors_proseSection d.notes, Anchors.text now, fun _ h => nomatch h⟩

/-- **The anchors of a page** are the links of its table of contents and its blocks. -/
theorem anchors_documentPage (now : Text) {d : Document} (hd : HasPlainOwners d) :
    anchorsOf (documentPage defaultTemplate now d) = (targets d).map linkTag ++ blockTags d := by
  rw [documentPage, Template.anchors_fill slotsFrom_defaultTemplate (hasAnchors_slot now hd)]
  simp [defaultSlots, slotTags, blockTags]

/-! ## Links and identifiers -/

/-- The links of a page, in order. -/
def linksOf (page : Text) : List Text := (tagsOf page).filterMap (·.attribute? "href")

/-- The identifiers of the elements of a page, in order. -/
def identifiersOf (page : Text) : List Text := (tagsOf page).filterMap (·.attribute? "id")

/-- The identifier of an element of a class. -/
def identifierIn? (cls : String) (t : Tag) : Option Text :=
  if t.attribute? "class" = some cls.toList then t.attribute? "id" else none

/-- The identifiers of the elements of a class, in order. -/
def blocksOf (cls : String) (page : Text) : List Text := (tagsOf page).filterMap (identifierIn? cls)

/-- The identifiers of the blocks of the methods of a type. -/
def methodTargets (t : DocumentedType) : List Text := t.methods.map fun m => methodTarget t.decl.name m.decl.name

/-- The links of a page are those to the functions, the types and the exports of the document, each in order, and the
blocks of the functions, types and exports have the targets in this order.  A target is the identifier of as many
elements as there are functions, or types, or exports, of the name. -/
structure IsLinked (d : Document) (page : Text) : Prop where
  links : linksOf page = (targets d).map ('#' :: ·)
  functions : blocksOf "function" page =
    d.functions.map (fun f => functionTarget f.decl.name) ++ d.types.flatMap methodTargets
  types : blocksOf "class" page = d.types.map fun t => typeTarget t.decl.name
  exports : blocksOf "export" page = d.exports.map fun e => exportTarget e.decl.name
  count_function : ∀ name, (identifiersOf page).count (functionTarget name) = (d.functions.map (·.decl.name)).count name
  count_type : ∀ name, (identifiersOf page).count (typeTarget name) = (d.types.map (·.decl.name)).count name
  count_export : ∀ name, (identifiersOf page).count (exportTarget name) = (d.exports.map (·.decl.name)).count name

/-- What is read off tags with links or identifiers is read off the anchors. -/
theorem filterMap_tagsOf {f : Tag → Option Text} (hf : ∀ t, t.isAnchor = false → f t = none) (page : Text) :
    (tagsOf page).filterMap f = (anchorsOf page).filterMap f := by
  rw [anchorsOf, List.filterMap_filter]
  refine List.filterMap_congr fun t _ => ?_
  split
  · rfl
  · rename_i hother
    exact hf t (Bool.eq_false_iff.mpr hother)

theorem attribute_of_not_isAnchor {t : Tag} (h : t.isAnchor = false) :
    t.attribute? "href" = none ∧ t.attribute? "id" = none := by
  simpa [Tag.isAnchor] using h

@[simp] theorem linkTag_href (target : Text) : (linkTag target).attribute? "href" = some ('#' :: target) := rfl

@[simp] theorem linkTag_id (target : Text) : (linkTag target).attribute? "id" = none := rfl

@[simp] theorem blockTag_href (cls : String) (target : Text) : (blockTag cls target).attribute? "href" = none := rfl

@[simp] theorem blockTag_id (cls : String) (target : Text) : (blockTag cls target).attribute? "id" = some target := rfl

@[simp] theorem identifierIn_linkTag (cls : String) (target : Text) : identifierIn? cls (linkTag target) = none := rfl

@[simp] theorem identifierIn_blockTag (cls cls' : String) (target : Text) :
    identifierIn? cls (blockTag cls' target) = if cls' = cls then some target else none := by
  have hclass : (blockTag cls' target).attribute? "class" = some cls'.toList := rfl
  rw [identifierIn?, hclass, blockTag_id]
  simp only [Option.some.injEq, String.toList_inj]

section

variable {d : Document} {page : Text} (hpage : anchorsOf page = (targets d).map linkTag ++ blockTags d)

include hpage

theorem linksOf_page : linksOf page = (targets d).map ('#' :: ·) := by
  rw [linksOf, filterMap_tagsOf (fun t ht => (attribute_of_not_isAnchor ht).1), hpage]
  simp [blockTags, typeTags, List.filterMap_flatMap, Function.comp_def]

theorem identifiersOf_page : identifiersOf page =
    d.functions.map (fun f => functionTarget f.decl.name) ++
      d.types.flatMap (fun t => typeTarget t.decl.name :: methodTargets t) ++
      d.exports.map fun e => exportTarget e.decl.name := by
  rw [identifiersOf, filterMap_tagsOf (fun t ht => (attribute_of_not_isAnchor ht).2), hpage]
  simp [blockTags, typeTags, methodTargets, List.filterMap_flatMap, Function.comp_def]

theorem blocksOf_page (cls : String) : blocksOf cls page = (blockTags d).filterMap (identifierIn? cls) := by
  have hother : ∀ t : Tag, t.isAnchor = false → identifierIn? cls t = none := by
    intro t ht
    rw [identifierIn?, (attribute_of_not_isAnchor ht).2, ite_self]
  rw [blocksOf, filterMap_tagsOf hother, hpage]
  simp [Function.comp_def]

theorem blocksOf_function : blocksOf "function" page =
    d.functions.map (fun f => functionTarget f.decl.name) ++ d.types.flatMap methodTargets := by
  rw [blocksOf_page hpage]
  simp [blockTags, typeTags, List.filterMap_flatMap]
  rfl

theorem blocksOf_class : blocksOf "class" page = d.types.map fun t => typeTarget t.decl.name := by
  rw [blocksOf_page hpage, List.map_eq_flatMap]
  simp [blockTags, typeTags, List.filterMap_flatMap]

theorem blocksOf_export : blocksOf "export" page = d.exports.map fun e => exportTarget e.decl.name := by
  rw [blocksOf_page hpage]
  simp [blockTags, typeTags, List.filterMap_flatMap]

end

/-- A target is there as many times as the name that it is made of. -/
theorem count_target {α : Type} (start : Text) (nameOf : α → Text) (l : List α) (name : Text) :
    (l.map fun a => start ++ escape (nameOf a)).count (start ++ escape name) = (l.map nameOf).count name := by
  have hinjective : Function.Injective fun n => start ++ escape n :=
    (List.append_right_injective start).comp escape_injective
  rw [← List.count_map_of_injective (l.map nameOf) _ hinjective name, List.map_map]
  rfl

/-- Identifiers with another first character do not count. -/
theorem count_of_head {t : Text} {ids : List Text} (h : ∀ id ∈ ids, id.head? ≠ t.head?) : ids.count t = 0 :=
  List.count_eq_zero_of_not_mem fun hmem => h t hmem rfl

theorem count_map_of_head {α : Type} {f : α → Text} {c : Char} (hf : ∀ a, (f a).head? = some c) {t : Text}
    (ht : t.head? ≠ some c) (l : List α) : (l.map f).count t = 0 := by
  refine count_of_head fun id hid => ?_
  obtain ⟨a, -, rfl⟩ := List.mem_map.mp hid
  exact hf a ▸ Ne.symm ht

/-- The blocks of methods do not count for a type. -/
theorem count_typeTargets (types : List DocumentedType) (name : Text) :
    (types.flatMap fun t => typeTarget t.decl.name :: methodTargets t).count (typeTarget name) =
      (types.map (·.decl.name)).count name := by
  have hfirst : ∀ t : DocumentedType, (typeTarget t.decl.name :: methodTargets t).count (typeTarget name) =
      [typeTarget t.decl.name].count (typeTarget name) := by
    intro t
    have hmethods : (methodTargets t).count (typeTarget name) = 0 :=
      count_map_of_head (fun _ => rfl) (ne_of_beq_false rfl) t.methods
    rw [← List.singleton_append, List.count_append, hmethods, Nat.add_zero]
  have hmap : (types.flatMap fun t => typeTarget t.decl.name :: methodTargets t).count (typeTarget name) =
      (types.map fun t => typeTarget t.decl.name).count (typeTarget name) := by
    rw [List.map_eq_flatMap, List.count_flatMap, List.count_flatMap]
    exact congrArg List.sum (List.map_congr_left fun t _ => hfirst t)
  exact hmap.trans (count_target "class-".toList (fun t : DocumentedType => t.decl.name) types name)

/-- The blocks of types and methods count for types only. -/
theorem count_typeTargets_other {t : Text} (hclass : t.head? ≠ some 'c') (hmethod : t.head? ≠ some 'm')
    (types : List DocumentedType) :
    (types.flatMap fun t => typeTarget t.decl.name :: methodTargets t).count t = 0 := by
  refine count_of_head fun id hid => ?_
  obtain ⟨u, -, hid⟩ := List.mem_flatMap.mp hid
  rcases List.mem_cons.mp hid with rfl | hid
  · exact Ne.symm hclass
  · obtain ⟨m, -, rfl⟩ := List.mem_map.mp hid
    exact Ne.symm hmethod

/-- **The page of a document whose types with methods have plain names leads its links to its blocks.** -/
theorem isLinked_of_plain (now : Text) {d : Document} (hd : HasPlainOwners d) :
    IsLinked d (documentPage defaultTemplate now d) := by
  have hpage := anchors_documentPage now hd
  have hfunctions : ∀ {t : Text}, t.head? ≠ some 'f' →
      (d.functions.map fun f => functionTarget f.decl.name).count t = 0 :=
    fun ht => count_map_of_head (fun _ => rfl) ht _
  have hexports : ∀ {t : Text}, t.head? ≠ some 'e' →
      (d.exports.map fun e => exportTarget e.decl.name).count t = 0 := fun ht => count_map_of_head (fun _ => rfl) ht _
  refine ⟨linksOf_page hpage, blocksOf_function hpage, blocksOf_class hpage, blocksOf_export hpage, ?_, ?_, ?_⟩
  all_goals
    intro name
    rw [identifiersOf_page hpage, List.count_append, List.count_append]
  · rw [count_typeTargets_other (ne_of_beq_false rfl) (ne_of_beq_false rfl), hexports (ne_of_beq_false rfl)]
    exact count_target "func-".toList (·.decl.name) d.functions name
  · rw [count_typeTargets, hfunctions (ne_of_beq_false rfl), hexports (ne_of_beq_false rfl), Nat.zero_add, Nat.add_zero]
  · rw [count_typeTargets_other (ne_of_beq_false rfl) (ne_of_beq_false rfl), hfunctions (ne_of_beq_false rfl), Nat.zero_add]
    exact count_target "export-".toList (·.decl.name) d.exports name

/-! ## Documents of sources -/

theorem hasPlainOwners_assemble {o : Outline} (h : ∀ t ∈ o.types, marks t.name = []) (prose : Option Prose)
    (error : Option Text) : HasPlainOwners (Document.assemble o prose error) := by
  intro t ht
  have hname : marks t.decl.name = [] := by
    obtain ⟨u, hu, rfl⟩ := List.mem_map.mp ht
    exact h u hu
  rw [ownerMarks, hname, ite_self]

/-- A normal outline leaves blanks out of the names of types and changes nothing else in them. -/
theorem marks_types_normalize {o : Outline} (h : ∀ t ∈ o.types, marks t.name = []) :
    ∀ t ∈ o.normalize.types, marks t.name = [] := by
  intro t ht
  obtain ⟨d', hd', htype⟩ := List.mem_filterMap.mp ht
  obtain ⟨d, hd, rfl⟩ := List.mem_map.mp hd'
  cases d with
  | function f => cases htype
  | type u =>
    cases htype
    have hu : marks u.name = [] := h u (List.mem_filterMap.mpr ⟨_, hd, rfl⟩)
    exact marks_eq_nil_iff.mpr fun c hc => marks_eq_nil_iff.mp hu c ((Text.strip_within u.name).subset hc)

/-- The names of the functions, types and exports of an outline. -/
def namesOf (o : Outline) : List Text × List Text × List Text :=
  (o.functions.map FunctionDecl.name, o.types.map TypeDecl.name, o.exports.map Export.name)

theorem functions_assemble (o : Outline) (prose : Option Prose) (error : Option Text) :
    (Document.assemble o prose error).functions.map (·.decl.name) = (namesOf o).1 := by
  have hfunction : ∀ (p : Option FunctionProse) (f : FunctionDecl), (Document.documentFunction p f).decl = f := by
    intro p f
    cases p <;> rfl
  simp [namesOf, Document.assemble, hfunction, Function.comp_def]

/-- The targets of the links are made of these names. -/
theorem targets_assemble (o : Outline) (prose : Option Prose) (error : Option Text) :
    targets (Document.assemble o prose error) =
      (namesOf o).1.map functionTarget ++ (namesOf o).2.1.map typeTarget ++ (namesOf o).2.2.map exportTarget := by
  rw [← functions_assemble o prose error]
  simp [targets, namesOf, Document.assemble, Document.documentType, Function.comp_def]

/-- A function, a class with a method, and the function as an export. -/
def linkedSource : Text :=
  "__all__ = ['f']\n\n\ndef f():\n    pass\n\n\nclass A:\n    def f(self):\n        pass\n".toList

/-- Two functions of one name. -/
def repeatedSource : Text := "def f():\n    pass\n\n\ndef f(x):\n    pass\n".toList

end SourceDoc.Html
