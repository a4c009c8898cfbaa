import SourceDoc.Page.Renderer
import SourceDoc.Proofs.Page.Markup
import SourceDoc.Proofs.Page.Template

/-!
# The marks of blocks in HTML pages

The shape of a symbol is what decides which elements its block has.  A block has the marks of its shape, whatever its texts
are (`exportBlock_same`, `contents_same`), except that a function has those of its anchor too (`functionBlock_same`).
The anchor of a method holds the name of its type as it is written, so a type has in each of its methods the marks of its
name (`typeBlock_same`, `weight_typeBlock`).
-/

namespace SourceDoc

/-! ## Shapes -/

/-- What of a function decides which elements its block has. -/
structure FunctionShape where
  /-- For every parameter, that it has an initial value. -/
  parameters : List Bool
  isAsync : Bool
  isGenerator : Bool
  isStatic : Bool
  /-- Its visibility where it is private or protected. -/
  visibility : Option Text
  returnsValue : Bool
  hasExample : Bool
  deriving DecidableEq

/-- What of a property decides which elements its block has. -/
structure PropertyShape where
  isStatic : Bool
  visibility : Option Text
  isOptional : Bool
  deriving DecidableEq

/-- What of a type decides which elements its block has. -/
structure TypeShape where
  isClass : Bool
  hasSuperType : Bool
  hasConstructor : Bool
  properties : List PropertyShape
  methods : List FunctionShape
  deriving DecidableEq

/-- What of an export decides which elements its block has. -/
structure ExportShape where
  hasDescription : Bool
  hasDefinition : Bool
  deriving DecidableEq

/-- What of a document decides which elements its page has. -/
structure DocumentShape where
  functions : List FunctionShape
  types : List TypeShape
  exports : List ExportShape
  hasError : Bool
  hasUsage : Bool
  hasNotes : Bool
  deriving DecidableEq

def DocumentedFunction.shape (f : DocumentedFunction) : FunctionShape where
  parameters := f.decl.parameters.map (·.initial.isSome)
  isAsync := f.decl.isAsync
  isGenerator := f.decl.isGenerator
  isStatic := f.decl.isStatic
  visibility := restricted? f.decl.visibility
  returnsValue := returnsValue f.decl
  hasExample := (present? f.example?).isSome

def Property.shape (p : Property) : PropertyShape where
  isStatic := p.isStatic
  visibility := restricted? p.visibility
  isOptional := p.isOptional

def DocumentedType.shape (t : DocumentedType) : TypeShape where
  isClass := t.decl.kind = "class".toList
  hasSuperType := (present? t.decl.superType).isSome
  hasConstructor := t.constructor?.isSome
  properties := t.decl.properties.map Property.shape
  methods := t.methods.map DocumentedFunction.shape

def DocumentedExport.shape (e : DocumentedExport) : ExportShape where
  hasDescription := (present? e.description).isSome
  hasDefinition := (present? e.decl.definition).isSome

def Document.shape (d : Document) : DocumentShape where
  functions := d.functions.map DocumentedFunction.shape
  types := d.types.map DocumentedType.shape
  exports := d.exports.map DocumentedExport.shape
  hasError := (present? d.proseError).isSome
  hasUsage := (present? d.usage).isSome
  hasNotes := (present? d.notes).isSome

namespace Html

open Markup

/-! ## Blocks -/

theorem partBlock_same (tags : List Text) (name name' type type' prose prose' : Text) {after after' : List Markup}
    (h : SameMarks after after') :
    SameMarks [partBlock tags name type after prose] [partBlock tags name' type' after' prose'] := by
  refine .classed "div" "param" (.append (.append (.append (.refl _) ?_) h) (.plain "div" (.text prose prose')))
  exact .cons (.classed "span" "param-name" (.text name name'))
    (.cons (.refl [literal " "]) (.classed "span" "param-type" (.text type type')))

theorem parameterBlock_same (unknown unknown' : Text) (docs docs' : List (Text × Text)) (p p' : Parameter)
    (h : p.initial.isSome = p'.initial.isSome) :
    SameMarks [parameterBlock unknown docs p] [parameterBlock unknown' docs' p'] := by
  refine partBlock_same [] _ _ _ _ _ _ ?_
  cases hp : p.initial <;> cases hp' : p'.initial <;> rw [hp, hp'] at h
  · exact .refl []
  · cases h
  · cases h
  · exact .cons (.refl [literal " "]) (.plain "em" (.text _ _))

theorem propertyBlock_same (unknown unknown' : Text) (docs docs' : List (Text × Text)) (p p' : Property)
    (h : p.shape = p'.shape) : SameMarks [propertyBlock unknown docs p] [propertyBlock unknown' docs' p'] := by
  obtain ⟨hstatic, hvisibility, hoptional⟩ := PropertyShape.mk.inj h
  unfold propertyBlock
  rw [hstatic, hvisibility, hoptional]
  exact partBlock_same _ _ _ _ _ _ _ (.refl _)

theorem signatureBox_same (label : String) (t t' : Text) : SameMarks [signatureBox label t] [signatureBox label t'] :=
  .classed "div" "signature" (.cons (.refl _) (.text _ _))

/-- A box around blocks, where there are any. -/
theorem boxed_same (cls : String) (head : Markup) {blocks blocks' : List Markup} (hlength : blocks.length = blocks'.length)
    (h : SameMarks blocks blocks') :
    SameMarks (if blocks.isEmpty then [] else [classed "div" cls (head :: blocks)])
      (if blocks'.isEmpty then [] else [classed "div" cls (head :: blocks')]) := by
  cases blocks <;> cases blocks'
  · exact .refl []
  · cases hlength
  · cases hlength
  · exact .classed "div" cls (.cons (.refl [head]) h)

/-- A box around one block for each of some items. -/
theorem boxed_map_same {α β γ : Type} (cls : String) (head : Markup) {f : α → Markup} {g : β → Markup} {kind : α → γ}
    {kind' : β → γ} (hkind : ∀ a b, kind a = kind' b → SameMarks [f a] [g b]) {l : List α} {l' : List β}
    (h : l.map kind = l'.map kind') :
    SameMarks (if (l.map f).isEmpty then [] else [classed "div" cls (head :: l.map f)])
      (if (l'.map g).isEmpty then [] else [classed "div" cls (head :: l'.map g)]) := by
  have hlength : l.length = l'.length := by simpa using congrArg List.length h
  exact boxed_same cls head (by rw [List.length_map, List.length_map, hlength]) (.map hkind h)

theorem proseSection_same (heading : String) {t t' : Option Text} (h : (present? t).isSome = (present? t').isSome) :
    SameMarks (proseSection heading t) (proseSection heading t') := by
  refine boxed_same "section" _ ?_ (.toList (fun _ _ => .plain "p" (.text _ _)) h)
  rw [List.length_map, List.length_map, Option.length_toList, Option.length_toList, h]

/-- An identifier has the marks of its anchor. -/
theorem marks_identifier (anchor name : Text) : marks (anchor ++ '-' :: escape name) = marks anchor := by
  rw [marks_append, marks_cons, marks_escape, List.append_nil]
  exact List.append_nil _

/-- **A function has the marks of its shape and of the anchor.** -/
theorem functionBlock_same (unknown unknown' : Text) {anchor anchor' : Text} (ha : marks anchor = marks anchor')
    (f g : DocumentedFunction) (h : f.shape = g.shape) :
    SameMarks [functionBlock unknown anchor f] [functionBlock unknown' anchor' g] := by
  obtain ⟨hparameters, hasync, hgenerator, hstatic, hvisibility, hreturns, hexample⟩ := FunctionShape.mk.inj h
  have hbadges : badges f.decl = badges g.decl := by rw [badges, badges, hasync, hgenerator, hstatic, hvisibility]
  refine .element "div" ?_ (.append (.append (.append ?_ ?_) ?_) ?_)
  · simp only [List.map_cons, List.map_nil, marks_identifier, ha]
  · refine .cons (.plain "h3" (.append ?_ (.text _ _))) (.cons (.plain "p" (.text _ _)) (signatureBox_same _ _ _))
    rw [hbadges]
    exact .refl _
  · exact boxed_map_same "parameters" _ (fun p p' hp => parameterBlock_same _ _ _ _ p p' hp) hparameters
  · rw [hreturns]
    cases returnsValue g.decl with
    | false => exact .refl []
    | true =>
      refine .classed "div" "returns" (.cons (.refl _) (.classed "div" "param" ?_))
      exact .cons (.classed "span" "param-type" (.text _ _)) (.plain "div" (.text _ _))
  · cases hf : present? f.example? <;> cases hg : present? g.example? <;> rw [hf, hg] at hexample
    · exact .refl []
    · cases hexample
    · cases hexample
    · exact .classed "div" "example" (.cons (.refl _) (.plain "pre" (.plain "code" (.text _ _))))

/-! ## Types -/

/-- What stands in the block of a type above its methods. -/
def typeFront (unknown : Text) (t : DocumentedType) : List Markup :=
  let d := t.decl
  let kind := if d.kind = "class".toList then [] else [plain "p" [plain "code" [text d.kind]]]
  let parent := match present? d.superType with
    | some name => [plain "p" [plain "strong" [literal "Extends:"], literal " ", plain "code" [text name]]]
    | none => []
  let constructor := match t.constructor? with
    | some c => [signatureBox "Constructor" (signature unknown c.decl)]
    | none => []
  [plain "h3" [text d.name]] ++ kind ++ [plain "p" [text (described t.description)]] ++ parent ++ constructor ++
    group "properties" "Properties" (d.properties.map (propertyBlock unknown t.properties))

/-- The block of a method of a type. -/
def methodBlock (unknown owner : Text) (m : DocumentedFunction) : Markup :=
  classed "div" "method" [functionBlock unknown ("method-".toList ++ owner) m]

theorem typeBlock_eq (unknown : Text) (t : DocumentedType) :
    typeBlock unknown t = element "div" [("class", "class".toList), ("id", "class-".toList ++ escape t.decl.name)]
      (typeFront unknown t ++ group "methods" "Methods" (t.methods.map (methodBlock unknown t.decl.name))) := rfl

theorem typeFront_same (unknown unknown' : Text) (t t' : DocumentedType) (h : t.shape = t'.shape) :
    SameMarks (typeFront unknown t) (typeFront unknown' t') := by
  obtain ⟨hkind, hsuper, hconstructor, hproperties, -⟩ := TypeShape.mk.inj h
  rw [decide_eq_decide] at hkind
  refine .append (.append (.append (.append (.append (.plain "h3" (.text _ _)) ?_) (.plain "p" (.text _ _))) ?_) ?_) ?_
  · by_cases hclass : t.decl.kind = "class".toList
    · rw [if_pos hclass, if_pos (hkind.mp hclass)]
      exact .refl []
    · rw [if_neg hclass, if_neg (hkind.not.mp hclass)]
      exact .plain "p" (.plain "code" (.text _ _))
  · cases ht : present? t.decl.superType <;> cases ht' : present? t'.decl.superType <;> rw [ht, ht'] at hsuper
    · exact .refl []
    · cases hsuper
    · cases hsuper
    · exact .plain "p" (.cons (.refl _) (.cons (.refl [literal " "]) (.plain "code" (.text _ _))))
  · cases ht : t.constructor? <;> cases ht' : t'.constructor? <;> rw [ht, ht'] at hconstructor
    · exact .refl []
    · cases hconstructor
    · cases hconstructor
    · exact signatureBox_same _ _ _
  · exact boxed_map_same "properties" _ (fun p p' hp => propertyBlock_same _ _ _ _ p p' hp) hproperties

/-- The marks that the name of a type leaves in the blocks of its methods. -/
def ownerMarks (t : DocumentedType) : Text := if t.methods = [] then [] else marks t.decl.name

/-- **A type has the marks of its shape, and in each method those of its name.** -/
theorem typeBlock_same (unknown unknown' : Text) (t t' : DocumentedType) (h : t.shape = t'.shape)
    (howner : ownerMarks t = ownerMarks t') : SameMarks [typeBlock unknown t] [typeBlock unknown' t'] := by
  obtain ⟨-, -, -, -, hmethods⟩ := TypeShape.mk.inj h
  rw [typeBlock_eq, typeBlock_eq]
  refine .element "div" ?_ (.append (typeFront_same unknown unknown' t t' h) ?_)
  · simp only [List.map_cons, List.map_nil, marks_append, marks_escape]
  · by_cases hnone : t.methods = []
    · have hnone' : t'.methods = [] := by simpa [hnone] using hmethods
      rw [hnone, hnone']
      exact .refl _
    · have hnone' : t'.methods ≠ [] := fun he => hnone (by simpa [he] using hmethods)
      have hname : marks t.decl.name = marks t'.decl.name := by
        rwa [ownerMarks, if_neg hnone, ownerMarks, if_neg hnone'] at howner
      have hanchor : marks ("method-".toList ++ t.decl.name) = marks ("method-".toList ++ t'.decl.name) := by
        rw [marks_append, marks_append, hname]
      exact boxed_map_same "methods" _
        (fun m m' hm => .classed "div" "method" (functionBlock_same _ _ hanchor m m' hm)) hmethods

/-! ## Exports and contents -/

theorem exportBlock_same (e e' : DocumentedExport) (h : e.shape = e'.shape) :
    SameMarks [exportBlock e] [exportBlock e'] := by
  obtain ⟨hdescription, hdefinition⟩ := ExportShape.mk.inj h
  refine .element "div" ?_ (.append (.append ?_ (.toList (fun _ _ => .plain "p" (.text _ _)) hdescription))
    (.toList (fun _ _ => signatureBox_same _ _ _) hdefinition))
  · simp only [List.map_cons, List.map_nil, marks_append, marks_escape]
  · refine .cons (.plain "h3" (.text _ _)) (.plain "p" ?_)
    exact .cons (.refl _) (.cons (.refl [literal " "]) (.plain "code" (.text _ _)))

theorem linkGroup_same (heading anchor suffix : String) {names names' : List Text}
    (h : names.length = names'.length) :
    SameMarks (linkGroup heading anchor suffix names) (linkGroup heading anchor suffix names') ∧
      (linkGroup heading anchor suffix names).length = (linkGroup heading anchor suffix names').length := by
  have hlinks : SameMarks (names.map fun name => plain "li"
      [element "a" [("href", '#' :: (anchor.toList ++ '-' :: escape name))] [text (name ++ suffix.toList)]])
      (names'.map fun name => plain "li"
        [element "a" [("href", '#' :: (anchor.toList ++ '-' :: escape name))] [text (name ++ suffix.toList)]]) := by
    have hcount : (names.map fun _ => ()) = names'.map fun _ => () := by simp [List.map_const', h]
    refine .map (fun name name' _ => ?_) hcount
    refine .plain "li" (.element "a" ?_ (.text _ _))
    have hlink : ∀ name, marks ('#' :: (anchor.toList ++ '-' :: escape name)) = marks ('#' :: anchor.toList) :=
      marks_identifier ('#' :: anchor.toList)
    simp only [List.map_cons, List.map_nil, hlink]
  cases names <;> cases names'
  · exact ⟨.refl [], rfl⟩
  · cases h
  · cases h
  · exact ⟨.cons (.refl _) (.plain "ul" hlinks), rfl⟩

theorem contents_same (d e : Document) (h : d.shape = e.shape) : SameMarks (contents d) (contents e) := by
  obtain ⟨hfunctions, htypes, hexports, -⟩ := DocumentShape.mk.inj h
  have hnames : ∀ {α β γ δ : Type} {l : List α} {l' : List β} {f : α → γ} {f' : β → γ} (g : α → δ) (g' : β → δ),
      l.map f = l'.map f' → (l.map g).length = (l'.map g').length := fun g g' hl => by
    simpa using congrArg List.length hl
  obtain ⟨hf, hf'⟩ := linkGroup_same "Functions" "func" "()" (hnames (·.decl.name) (·.decl.name) hfunctions)
  obtain ⟨ht, ht'⟩ := linkGroup_same "Classes" "class" "" (hnames (·.decl.name) (·.decl.name) htypes)
  obtain ⟨he, he'⟩ := linkGroup_same "Exports" "export" "" (hnames (·.decl.name) (·.decl.name) hexports)
  exact boxed_same "toc" _ (by simp only [List.length_append, hf', ht', he']) (.append (.append hf ht) he)

theorem description_same (d e : Document) (h : (present? d.proseError).isSome = (present? e.proseError).isSome) :
    SameMarks (description d) (description e) :=
  .cons (.plain "p" (.text _ _))
    (.toList (fun _ _ => .classed "p" "unavailable" (.cons (.refl _) (.text _ _))) h)

/-! ## The marks of owners -/

/-- The type without a name. -/
def nameless (t : DocumentedType) : DocumentedType := { t with decl := { t.decl with name := [] } }

theorem ownerMarks_nameless (t : DocumentedType) : ownerMarks (nameless t) = [] := by
  unfold ownerMarks
  split <;> rfl

theorem weight_functionBlock (unknown anchor : Text) (f : DocumentedFunction) :
    weight [functionBlock unknown anchor f] = weight [functionBlock unknown [] f] + (marks anchor).length := by
  obtain ⟨children, hchildren⟩ : ∃ children, ∀ anchor, functionBlock unknown anchor f =
      element "div" [("class", "function".toList), ("id", anchor ++ '-' :: escape f.decl.name)] children :=
    ⟨_, fun _ => rfl⟩
  have htag : ∀ v : Text, weight [element "div" [("class", "function".toList), ("id", v)] []] =
      weight [element "div" [("class", "function".toList), ("id", [])] []] + (marks v).length :=
    weight_attribute "div" [("class", "function".toList)] "id"
  rw [hchildren, hchildren, weight_element, weight_element _ _ children, htag, htag ([] ++ _), marks_identifier,
    marks_identifier]
  simp only [marks_nil, List.length_nil]
  omega

/-- The name of a type counts in each of its methods. -/
theorem weight_methodBlocks (unknown owner : Text) (methods : List DocumentedFunction) :
    weight (methods.map (methodBlock unknown owner)) =
      weight (methods.map (methodBlock unknown [])) + (methods.flatMap fun _ => marks owner).length := by
  induction methods with
  | nil => rfl
  | cons m methods ih =>
    have hm : weight [methodBlock unknown owner m] = weight [methodBlock unknown [] m] + (marks owner).length := by
      unfold methodBlock classed
      rw [weight_element, weight_element _ _ [functionBlock unknown ("method-".toList ++ []) m],
        weight_functionBlock unknown (_ ++ owner), weight_functionBlock unknown (_ ++ []), marks_append, marks_append,
        List.length_append, List.length_append]
      simp only [marks_nil, List.length_nil]
      omega
    rw [List.map_cons, List.map_cons, weight_cons, weight_cons (methodBlock unknown [] m), hm, ih, List.flatMap_cons,
      List.length_append]
    omega

/-- All marks that the name of a type leaves in the blocks of its methods. -/
def strayMarks (t : DocumentedType) : Text := t.methods.flatMap fun _ => marks t.decl.name

/-- Blocks in a box count beside it. -/
theorem weight_boxed (cls : String) (head : Markup) (blocks : List Markup) (hne : blocks ≠ []) :
    weight (if blocks.isEmpty then [] else [classed "div" cls (head :: blocks)]) =
      weight [classed "div" cls [head]] + weight blocks := by
  cases blocks with
  | nil => exact absurd rfl hne
  | cons m ms =>
    have hbox : (if (m :: ms).isEmpty then [] else [classed "div" cls (head :: m :: ms)]) =
        [element "div" [("class", cls.toList)] (head :: m :: ms)] := rfl
    rw [hbox, classed, weight_element, weight_element _ _ [head], weight_cons head]
    omega

/-- **The marks of a type are those that it has without a name and, in each method, those of its name.** -/
theorem weight_typeBlock (unknown : Text) (t : DocumentedType) :
    weight [typeBlock unknown t] = weight [typeBlock unknown (nameless t)] + (strayMarks t).length := by
  have hfront : weight (typeFront unknown t) = weight (typeFront unknown (nameless t)) :=
    (typeFront_same unknown unknown t (nameless t) rfl).weight_eq
  have htag : ∀ v : Text, weight [element "div" [("class", "class".toList), ("id", "class-".toList ++ escape v)] []] =
      weight [element "div" [("class", "class".toList), ("id", "class-".toList ++ escape [])] []] := fun v =>
    (SameMarks.element "div" (by simp only [List.map_cons, List.map_nil, marks_append, marks_escape])
      (.refl [])).weight_eq
  have hmethods : weight (group "methods" "Methods" (t.methods.map (methodBlock unknown t.decl.name))) =
      weight (group "methods" "Methods" (t.methods.map (methodBlock unknown []))) + (strayMarks t).length := by
    unfold strayMarks
    by_cases hnone : t.methods = []
    · simp [hnone]
    · have hne : ∀ owner, t.methods.map (methodBlock unknown owner) ≠ [] := fun owner => by simpa using hnone
      unfold group
      rw [weight_boxed _ _ _ (hne _), weight_boxed _ _ _ (hne _), weight_methodBlocks, Nat.add_assoc]
  rw [typeBlock_eq, typeBlock_eq, weight_element, weight_element _ _ (typeFront unknown (nameless t) ++ _),
    weight_append, weight_append, htag, htag (nameless t).decl.name, hfront, hmethods]
  change _ = _ + (_ + weight (group "methods" "Methods" (t.methods.map (methodBlock unknown [])))) + _
  omega

end Html

end SourceDoc
