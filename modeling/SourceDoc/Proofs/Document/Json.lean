import SourceDoc.Document.Json
import SourceDoc.Proofs.Outline.Json

/-!
# Documents read back from JSON

A document is read back from its object and its outline, which is written apart from it:

    Document.ofJson d.outline d.toJson = .ok d                                     (document_ofJson_toJson)

The value that is written is plain where the tables of prose have distinct keys (`WellKeyed`).
-/

namespace SourceDoc

open Json

/-! ## Tables of texts -/

theorem isPlain_ofTexts (pairs : List (Text × Text)) (h : (pairs.map Prod.fst).Nodup) : (ofTexts pairs).IsPlain := by
  rw [ofTexts, isPlain_object_iff]
  refine ⟨by simpa [List.map_map, Function.comp_def] using h, fun m hm => ?_⟩
  obtain ⟨x, -, rfl⟩ := List.mem_map.mp hm
  simp

@[simp] theorem ints_ofTexts (pairs : List (Text × Text)) : (ofTexts pairs).ints = [] := by
  simp [ofTexts, intsOfMembers_eq, List.flatMap_map]

/-- A table of texts is read back, empty or not. -/
theorem textPairs_ofTexts (pairs : List (Text × Text)) : textPairs (ofTexts pairs) = .ok pairs := by
  have hmap : ∀ ps : List (Text × Text),
      (ps.map fun p => (p.1, Json.text p.2)).mapM (fun m => (asText m.2).map (m.1, ·)) = .ok ps := by
    intro ps
    induction ps with
    | nil => rfl
    | cons p ps ih =>
      rw [List.map_cons, List.mapM_cons, ih]
      rfl
  cases pairs with
  | nil => rfl
  | cons p ps => exact hmap (p :: ps)

theorem textsAt_of {v : Json} {name : String} {pairs : List (Text × Text)}
    (h : optional name v = .ok (some (ofTexts pairs))) : textsAt name v = .ok pairs := by
  unfold textsAt optionalD
  rw [h]
  exact textPairs_ofTexts pairs

/-! ## Distinct keys and whole numbers -/

/-- No parameter is described twice. -/
def DocumentedFunction.WellKeyed (f : DocumentedFunction) : Prop := (f.parameters.map Prod.fst).Nodup

/-- No property is described twice, and no parameter of a method. -/
structure DocumentedType.WellKeyed (t : DocumentedType) : Prop where
  properties : (t.properties.map Prod.fst).Nodup
  methods : ∀ m ∈ t.methods, m.WellKeyed
  constructors : ∀ c ∈ t.constructor?, c.WellKeyed

/-- All tables of prose in a document have distinct keys. -/
structure Document.WellKeyed (d : Document) : Prop where
  functions : ∀ f ∈ d.functions, f.WellKeyed
  types : ∀ t ∈ d.types, t.WellKeyed

def DocumentedFunction.numbers (f : DocumentedFunction) : List Int := f.decl.numbers

def DocumentedType.numbers (t : DocumentedType) : List Int :=
  t.decl.numbers ++ t.methods.flatMap DocumentedFunction.numbers ++
    t.constructor?.toList.flatMap DocumentedFunction.numbers

def DocumentedExport.numbers (e : DocumentedExport) : List Int := e.decl.numbers

/-- The lines of what is documented. -/
def Document.partNumbers (d : Document) : List Int :=
  d.functions.flatMap DocumentedFunction.numbers ++ d.types.flatMap DocumentedType.numbers ++
    d.exports.flatMap DocumentedExport.numbers

/-! ## What is written -/

theorem documentedFunction_isPlain (f : DocumentedFunction) (h : f.WellKeyed) : f.toJson.IsPlain := by
  refine isPlain_record _ (by simp [FunctionDecl.members]) fun m hm => ?_
  rcases List.mem_append.mp hm with hm | hm
  · exact function_members_isPlain f.decl m hm
  · have hp := isPlain_ofTexts f.parameters h
    simp only [List.mem_cons, List.not_mem_nil, or_false] at hm
    rcases hm with rfl | rfl | rfl | rfl
    all_goals first | exact hp | exact isPlain_ofOption _

theorem documentedFunction_ints (f : DocumentedFunction) : f.toJson.ints = f.numbers := by
  rw [DocumentedFunction.toJson, ints_record, List.flatMap_append, function_members_ints]
  simp [DocumentedFunction.numbers]

theorem documentedType_isPlain (t : DocumentedType) (h : t.WellKeyed) : t.toJson.IsPlain := by
  have hm : ∀ m ∈ t.methods, m.toJson.IsPlain := fun m hm => documentedFunction_isPlain m (h.methods m hm)
  have hc : ((t.constructor?.map DocumentedFunction.toJson).getD .null).IsPlain :=
    isPlain_getD_map DocumentedFunction.toJson fun c hc => documentedFunction_isPlain c (h.constructors c hc)
  exact isPlain_record _ (by simp)
    (by simpa using ⟨type_isPlain t.decl, hm, hc, isPlain_ofTexts t.properties h.properties⟩)

theorem documentedType_ints (t : DocumentedType) : t.toJson.ints = t.numbers := by
  rw [DocumentedType.toJson, ints_record]
  simp [DocumentedType.numbers, intsOfItems_map, ints_getD_map, documentedFunction_ints, type_ints]

theorem documentedExport_isPlain (e : DocumentedExport) : e.toJson.IsPlain := by
  refine isPlain_record _ (by simp [Export.members]) fun m hm => ?_
  rcases List.mem_append.mp hm with hm | hm
  · exact export_members_isPlain e.decl m hm
  · rw [List.mem_singleton] at hm
    subst hm
    exact isPlain_ofOption _

theorem documentedExport_ints (e : DocumentedExport) : e.toJson.ints = e.numbers := by
  rw [DocumentedExport.toJson, ints_record, List.flatMap_append, export_members_ints]
  simp [DocumentedExport.numbers]

/-- **The value for a document is plain,** if no key is given twice. -/
theorem document_isPlain (d : Document) (h : d.WellKeyed) : d.toJson.IsPlain := by
  have hf : ∀ f ∈ d.functions, f.toJson.IsPlain := fun f hf => documentedFunction_isPlain f (h.functions f hf)
  have ht : ∀ t ∈ d.types, t.toJson.IsPlain := fun t ht => documentedType_isPlain t (h.types t ht)
  exact isPlain_record _ (by simp) (by simpa [documentedExport_isPlain] using ⟨hf, ht⟩)

theorem document_ints (d : Document) : d.toJson.ints = d.partNumbers := by
  rw [Document.toJson, ints_record]
  simp [Document.partNumbers, intsOfItems_map, documentedFunction_ints, documentedType_ints, documentedExport_ints]

/-! ## What is read -/

theorem documentedFunction_ofJson_toJson (f : DocumentedFunction) : DocumentedFunction.ofJson f.toJson = .ok f := by
  have hd : f.toJson.Has f.decl.members :=
    has_record (by simp [FunctionDecl.members]) (List.subset_append_left _ _)
  have hp : f.toJson.Has [("description", ofOption f.description), ("parameterDocs", ofTexts f.parameters),
      ("returns", ofOption f.returns), ("example", ofOption f.example?)] :=
    has_record (by simp [FunctionDecl.members]) (List.subset_append_right _ _)
  have ho := hp.optional
  simp only [List.forall_mem_cons] at ho
  obtain ⟨hdescription, hparameters, hreturns, hexample, -⟩ := ho
  unfold DocumentedFunction.ofJson
  rw [function_ofJson f.decl _ hd, optionalTextAt_of hdescription, textsAt_of hparameters, optionalTextAt_of hreturns,
    optionalTextAt_of hexample]
  rfl

theorem documentedType_ofJson_toJson (t : DocumentedType) : DocumentedType.ofJson t.toJson = .ok t := by
  have h : t.toJson.Has _ := has_record (by simp) (List.Subset.refl _)
  have hr := h.required
  have ho := h.optional
  simp only [List.forall_mem_cons] at hr ho
  obtain ⟨-, hdescription, hmethods, hconstructor, hproperties, -⟩ := ho
  unfold DocumentedType.ofJson
  rw [hconstructor, hr.1, optionalTextAt_of hdescription,
    itemsAt_of hmethods fun m _ => documentedFunction_ofJson_toJson m,
    recordAt_of hconstructor (fun c => isTruthy_record _ _) fun c _ => documentedFunction_ofJson_toJson c,
    textsAt_of hproperties]
  show (do
    let decl ← TypeDecl.ofJson t.decl.toJson
    Except.ok { t with decl }) = _
  rw [type_ofJson_toJson]
  rfl

theorem documentedExport_ofJson_toJson (e : DocumentedExport) : DocumentedExport.ofJson e.toJson = .ok e := by
  have hd : e.toJson.Has e.decl.members := has_record (by simp [Export.members]) (List.subset_append_left _ _)
  have hp : e.toJson.Has [("description", ofOption e.description)] :=
    has_record (by simp [Export.members]) (List.subset_append_right _ _)
  have ho := hp.optional
  simp only [List.forall_mem_cons] at ho
  unfold DocumentedExport.ofJson
  rw [export_ofJson e.decl _ hd, optionalTextAt_of ho.1]
  rfl

/-- **A document is read back from its outline and its object.** -/
theorem document_ofJson_toJson (d : Document) : Document.ofJson d.outline d.toJson = .ok d := by
  have h : d.toJson.Has _ := has_record (by simp) (List.Subset.refl _)
  have hr := h.required
  have ho := h.optional
  simp only [List.forall_mem_cons] at hr ho
  obtain ⟨-, hdescription, hfunctions, htypes, hexports, husage, hnotes, herror, -⟩ := ho
  unfold Document.ofJson
  rw [textAt_of hr.1, optionalTextAt_of hdescription,
    itemsAt_of hfunctions fun f _ => documentedFunction_ofJson_toJson f,
    itemsAt_of htypes fun t _ => documentedType_ofJson_toJson t,
    itemsAt_of hexports fun e _ => documentedExport_ofJson_toJson e,
    optionalTextAt_of husage, optionalTextAt_of hnotes, optionalTextAt_of herror]
  rfl

end SourceDoc
