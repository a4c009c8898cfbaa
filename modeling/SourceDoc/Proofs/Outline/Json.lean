import SourceDoc.Proofs.Json.Record

/-!
# Outlines read back from JSON

Every record of an outline is read back from the object that is written for it:

    Outline.ofJson o.toJson = .ok o                                                 (outline_ofJson_toJson)

The values that are written are plain, and their whole numbers are those of the records (`numbers`).
-/

namespace SourceDoc

open Json

/-! ## Whole numbers -/

/-- The lines of a function. -/
def FunctionDecl.numbers (f : FunctionDecl) : List Int := [f.startLine, f.endLine]

/-- The lines of a type, after those of its methods and its constructor. -/
def TypeDecl.numbers (t : TypeDecl) : List Int :=
  t.methods.flatMap FunctionDecl.numbers ++ t.constructor?.toList.flatMap FunctionDecl.numbers ++
    [t.startLine, t.endLine]

def Decl.numbers : Decl → List Int
  | .function f => f.numbers
  | .type t => t.numbers

def Import.numbers (i : Import) : List Int := [i.startLine]

def Export.numbers (e : Export) : List Int := [e.startLine]

/-- The lines of what is declared, imported and exported. -/
def Outline.numbers (o : Outline) : List Int :=
  o.decls.flatMap Decl.numbers ++ o.imports.flatMap Import.numbers ++ o.exports.flatMap Export.numbers

/-! ## What is written -/

theorem parameter_isPlain (p : Parameter) : p.toJson.IsPlain :=
  isPlain_record _ (by simp) (by simp)

theorem parameter_ints (p : Parameter) : p.toJson.ints = [] := by
  rw [Parameter.toJson, ints_record]
  simp

theorem function_members_isPlain (f : FunctionDecl) : ∀ m ∈ f.members, m.2.IsPlain := by
  simp [FunctionDecl.members, parameter_isPlain]

theorem function_members_ints (f : FunctionDecl) : (f.members.flatMap fun m => m.2.ints) = f.numbers := by
  simp [FunctionDecl.members, FunctionDecl.numbers, intsOfItems_map, parameter_ints]

theorem function_isPlain (f : FunctionDecl) : f.toJson.IsPlain :=
  isPlain_record _ (by simp [FunctionDecl.members]) (function_members_isPlain f)

theorem function_ints (f : FunctionDecl) : f.toJson.ints = f.numbers := by
  rw [FunctionDecl.toJson, ints_record, function_members_ints]

theorem type_members_isPlain (t : TypeDecl) : ∀ m ∈ t.members, m.2.IsPlain := by
  have hp : ∀ p : Property, p.toJson.IsPlain := fun p => isPlain_record _ (by simp) (by simp)
  have hc : ((t.constructor?.map FunctionDecl.toJson).getD .null).IsPlain :=
    isPlain_getD_map FunctionDecl.toJson fun c _ => function_isPlain c
  simp [TypeDecl.members, function_isPlain, hp, hc]

theorem type_members_ints (t : TypeDecl) : (t.members.flatMap fun m => m.2.ints) = t.numbers := by
  have hp : ∀ p : Property, p.toJson.ints = [] := by
    intro p
    rw [Property.toJson, ints_record]
    simp
  simp [TypeDecl.members, TypeDecl.numbers, intsOfItems_map, ints_getD_map, function_ints, hp]

theorem type_isPlain (t : TypeDecl) : t.toJson.IsPlain :=
  isPlain_record _ (by simp [TypeDecl.members]) (type_members_isPlain t)

theorem type_ints (t : TypeDecl) : t.toJson.ints = t.numbers := by
  rw [TypeDecl.toJson, ints_record, type_members_ints]

theorem decl_isPlain (d : Decl) : d.toJson.IsPlain := by
  cases d with
  | function f =>
    refine isPlain_record _ (by simp [FunctionDecl.members]) fun m hm => ?_
    rcases List.mem_cons.mp hm with rfl | hm
    · simp [ofString]
    · exact function_members_isPlain f m hm
  | type t =>
    refine isPlain_record _ (by simp [TypeDecl.members]) fun m hm => ?_
    rcases List.mem_cons.mp hm with rfl | hm
    · simp [ofString]
    · exact type_members_isPlain t m hm

theorem decl_ints (d : Decl) : d.toJson.ints = d.numbers := by
  cases d with
  | function f =>
    rw [Decl.toJson, ints_record, List.flatMap_cons, function_members_ints]
    simp [ofString, Decl.numbers]
  | type t =>
    rw [Decl.toJson, ints_record, List.flatMap_cons, type_members_ints]
    simp [ofString, Decl.numbers]

theorem import_isPlain (i : Import) : i.toJson.IsPlain := by
  have hb : ∀ b : Binding, b.toJson.IsPlain := fun b => isPlain_record _ (by simp) (by simp)
  exact isPlain_record _ (by simp) (by simp [hb])

theorem import_ints (i : Import) : i.toJson.ints = i.numbers := by
  have hb : ∀ b : Binding, b.toJson.ints = [] := by
    intro b
    rw [Binding.toJson, ints_record]
    simp
  rw [Import.toJson, ints_record]
  simp [intsOfItems_map, hb, Import.numbers]

theorem export_members_isPlain (e : Export) : ∀ m ∈ e.members, m.2.IsPlain := by
  simp [Export.members]

theorem export_members_ints (e : Export) : (e.members.flatMap fun m => m.2.ints) = e.numbers := by
  simp [Export.members, Export.numbers]

theorem export_ints (e : Export) : e.toJson.ints = e.numbers := by
  rw [Export.toJson, ints_record, export_members_ints]

theorem structure_members_isPlain (o : Outline) : ∀ m ∈ o.structureMembers, m.2.IsPlain := by
  have he : ∀ e : Export, e.toJson.IsPlain := fun e =>
    isPlain_record _ (by simp [Export.members]) (export_members_isPlain e)
  simp [Outline.structureMembers, decl_isPlain, import_isPlain, he]

theorem structure_isPlain (o : Outline) : (Json.record o.structureMembers).IsPlain :=
  isPlain_record _ (by simp [Outline.structureMembers]) (structure_members_isPlain o)

theorem structure_members_ints (o : Outline) : (o.structureMembers.flatMap fun m => m.2.ints) = o.numbers := by
  simp [Outline.structureMembers, Outline.numbers, intsOfItems_map, decl_ints, import_ints, export_ints]

/-- **The value for an outline is plain,** and its whole numbers are the lines of the outline. -/
theorem outline_isPlain (o : Outline) : o.toJson.IsPlain := by
  have hstructure := structure_members_isPlain o
  refine isPlain_record _ (by simp [Outline.members, Outline.structureMembers]) ?_
  simp only [Outline.members, List.cons_append, List.forall_mem_cons, List.forall_mem_append]
  exact ⟨by simp, by simp, hstructure, by simp⟩

theorem outline_ints (o : Outline) : o.toJson.ints = o.numbers := by
  rw [Outline.toJson, ints_record, List.flatMap_append]
  simp [Outline.members, structure_members_ints]

/-! ## What is read -/

theorem parameter_ofJson_toJson (p : Parameter) : Parameter.ofJson p.toJson = .ok p := by
  have h : p.toJson.Has _ := has_record (by simp) (List.Subset.refl _)
  have hr := h.required
  have ho := h.optional
  simp only [List.forall_mem_cons] at hr ho
  obtain ⟨-, htype, hinitial, hoptional, -⟩ := ho
  unfold Parameter.ofJson
  rw [textAt_of hr.1, optionalTextAt_of htype, optionalTextAt_of hinitial, flagAt_of hoptional]
  rfl

/-- A function is read from its members, whatever else the object has. -/
theorem function_ofJson (f : FunctionDecl) (v : Json) (h : v.Has f.members) : FunctionDecl.ofJson v = .ok f := by
  have hr := h.required
  have ho := h.optional
  simp only [FunctionDecl.members, List.forall_mem_cons] at hr ho
  obtain ⟨-, hparameters, hreturn, hasync, hgenerator, hstatic, hvisibility, hcomments, hstart, hstop, hoptional,
    hreceiver, -⟩ := ho
  unfold FunctionDecl.ofJson
  rw [textAt_of hr.1, itemsAt_of hparameters fun p _ => parameter_ofJson_toJson p,
    optionalTextAt_of hreturn, flagAt_of hasync, flagAt_of hgenerator, flagAt_of hstatic,
    optionalTextAt_of hvisibility, optionalTextAt_of hcomments, intAt_of hstart, intAt_of hstop,
    flagAt_of hoptional, textAtD_of [] hreceiver]
  rfl

theorem function_ofJson_toJson (f : FunctionDecl) : FunctionDecl.ofJson f.toJson = .ok f :=
  function_ofJson f f.toJson (has_record (by simp [FunctionDecl.members]) (List.Subset.refl _))

theorem property_ofJson_toJson (p : Property) : Property.ofJson p.toJson = .ok p := by
  have h : p.toJson.Has _ := has_record (by simp) (List.Subset.refl _)
  have hr := h.required
  have ho := h.optional
  simp only [List.forall_mem_cons] at hr ho
  obtain ⟨-, htype, hstatic, hvisibility, hoptional, hcomments, -⟩ := ho
  unfold Property.ofJson
  rw [textAt_of hr.1, optionalTextAt_of htype, flagAt_of hstatic, optionalTextAt_of hvisibility,
    flagAt_of hoptional, optionalTextAt_of hcomments]
  rfl

/-- A type is read from its members, whatever else the object has. -/
theorem type_ofJson (t : TypeDecl) (v : Json) (h : v.Has t.members) : TypeDecl.ofJson v = .ok t := by
  have hr := h.required
  have ho := h.optional
  simp only [TypeDecl.members, List.forall_mem_cons] at hr ho
  obtain ⟨-, hkind, hmethods, hproperties, hconstructor, hsuper, hinterface, hstart, hstop, hcomments, -⟩ := ho
  unfold TypeDecl.ofJson
  rw [hconstructor, textAt_of hr.1, itemsAt_of hmethods fun m _ => function_ofJson_toJson m,
    itemsAt_of hproperties fun p _ => property_ofJson_toJson p,
    recordAt_of hconstructor (fun c => isTruthy_record _ _) fun c _ => function_ofJson_toJson c,
    optionalTextAt_of hsuper, flagAt_of hinterface, intAt_of hstart, intAt_of hstop,
    optionalTextAt_of hcomments, textAtD_of _ hkind]
  rfl

theorem type_ofJson_toJson (t : TypeDecl) : TypeDecl.ofJson t.toJson = .ok t :=
  type_ofJson t t.toJson (has_record (by simp [TypeDecl.members]) (List.Subset.refl _))

/-- The word in front of the members of a symbol says which kind it is. -/
theorem decl_ofJson_toJson (d : Decl) : Decl.ofJson d.toJson = .ok d := by
  cases d with
  | function f =>
    have h : (Decl.function f).toJson.Has (("symbol", .ofString "function") :: f.members) :=
      has_record (by simp [FunctionDecl.members]) (List.Subset.refl _)
    have hf : (Decl.function f).toJson.Has f.members :=
      has_record (by simp [FunctionDecl.members]) (List.subset_cons_self _ _)
    unfold Decl.ofJson
    rw [h.optional _ List.mem_cons_self, function_ofJson f _ hf]
    rfl
  | type t =>
    have h : (Decl.type t).toJson.Has (("symbol", .ofString "type") :: t.members) :=
      has_record (by simp [TypeDecl.members]) (List.Subset.refl _)
    have ht : (Decl.type t).toJson.Has t.members :=
      has_record (by simp [TypeDecl.members]) (List.subset_cons_self _ _)
    unfold Decl.ofJson
    rw [h.optional _ List.mem_cons_self, type_ofJson t _ ht]
    rfl

theorem binding_ofJson_toJson (b : Binding) : Binding.ofJson b.toJson = .ok b := by
  have h : b.toJson.Has _ := has_record (by simp) (List.Subset.refl _)
  have hr := h.required
  have ho := h.optional
  simp only [List.forall_mem_cons] at hr ho
  obtain ⟨-, hkind, himported, -⟩ := ho
  unfold Binding.ofJson
  rw [textAt_of hr.1, textAtD_of _ hkind, optionalTextAt_of himported]
  rfl

theorem import_ofJson_toJson (i : Import) : Import.ofJson i.toJson = .ok i := by
  have h : i.toJson.Has _ := has_record (by simp) (List.Subset.refl _)
  have hr := h.required
  have ho := h.optional
  simp only [List.forall_mem_cons] at hr ho
  obtain ⟨-, hbindings, hstart, -⟩ := ho
  unfold Import.ofJson
  rw [textAt_of hr.1, itemsAt_of hbindings fun b _ => binding_ofJson_toJson b, intAt_of hstart]
  rfl

/-- An export is read from its members, whatever else the object has. -/
theorem export_ofJson (e : Export) (v : Json) (h : v.Has e.members) : Export.ofJson v = .ok e := by
  have hr := h.required
  have ho := h.optional
  simp only [Export.members, List.forall_mem_cons] at hr ho
  obtain ⟨-, hkind, hdefinition, hstart, -⟩ := ho
  unfold Export.ofJson
  rw [textAt_of hr.1, textAtD_of _ hkind, optionalTextAt_of hdefinition, intAt_of hstart]
  rfl

theorem export_ofJson_toJson (e : Export) : Export.ofJson e.toJson = .ok e :=
  export_ofJson e e.toJson (has_record (by simp [Export.members]) (List.Subset.refl _))

/-- An outline is read from its members, whatever else the object has. -/
theorem outline_ofJson (o : Outline) (v : Json) (h : v.Has (o.members ++ [("rawText", .text o.source)])) :
    Outline.ofJson v = .ok o := by
  have hr := h.required
  have ho := h.optional
  simp only [Outline.members, Outline.structureMembers, List.cons_append, List.nil_append,
    List.forall_mem_cons] at hr ho
  obtain ⟨-, -, hdecls, himports, hexports, hsource, -⟩ := ho
  unfold Outline.ofJson
  rw [textAt_of hr.1, textAt_of hr.2.1, textAtD_of [] hsource,
    itemsAt_of hdecls fun d _ => decl_ofJson_toJson d,
    itemsAt_of himports fun i _ => import_ofJson_toJson i,
    itemsAt_of hexports fun e _ => export_ofJson_toJson e]
  rfl

/-- **An outline is read back from its object.** -/
theorem outline_ofJson_toJson (o : Outline) : Outline.ofJson o.toJson = .ok o :=
  outline_ofJson o o.toJson
    (has_record (by simp [Outline.members, Outline.structureMembers]) (List.Subset.refl _))

end SourceDoc
