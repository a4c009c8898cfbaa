import SourceDoc.Document.Basic
import SourceDoc.Proofs.List
import SourceDoc.Proofs.Prose.Entries

/-!
# Documents hold what is declared

Prose about a name that an outline does not declare has no place in its document: the document is the same if the
entries under such names are taken out of the object that the prose is read off (`declaredIn`).  What a document holds
is given by the outline, whatever the prose (`Documents`), and with an error there is no prose in it.

    assemble o (some (ofMembers (declaredIn o m))) error = assemble o (some (ofMembers m)) error     (assemble_declared)
-/

namespace SourceDoc

open Json Prose

/-! ## Prose about what is declared -/

/-- An entry with the descriptions of parameters that a function of its name has. -/
def entryAboutFunction (fs : List FunctionDecl) (name : Text) : Members → Members :=
  edit "parameters" (only (((fs.filter (·.name = name)).flatMap FunctionDecl.parameters).map Parameter.name))

/-- The entries about some functions. -/
def entriesAboutFunctions (fs : List FunctionDecl) : Json → Json :=
  keepEntries (fs.map FunctionDecl.name) (entryAboutFunction fs)

/-- An entry with the entries about methods and the descriptions of properties that a type of its name has. -/
def entryAboutType (ts : List TypeDecl) (name : Text) (m : Members) : Members :=
  let namesakes := ts.filter (·.name = name)
  edit "properties" (only ((namesakes.flatMap TypeDecl.properties).map Property.name))
    (edit "methods" (entriesAboutFunctions (namesakes.flatMap TypeDecl.functions)) m)

/-- The entries about some types. -/
def entriesAboutTypes (ts : List TypeDecl) : Json → Json := keepEntries (ts.map TypeDecl.name) (entryAboutType ts)

/-- What is said about an outline, without the entries under names that it does not declare. -/
def declaredIn (o : Outline) (m : Members) : Members :=
  edit "exports" (only (o.exports.map Export.name))
    (edit "classes" (entriesAboutTypes o.types) (edit "functions" (entriesAboutFunctions o.functions) m))

namespace Document

/-! ## Look-ups -/

theorem among_filter {names wanted : List Text} (h : ∀ name ∈ names, name ∈ wanted) (table : List (Text × Text)) :
    among names (table.filter fun p => wanted.contains p.1) = among names table := by
  unfold among
  rw [List.filter_filter]
  refine List.filter_congr fun p _ => ?_
  by_cases hp : p.1 ∈ names
  · simp [hp, h p.1 hp]
  · simp [hp]

/-- The prose about a function is the same without prose about other functions and about parameters that no function of
its name has. -/
theorem documentFunction_declared (fs : List FunctionDecl) (name : String) (m : Members) (f : FunctionDecl)
    (hf : f ∈ fs) :
    documentFunction (Table.get? f.name (functionsOf name (edit name (entriesAboutFunctions fs) m))) f =
      documentFunction (Table.get? f.name (functionsOf name m)) f := by
  have hedited := get_ofPairs_entriesOf_edit (fs.map FunctionDecl.name) (entryAboutFunction fs)
    (fun _ m => entryName_edit (by decide) _ m) ofFunction name m f.name (List.mem_map_of_mem hf)
  have hunedited := get_ofPairs_entriesOf ofFunction name m f.name
  refine (congrArg (documentFunction · f) hedited).trans (Eq.trans ?_ (congrArg (documentFunction · f) hunedited.symm))
  cases Table.get? f.name (Table.ofPairs (entriesOf name m)) with
  | none => rfl
  | some e =>
    have hown : ∀ p ∈ f.parameters.map Parameter.name,
        p ∈ ((fs.filter (·.name = f.name)).flatMap FunctionDecl.parameters).map Parameter.name := by
      intro p hp
      obtain ⟨q, hq, rfl⟩ := List.mem_map.mp hp
      refine List.mem_map_of_mem (List.mem_flatMap.mpr ⟨f, ?_, hq⟩)
      exact List.mem_filter.mpr ⟨hf, decide_eq_true rfl⟩
    simp only [Option.map_some, entryAboutFunction, ofFunction_edit, documentFunction, among_filter hown]

/-- What is documented of a type depends on the look-ups of its own names only. -/
theorem documentType_congr {p q : TypeProse} (t : TypeDecl) (hdescription : p.description = q.description)
    (hmethods : ∀ f ∈ t.functions,
      documentFunction (Table.get? f.name p.methods) f = documentFunction (Table.get? f.name q.methods) f)
    (hproperties : among (t.properties.map Property.name) p.properties =
      among (t.properties.map Property.name) q.properties) :
    documentType (some p) t = documentType (some q) t := by
  obtain ⟨hlisted, hconstructor⟩ := List.forall_mem_append.mp hmethods
  have hconstructor' : (t.constructor?.map fun c => documentFunction (Table.get? c.name p.methods) c) =
      t.constructor?.map fun c => documentFunction (Table.get? c.name q.methods) c := by
    cases hc : t.constructor? with
    | none => rfl
    | some c => exact congrArg some (hconstructor c (by simp [hc]))
  simp only [documentType, Option.getD_some]
  rw [hdescription, List.map_congr_left hlisted, hconstructor', hproperties]

theorem entryName_entryAboutType (ts : List TypeDecl) (name : Text) (m : Members) :
    entryName? (entryAboutType ts name m) = entryName? m := by
  unfold entryAboutType
  rw [entryName_edit (by decide), entryName_edit (by decide)]

/-- The prose about a type is the same without prose about methods and properties that no type of its name has. -/
theorem documentType_entryAboutType (ts : List TypeDecl) (t : TypeDecl) (ht : t ∈ ts) (m : Members) :
    documentType (some (ofType (entryAboutType ts t.name m))) t = documentType (some (ofType m)) t := by
  have hself : t ∈ ts.filter (·.name = t.name) := List.mem_filter.mpr ⟨ht, decide_eq_true rfl⟩
  refine documentType_congr t ?_ ?_ ?_
  · exact (textOf_edit (by decide) _ _).trans (textOf_edit (by decide) _ _)
  · intro f hf
    have hmethods : (ofType (entryAboutType ts t.name m)).methods =
        functionsOf "methods" (edit "methods"
          (entriesAboutFunctions ((ts.filter (·.name = t.name)).flatMap TypeDecl.functions)) m) := by
      show functionsOf "methods" (edit "properties" _ _) = _
      unfold functionsOf
      rw [entriesOf_edit_of_ne (by decide)]
    rw [hmethods]
    exact documentFunction_declared _ "methods" m f (List.mem_flatMap.mpr ⟨t, hself, hf⟩)
  · have hown : ∀ p ∈ t.properties.map Property.name,
        p ∈ ((ts.filter (·.name = t.name)).flatMap TypeDecl.properties).map Property.name := by
      intro p hp
      obtain ⟨q, hq, rfl⟩ := List.mem_map.mp hp
      exact List.mem_map_of_mem (List.mem_flatMap.mpr ⟨t, hself, hq⟩)
    show among _ (described "properties" (edit "properties" _ _)) = among _ (described "properties" m)
    rw [described_only, described_edit_of_ne (by decide), among_filter hown]

/-- The prose about a type is the same without prose about other types, too. -/
theorem documentType_declared (ts : List TypeDecl) (name : String) (m : Members) (t : TypeDecl) (ht : t ∈ ts) :
    documentType (Table.get? t.name
        (Table.ofPairs ((entriesOf name (edit name (entriesAboutTypes ts) m)).map fun p => (p.1, ofType p.2)))) t =
      documentType (Table.get? t.name (Table.ofPairs ((entriesOf name m).map fun p => (p.1, ofType p.2)))) t := by
  unfold entriesAboutTypes
  rw [get_ofPairs_entriesOf_edit (ts.map TypeDecl.name) (entryAboutType ts) (entryName_entryAboutType ts) ofType name m
    t.name (List.mem_map_of_mem ht), get_ofPairs_entriesOf ofType name m t.name]
  cases Table.get? t.name (Table.ofPairs (entriesOf name m)) with
  | none => rfl
  | some e => exact documentType_entryAboutType ts t ht e

/-! ## What a document holds -/

/-- The descriptions of the parameters of a function are under their names. -/
def HasOwnParameters (f : DocumentedFunction) : Prop := ∀ p ∈ f.parameters, ∃ q ∈ f.decl.parameters, q.name = p.1

/-- A documented type has the methods, the constructor and properties of the type. -/
structure HasOwnMembers (t : DocumentedType) : Prop where
  methods : t.methods.map DocumentedFunction.decl = t.decl.methods
  constructor? : t.constructor?.map DocumentedFunction.decl = t.decl.constructor?
  parameters : ∀ f ∈ t.methods ++ t.constructor?.toList, HasOwnParameters f
  properties : ∀ p ∈ t.properties, ∃ q ∈ t.decl.properties, q.name = p.1

/-- A document holds what an outline declares, in the same order, and nothing else. -/
structure Documents (d : Document) (o : Outline) : Prop where
  outline : d.outline = o
  functions : d.functions.map DocumentedFunction.decl = o.functions
  types : d.types.map DocumentedType.decl = o.types
  exports : d.exports.map DocumentedExport.decl = o.exports
  parameters : ∀ f ∈ d.functions, HasOwnParameters f
  members : ∀ t ∈ d.types, HasOwnMembers t

theorem mem_among {α : Type} {name : α → Text} {l : List α} {table : List (Text × Text)} {p : Text × Text}
    (h : p ∈ among (l.map name) table) : ∃ a ∈ l, name a = p.1 := by
  have hcontains := (List.mem_filter.mp h).2
  exact List.mem_map.mp (List.contains_iff_mem.mp hcontains)

theorem documentFunction_decl (prose : Option FunctionProse) (f : FunctionDecl) :
    (documentFunction prose f).decl = f := by cases prose <;> rfl

theorem documentFunction_hasOwnParameters (prose : Option FunctionProse) (f : FunctionDecl) :
    HasOwnParameters (documentFunction prose f) := by
  intro p hp
  cases prose with
  | none => cases hp
  | some prose => exact mem_among hp

theorem documentType_hasOwnMembers (prose : Option TypeProse) (t : TypeDecl) :
    HasOwnMembers (documentType prose t) where
  methods := by
    unfold documentType
    rw [List.map_map]
    exact map_eq_self fun m _ => documentFunction_decl _ m
  constructor? := by
    unfold documentType
    cases t.constructor? with
    | none => rfl
    | some c => exact congrArg some (documentFunction_decl _ c)
  parameters := by
    refine List.forall_mem_append.mpr ⟨?_, ?_⟩
    · exact List.forall_mem_map.mpr fun m _ => documentFunction_hasOwnParameters _ m
    · intro f hf
      obtain ⟨c, -, rfl⟩ := Option.map_eq_some_iff.mp (Option.mem_toList.mp hf)
      exact documentFunction_hasOwnParameters _ c
  properties := fun _ hp => mem_among hp

theorem assemble_documents (o : Outline) (prose : Option Prose) (error : Option Text) :
    Documents (assemble o prose error) o where
  outline := rfl
  functions := by
    unfold assemble
    rw [List.map_map]
    exact map_eq_self fun f _ => documentFunction_decl _ f
  types := by
    unfold assemble
    rw [List.map_map]
    exact List.map_id _
  exports := by
    unfold assemble
    rw [List.map_map]
    exact List.map_id _
  parameters := List.forall_mem_map.mpr fun f _ => documentFunction_hasOwnParameters _ f
  members := List.forall_mem_map.mpr fun t _ => documentType_hasOwnMembers _ t

/-! ## The document -/

/-- A document depends on the look-ups of declared names only. -/
theorem assemble_congr (o : Outline) {p q : Prose} (error : Option Text) (htitle : p.title = q.title)
    (hdescription : p.description = q.description)
    (hfunctions : ∀ f ∈ o.functions,
      documentFunction (Table.get? f.name p.functions) f = documentFunction (Table.get? f.name q.functions) f)
    (htypes : ∀ t ∈ o.types,
      documentType (Table.get? t.name p.types) t = documentType (Table.get? t.name q.types) t)
    (hexports : ∀ e ∈ o.exports, Table.get? e.name p.exports = Table.get? e.name q.exports)
    (husage : p.usage = q.usage) (hnotes : p.notes = q.notes) :
    assemble o (some p) error = assemble o (some q) error := by
  cases error with
  | some reason => rfl
  | none =>
    have hexported : (o.exports.map fun e => (⟨e, Table.get? e.name p.exports⟩ : DocumentedExport)) =
        o.exports.map fun e => ⟨e, Table.get? e.name q.exports⟩ :=
      List.map_congr_left fun e he => congrArg (DocumentedExport.mk e) (hexports e he)
    simp only [assemble, Option.isSome_none, Option.getD_some]
    rw [if_neg Bool.false_ne_true, if_neg Bool.false_ne_true, htitle, hdescription, List.map_congr_left hfunctions,
      List.map_congr_left htypes, hexported, husage, hnotes]

theorem textOf_declaredIn {key : String} (hexports : key.toList ≠ "exports".toList)
    (hclasses : key.toList ≠ "classes".toList) (hfunctions : key.toList ≠ "functions".toList) (o : Outline)
    (m : Members) : textOf key (declaredIn o m) = textOf key m := by
  unfold declaredIn
  rw [textOf_edit hexports, textOf_edit hclasses, textOf_edit hfunctions]

/-- **Prose about names that are not declared has no place in a document,** and what the document holds is given by the
outline, whatever the prose.  With an error the document is the one without prose. -/
theorem assemble_declared (o : Outline) :
    (∀ (m : Members) (error : Option Text),
      assemble o (some (ofMembers (declaredIn o m))) error = assemble o (some (ofMembers m)) error) ∧
    (∀ prose error, Documents (assemble o prose error) o) ∧
    ∀ prose reason, assemble o prose (some reason) = assemble o none (some reason) := by
  refine ⟨fun m error => ?_, assemble_documents o, fun prose reason => rfl⟩
  apply assemble_congr o error
  case htitle => exact textOf_declaredIn (by decide) (by decide) (by decide) o m
  case hdescription => exact textOf_declaredIn (by decide) (by decide) (by decide) o m
  case husage => exact textOf_declaredIn (by decide) (by decide) (by decide) o m
  case hnotes => exact textOf_declaredIn (by decide) (by decide) (by decide) o m
  case hfunctions =>
    intro f hf
    show documentFunction (Table.get? f.name (functionsOf "functions" (declaredIn o m))) f =
      documentFunction (Table.get? f.name (functionsOf "functions" m)) f
    rw [← documentFunction_declared o.functions "functions" m f hf]
    unfold functionsOf declaredIn
    rw [entriesOf_edit_of_ne (by decide), entriesOf_edit_of_ne (by decide)]
  case htypes =>
    intro t ht
    show documentType (Table.get? t.name
        (Table.ofPairs ((entriesOf "classes" (declaredIn o m)).map fun p => (p.1, ofType p.2)))) t =
      documentType (Table.get? t.name (Table.ofPairs ((entriesOf "classes" m).map fun p => (p.1, ofType p.2)))) t
    unfold declaredIn
    rw [entriesOf_edit_of_ne (by decide), documentType_declared o.types "classes" _ t ht,
      entriesOf_edit_of_ne (by decide)]
  case hexports =>
    intro e he
    have hwanted : (o.exports.map Export.name).contains e.name = true :=
      List.contains_iff_mem.mpr (List.mem_map_of_mem he)
    show Table.get? e.name (described "exports" (declaredIn o m)) = Table.get? e.name (described "exports" m)
    unfold declaredIn
    rw [described_only, Table.get_filter _ _ hwanted, described_edit_of_ne (by decide),
      described_edit_of_ne (by decide)]

end Document

end SourceDoc
