import SourceDoc.Outline.Normal
import SourceDoc.Proofs.List
import SourceDoc.Proofs.Text.Blank

/-!
# The normal form of an outline

An outline is normal if no name has blanks around it, a text that may be absent is absent or says something, a text
that has to be there says something, and a span of lines that is known is one.  Filling the gaps of an outline makes it
normal, and leaves a normal outline as it is; what is declared, imported and exported stays, in its order.

    o.normalize.IsNormal ∧ (o.normalize = o ↔ o.IsNormal) ∧ … ∧ o.Keeps o.normalize          (normalize_isNormalForm)
-/

namespace SourceDoc

/-! ## Texts and spans -/

/-- The text says something, and nothing but that. -/
def Text.IsTidy (t : Text) : Prop := t ≠ [] ∧ Text.strip t = t

/-- The text is there and says something. -/
def IsKnown (t : Option Text) : Prop := ∃ u, t = some u ∧ Text.IsTidy u

/-- The text says something where it is there. -/
def IsTidyIfKnown (t : Option Text) : Prop := ∀ u, t = some u → Text.IsTidy u

/-- The lines are those of a known span, or stand for an unknown one. -/
def IsSpan (start stop : Int) : Prop := (start = 0 ∧ stop = 0) ∨ (1 ≤ start ∧ start ≤ stop)

theorem stripped_isTidy {t u : Text} (h : Text.stripped? t = some u) : Text.IsTidy u := by
  unfold Text.stripped? at h
  split at h
  · cases h
  · next c rest hstrip =>
    cases h
    refine ⟨List.cons_ne_nil c rest, ?_⟩
    rw [← hstrip, Text.strip_strip]

theorem stripped_of_isTidy {t : Text} (h : Text.IsTidy t) : Text.stripped? t = some t :=
  Text.stripped_of_strip h.2 h.1

theorem tidy_isTidy (t : Option Text) : IsTidyIfKnown (tidy t) := by
  intro u hu
  obtain ⟨v, -, hv⟩ := Option.bind_eq_some_iff.mp hu
  exact stripped_isTidy hv

theorem tidy_of_isTidy {t : Option Text} (h : IsTidyIfKnown t) : tidy t = t := by
  cases t with
  | none => rfl
  | some u => exact stripped_of_isTidy (h u rfl)

theorem tidyOr_isKnown {word : Text} (hword : word.IsTidy) (t : Option Text) : IsKnown (tidyOr word t) := by
  refine ⟨(tidy t).getD word, rfl, ?_⟩
  cases ht : tidy t with
  | none => exact hword
  | some u => exact tidy_isTidy t u ht

theorem tidyOr_of_isKnown {t : Option Text} (word : Text) (h : IsKnown t) : tidyOr word t = t := by
  obtain ⟨u, rfl, hu⟩ := h
  unfold tidyOr
  rw [show tidy (some u) = some u from stripped_of_isTidy hu]
  rfl

theorem tidySpan_isSpan (start stop : Int) : IsSpan (tidySpan start stop).1 (tidySpan start stop).2 := by
  unfold tidySpan
  by_cases h : start ≤ 0 ∨ stop < start
  · rw [if_pos h]
    exact .inl ⟨rfl, rfl⟩
  · rw [if_neg h]
    refine .inr ⟨?_, ?_⟩
    · show 1 ≤ start
      omega
    · show start ≤ stop
      omega

theorem tidySpan_of_isSpan {start stop : Int} (h : IsSpan start stop) : tidySpan start stop = (start, stop) := by
  unfold tidySpan
  rcases h with ⟨rfl, rfl⟩ | ⟨hstart, hstop⟩
  · rfl
  · rw [if_neg (by omega)]

/-- In every language the word for "unknown" says something. -/
theorem unknownType_isTidy (language : Text) : (unknownType language).IsTidy := by
  unfold unknownType Text.IsTidy
  split_ifs <;> decide

theorem unspecified_isTidy : unspecified.IsTidy := by
  unfold Text.IsTidy
  decide

/-! ## Normal records -/

structure Parameter.IsNormal (p : Parameter) : Prop where
  name : Text.strip p.name = p.name
  type : IsKnown p.type
  initial : IsTidyIfKnown p.initial

structure FunctionDecl.IsNormal (f : FunctionDecl) : Prop where
  name : Text.strip f.name = f.name
  parameters : ∀ p ∈ f.parameters, p.IsNormal
  returnType : IsKnown f.returnType
  visibility : IsKnown f.visibility
  comments : IsTidyIfKnown f.comments
  span : IsSpan f.startLine f.endLine
  receiver : Text.strip f.receiver = f.receiver

structure Property.IsNormal (p : Property) : Prop where
  name : Text.strip p.name = p.name
  type : IsKnown p.type
  visibility : IsKnown p.visibility
  comments : IsTidyIfKnown p.comments

structure TypeDecl.IsNormal (t : TypeDecl) : Prop where
  name : Text.strip t.name = t.name
  methods : ∀ m ∈ t.methods, m.IsNormal
  properties : ∀ p ∈ t.properties, p.IsNormal
  constructor? : ∀ c, t.constructor? = some c → c.IsNormal
  superType : IsTidyIfKnown t.superType
  comments : IsTidyIfKnown t.comments
  span : IsSpan t.startLine t.endLine

def Decl.IsNormal : Decl → Prop
  | .function f => f.IsNormal
  | .type t => t.IsNormal

structure Binding.IsNormal (b : Binding) : Prop where
  name : Text.strip b.name = b.name
  imported : IsTidyIfKnown b.imported

structure Import.IsNormal (i : Import) : Prop where
  source : Text.strip i.source = i.source
  bindings : ∀ b ∈ i.bindings, b.IsNormal

structure Export.IsNormal (e : Export) : Prop where
  name : Text.strip e.name = e.name
  definition : IsTidyIfKnown e.definition

/-- Nothing is left to fill in. -/
structure Outline.IsNormal (o : Outline) : Prop where
  decls : ∀ d ∈ o.decls, d.IsNormal
  imports : ∀ i ∈ o.imports, i.IsNormal
  exports : ∀ e ∈ o.exports, e.IsNormal

/-! ## What is filled in is normal -/

section

variable {unknown : Text} (hunknown : unknown.IsTidy)

include hunknown

theorem Parameter.normalize_isNormal (p : Parameter) : (p.normalize unknown).IsNormal :=
  ⟨Text.strip_strip p.name, tidyOr_isKnown hunknown p.type, tidy_isTidy p.initial⟩

theorem FunctionDecl.normalize_isNormal (f : FunctionDecl) : (f.normalize unknown).IsNormal where
  name := Text.strip_strip f.name
  parameters := List.forall_mem_map.mpr fun p _ => p.normalize_isNormal hunknown
  returnType := tidyOr_isKnown hunknown f.returnType
  visibility := tidyOr_isKnown unspecified_isTidy f.visibility
  comments := tidy_isTidy f.comments
  span := tidySpan_isSpan f.startLine f.endLine
  receiver := Text.strip_strip f.receiver

theorem Property.normalize_isNormal (p : Property) : (p.normalize unknown).IsNormal where
  name := Text.strip_strip p.name
  type := tidyOr_isKnown hunknown p.type
  visibility := tidyOr_isKnown unspecified_isTidy p.visibility
  comments := tidy_isTidy p.comments

theorem TypeDecl.normalize_isNormal (t : TypeDecl) : (t.normalize unknown).IsNormal where
  name := Text.strip_strip t.name
  methods := List.forall_mem_map.mpr fun m _ => m.normalize_isNormal hunknown
  properties := List.forall_mem_map.mpr fun p _ => p.normalize_isNormal hunknown
  constructor? := by
    intro c hc
    obtain ⟨d, -, rfl⟩ := Option.map_eq_some_iff.mp hc
    exact d.normalize_isNormal hunknown
  superType := tidy_isTidy t.superType
  comments := tidy_isTidy t.comments
  span := tidySpan_isSpan t.startLine t.endLine

theorem Decl.normalize_isNormal (d : Decl) : (d.normalize unknown).IsNormal := by
  cases d with
  | function f => exact f.normalize_isNormal hunknown
  | type t => exact t.normalize_isNormal hunknown

end

theorem Binding.normalize_isNormal (b : Binding) : b.normalize.IsNormal :=
  ⟨Text.strip_strip b.name, tidy_isTidy b.imported⟩

theorem Import.normalize_isNormal (i : Import) : i.normalize.IsNormal :=
  ⟨Text.strip_strip i.source, List.forall_mem_map.mpr fun b _ => b.normalize_isNormal⟩

theorem Export.normalize_isNormal (e : Export) : e.normalize.IsNormal :=
  ⟨Text.strip_strip e.name, tidy_isTidy e.definition⟩

/-- **An outline is normal once its gaps are filled.** -/
theorem Outline.normalize_isNormal (o : Outline) : o.normalize.IsNormal where
  decls := List.forall_mem_map.mpr fun d _ => d.normalize_isNormal (unknownType_isTidy o.language)
  imports := List.forall_mem_map.mpr fun i _ => i.normalize_isNormal
  exports := List.forall_mem_map.mpr fun e _ => e.normalize_isNormal

/-! ## What is normal stays -/

section

variable (unknown : Text)

theorem Parameter.normalize_of_isNormal {p : Parameter} (h : p.IsNormal) : p.normalize unknown = p := by
  unfold Parameter.normalize
  rw [h.name, tidyOr_of_isKnown unknown h.type, tidy_of_isTidy h.initial]

theorem FunctionDecl.normalize_of_isNormal {f : FunctionDecl} (h : f.IsNormal) : f.normalize unknown = f := by
  have hparameters := map_eq_self fun p hp => Parameter.normalize_of_isNormal unknown (h.parameters p hp)
  unfold FunctionDecl.normalize
  rw [h.name, hparameters, tidyOr_of_isKnown unknown h.returnType, tidyOr_of_isKnown unspecified h.visibility,
    tidy_of_isTidy h.comments, tidySpan_of_isSpan h.span, h.receiver]

theorem Property.normalize_of_isNormal {p : Property} (h : p.IsNormal) : p.normalize unknown = p := by
  unfold Property.normalize
  rw [h.name, tidyOr_of_isKnown unknown h.type, tidyOr_of_isKnown unspecified h.visibility, tidy_of_isTidy h.comments]

theorem TypeDecl.normalize_of_isNormal {t : TypeDecl} (h : t.IsNormal) : t.normalize unknown = t := by
  have hmethods := map_eq_self fun m hm => FunctionDecl.normalize_of_isNormal unknown (h.methods m hm)
  have hproperties := map_eq_self fun p hp => Property.normalize_of_isNormal unknown (h.properties p hp)
  have hconstructor : t.constructor?.map (FunctionDecl.normalize unknown) = t.constructor? := by
    cases hc : t.constructor? with
    | none => rfl
    | some c => exact congrArg some (FunctionDecl.normalize_of_isNormal unknown (h.constructor? c hc))
  unfold TypeDecl.normalize
  rw [h.name, hmethods, hproperties, hconstructor, tidy_of_isTidy h.superType, tidy_of_isTidy h.comments,
    tidySpan_of_isSpan h.span]

theorem Decl.normalize_of_isNormal {d : Decl} (h : d.IsNormal) : d.normalize unknown = d := by
  cases d with
  | function f => exact congrArg Decl.function (FunctionDecl.normalize_of_isNormal unknown h)
  | type t => exact congrArg Decl.type (TypeDecl.normalize_of_isNormal unknown h)

end

theorem Binding.normalize_of_isNormal {b : Binding} (h : b.IsNormal) : b.normalize = b := by
  unfold Binding.normalize
  rw [h.name, tidy_of_isTidy h.imported]

theorem Import.normalize_of_isNormal {i : Import} (h : i.IsNormal) : i.normalize = i := by
  have hbindings := map_eq_self fun b hb => Binding.normalize_of_isNormal (h.bindings b hb)
  unfold Import.normalize
  rw [h.source, hbindings]

theorem Export.normalize_of_isNormal {e : Export} (h : e.IsNormal) : e.normalize = e := by
  unfold Export.normalize
  rw [h.name, tidy_of_isTidy h.definition]

/-- **A normal outline has no gaps to fill.** -/
theorem Outline.normalize_of_isNormal {o : Outline} (h : o.IsNormal) : o.normalize = o := by
  have hdecls := map_eq_self fun d hd => Decl.normalize_of_isNormal (unknownType o.language) (h.decls d hd)
  have himports := map_eq_self fun i hi => Import.normalize_of_isNormal (h.imports i hi)
  have hexports := map_eq_self fun e he => Export.normalize_of_isNormal (h.exports e he)
  unfold Outline.normalize
  rw [hdecls, himports, hexports]

/-! ## What is kept -/

/-- One parameter is the other but for its texts, and its name is the same but for blanks. -/
structure Parameter.Keeps (p q : Parameter) : Prop where
  name : q.name = Text.strip p.name
  isOptional : q.isOptional = p.isOptional

structure FunctionDecl.Keeps (f g : FunctionDecl) : Prop where
  name : g.name = Text.strip f.name
  parameters : List.Forall₂ Parameter.Keeps f.parameters g.parameters
  isAsync : g.isAsync = f.isAsync
  isGenerator : g.isGenerator = f.isGenerator
  isStatic : g.isStatic = f.isStatic
  isOptional : g.isOptional = f.isOptional

structure Property.Keeps (p q : Property) : Prop where
  name : q.name = Text.strip p.name
  isStatic : q.isStatic = p.isStatic
  isOptional : q.isOptional = p.isOptional

structure TypeDecl.Keeps (t u : TypeDecl) : Prop where
  name : u.name = Text.strip t.name
  methods : List.Forall₂ FunctionDecl.Keeps t.methods u.methods
  properties : List.Forall₂ Property.Keeps t.properties u.properties
  constructor? : Option.Rel FunctionDecl.Keeps t.constructor? u.constructor?
  isInterface : u.isInterface = t.isInterface
  kind : u.kind = t.kind

/-- A function is kept as a function, and a type as a type. -/
inductive Decl.Keeps : Decl → Decl → Prop
  | function {f g : FunctionDecl} (h : f.Keeps g) : Keeps (.function f) (.function g)
  | type {t u : TypeDecl} (h : t.Keeps u) : Keeps (.type t) (.type u)

structure Binding.Keeps (b c : Binding) : Prop where
  name : c.name = Text.strip b.name
  kind : c.kind = b.kind

structure Import.Keeps (i j : Import) : Prop where
  source : j.source = Text.strip i.source
  bindings : List.Forall₂ Binding.Keeps i.bindings j.bindings
  startLine : j.startLine = i.startLine

structure Export.Keeps (e f : Export) : Prop where
  name : f.name = Text.strip e.name
  kind : f.kind = e.kind
  startLine : f.startLine = e.startLine

/-- One outline declares, imports and exports what the other does, in the same order. -/
structure Outline.Keeps (o p : Outline) : Prop where
  path : p.path = o.path
  language : p.language = o.language
  source : p.source = o.source
  decls : List.Forall₂ Decl.Keeps o.decls p.decls
  imports : List.Forall₂ Import.Keeps o.imports p.imports
  exports : List.Forall₂ Export.Keeps o.exports p.exports

section

variable (unknown : Text)

theorem Parameter.keeps_normalize (p : Parameter) : p.Keeps (p.normalize unknown) := ⟨rfl, rfl⟩

theorem FunctionDecl.keeps_normalize (f : FunctionDecl) : f.Keeps (f.normalize unknown) :=
  ⟨rfl, forall₂_map (Parameter.keeps_normalize unknown) f.parameters, rfl, rfl, rfl, rfl⟩

theorem Property.keeps_normalize (p : Property) : p.Keeps (p.normalize unknown) := ⟨rfl, rfl, rfl⟩

theorem TypeDecl.keeps_normalize (t : TypeDecl) : t.Keeps (t.normalize unknown) where
  name := rfl
  methods := forall₂_map (FunctionDecl.keeps_normalize unknown) t.methods
  properties := forall₂_map (Property.keeps_normalize unknown) t.properties
  constructor? := by
    show Option.Rel _ t.constructor? (t.constructor?.map (FunctionDecl.normalize unknown))
    cases t.constructor? with
    | none => exact .none
    | some c => exact .some (c.keeps_normalize unknown)
  isInterface := rfl
  kind := rfl

theorem Decl.keeps_normalize (d : Decl) : d.Keeps (d.normalize unknown) := by
  cases d with
  | function f => exact .function (f.keeps_normalize unknown)
  | type t => exact .type (t.keeps_normalize unknown)

end

theorem Import.keeps_normalize (i : Import) : i.Keeps i.normalize :=
  ⟨rfl, forall₂_map (fun _ => ⟨rfl, rfl⟩) i.bindings, rfl⟩

/-- **Filling the gaps of an outline keeps what it declares, imports and exports.** -/
theorem Outline.keeps_normalize (o : Outline) : o.Keeps o.normalize where
  path := rfl
  language := rfl
  source := rfl
  decls := forall₂_map (Decl.keeps_normalize (unknownType o.language)) o.decls
  imports := forall₂_map Import.keeps_normalize o.imports
  exports := forall₂_map (fun _ => ⟨rfl, rfl, rfl⟩) o.exports

/-- **Filling the gaps of an outline gives its normal form.**  The normal outlines are those that it leaves as they are,
and it leaves every outline with the same contents in the same order. -/
theorem Outline.normalize_isNormalForm (o : Outline) :
    o.normalize.IsNormal ∧ (o.normalize = o ↔ o.IsNormal) ∧ o.normalize.normalize = o.normalize ∧
      o.Keeps o.normalize := by
  have hnormal := o.normalize_isNormal
  refine ⟨hnormal, ⟨fun h => ?_, Outline.normalize_of_isNormal⟩, Outline.normalize_of_isNormal hnormal,
    o.keeps_normalize⟩
  rw [← h]
  exact hnormal

end SourceDoc
