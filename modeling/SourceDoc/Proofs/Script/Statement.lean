import SourceDoc.Script.Outline
import SourceDoc.Proofs.List

/-!
# The statements of a script

`statements` lists the statements that the outline of a script looks at: those at the top, and with an export the
declaration in it.  What an outline has comes from these and from nothing below them: an import of each import
statement, the exports of each statement, and at most one symbol of each place where one of them declares one
(`outlineOf_follows`).
-/

namespace SourceDoc.Script

open Grammar

/-! ## Statements -/

/-- A node with the statement whose lines and comments it takes. -/
structure Anchored where
  node : Node
  anchor : Node

/-- The statements in an export: its declaration, which takes the lines of the export, and before it those in the
declaration where that is an export in its turn. -/
def inner : Node → List Anchored
  | .node kind field start stop children =>
    if kind = .exportStatement then ofDeclaration (.node kind field start stop children) children else []
where
  ofDeclaration (exported : Node) : List Node → List Anchored
    | [] => []
    | n :: rest => if n.field = some .declaration then inner n ++ [⟨n, exported⟩] else ofDeclaration exported rest

/-- A statement after those in it. -/
def statementsOf (anchor n : Node) : List Anchored := inner n ++ [⟨n, anchor⟩]

/-- The statements that the outline of a script looks at. -/
def statements (root : Node) : List Anchored :=
  (root.children.filter (·.kind.isNamed)).flatMap fun n => statementsOf n n

theorem mem_children {n c : Node} {f : Field} (h : n.child? f = some c) : c ∈ n.children :=
  List.mem_of_find?_eq_some h

theorem sizeOf_lt_of_mem_children {n c : Node} (h : c ∈ n.children) : sizeOf c < sizeOf n := by
  cases n
  have := List.sizeOf_lt_of_mem h
  simp only [Tree.node.sizeOf_spec, Tree.children] at this ⊢
  omega

theorem inner_eq (n : Node) :
    inner n = if n.kind = .exportStatement then ((n.child? .declaration).map (statementsOf n)).getD [] else [] := by
  have hof : ∀ (exported : Node) (cs : List Node), inner.ofDeclaration exported cs =
      ((cs.find? fun c => decide (c.field = some .declaration)).map (statementsOf exported)).getD [] := by
    intro exported cs
    induction cs with
    | nil => rfl
    | cons c cs ih =>
      rw [inner.ofDeclaration, List.find?_cons]
      by_cases hc : c.field = some .declaration
      · simp [hc, statementsOf]
      · simp [hc, ih]
  cases n
  rw [inner, hof]
  rfl

theorem inner_of_declaration {n d : Node} (hn : n.kind = .exportStatement) (hd : n.child? .declaration = some d) :
    inner n = statementsOf n d := by
  rw [inner_eq, if_pos hn, hd]
  rfl

/-- An export has no statements in it, or those of its declaration; any other statement has none. -/
theorem inner_cases (n : Node) :
    inner n = [] ∨ ∃ d, n.kind = .exportStatement ∧ n.child? .declaration = some d ∧ inner n = statementsOf n d := by
  by_cases hn : n.kind = .exportStatement
  · cases hd : n.child? .declaration with
    | none => exact .inl (by rw [inner_eq, if_pos hn, hd]; rfl)
    | some d => exact .inr ⟨d, hn, rfl, inner_of_declaration hn hd⟩
  · exact .inl (by rw [inner_eq, if_neg hn])

/-- Induction from a declaration to the statement around it. -/
theorem declaration_induct {P : Node → Prop} (step : ∀ n, (∀ d, n.child? .declaration = some d → P d) → P n)
    (n : Node) : P n :=
  step n fun d _ => declaration_induct step d
termination_by sizeOf n
decreasing_by exact sizeOf_lt_of_mem_children (mem_children ‹_›)

/-! ## What a statement contributes -/

/-- The places where a statement declares symbols: the variables of a declaration of variables, else itself. -/
def Anchored.sites (s : Anchored) : List Anchored :=
  if isVariableDeclaration s.node.kind then
    ((namedChildren s.node).filter (·.kind = .variableDeclarator)).map (⟨·, s.anchor⟩)
  else if isFunctionDeclaration s.node.kind || isClass s.node.kind || s.node.kind = .interfaceDeclaration then [s]
  else []

/-- The exports of a statement without those of the statements in it. -/
def exportsIn (source : Text) (n : Node) : List Export :=
  if n.kind = .exportStatement then exportsOf source n
  else if n.kind = .importStatement then []
  else (declared source [] n n).exports

/-- A member of the body of a type. -/
def IsMember (source : Text) (type : Node) (f : FunctionDecl) : Prop :=
  ∃ body, type.child? .body = some body ∧ ∃ member ∈ body.children, f.name = textOf source (member.child? .name) ∧
    f.startLine = startLine member ∧ f.endLine = endLine member

/-- A symbol has its name and its members at a place and its lines from the statement that the place belongs to. -/
structure IsSymbolAt (source : Text) (s : Anchored) (d : Decl) : Prop where
  name : d.name = textOf source (s.node.child? .name)
  startLine : d.startLine = startLine s.anchor
  endLine : d.endLine = endLine s.anchor
  members : ∀ t, d.type? = some t → ∀ f ∈ t.functions, IsMember source s.node f

/-- Some statements contribute their imports and exports, and symbols for some of their places. -/
structure Follows (source : Text) (ss : List Anchored) (c : Contribution) : Prop where
  imports : c.imports = (ss.filter (·.node.kind = .importStatement)).map fun s => importOf source s.node
  exports : c.exports = ss.flatMap fun s => exportsIn source s.node
  decls : ∃ sites : List Anchored, sites.Sublist (ss.flatMap Anchored.sites) ∧
    List.Forall₂ (IsSymbolAt source) sites c.decls

variable {source : Text} {ss ss' : List Anchored} {a b : Contribution}

theorem Follows.nil : Follows source [] {} := ⟨rfl, rfl, [], .refl _, .nil⟩

theorem Follows.append (ha : Follows source ss a) (hb : Follows source ss' b) :
    Follows source (ss ++ ss') (a.append b) := by
  obtain ⟨sites, hs, hd⟩ := ha.decls
  obtain ⟨sites', hs', hd'⟩ := hb.decls
  refine ⟨?_, ?_, sites ++ sites', ?_, List.rel_append hd hd'⟩
  · rw [Contribution.append, ha.imports, hb.imports, List.filter_append, List.map_append]
  · rw [Contribution.append, ha.exports, hb.exports, List.flatMap_append]
  · rw [List.flatMap_append]
    exact hs.append hs'

/-! ## Members -/

theorem mem_of_mem_withBefore {before ns : List Node} {p : List Node × Node} (h : p ∈ withBefore before ns) :
    p.2 ∈ ns := by
  induction ns generalizing before with
  | nil => cases h
  | cons n ns ih =>
    rcases List.mem_cons.mp h with rfl | h
    · exact List.mem_cons_self
    · exact List.mem_cons_of_mem _ (ih h)

theorem mem_functions_addMember {t : TypeDecl} {p : List Node × Node} {f : FunctionDecl}
    (h : f ∈ (addMember source t p).functions) : f ∈ t.functions ∨ f = methodOf source p.1 p.2 := by
  obtain ⟨before, n⟩ := p
  rw [addMember] at h
  split at h
  · extract_lets m at h
    split at h
    · simp only [TypeDecl.functions, Option.toList_some, List.mem_append, List.mem_singleton] at h ⊢
      exact h.imp .inl id
    · simp only [TypeDecl.functions, List.mem_append, List.mem_singleton] at h ⊢
      tauto
  · split at h <;> exact .inl h

theorem mem_functions_addSignature {t : TypeDecl} {p : List Node × Node} {f : FunctionDecl}
    (h : f ∈ (addSignature source t p).functions) : f ∈ t.functions ∨ f = methodOf source p.1 p.2 := by
  obtain ⟨before, n⟩ := p
  rw [addSignature] at h
  split at h
  · exact .inl h
  · split at h
    · simp only [TypeDecl.functions, List.mem_append, List.mem_singleton] at h ⊢
      tauto
    · exact .inl h

/-- An addition of members to types that adds no other functions and leaves their name and lines as they are. -/
structure AddsMembers (source : Text) (add : TypeDecl → List Node × Node → TypeDecl) : Prop where
  name : ∀ t p, (add t p).name = t.name
  startLine : ∀ t p, (add t p).startLine = t.startLine
  endLine : ∀ t p, (add t p).endLine = t.endLine
  functions : ∀ t p, ∀ f ∈ (add t p).functions, f ∈ t.functions ∨ f = methodOf source p.1 p.2

theorem addMember_addsMembers : AddsMembers source (addMember source) := by
  refine ⟨?_, ?_, ?_, fun t p f => mem_functions_addMember⟩ <;>
  · intro t p
    simp only [addMember]
    split_ifs <;> rfl

theorem addSignature_addsMembers : AddsMembers source (addSignature source) := by
  refine ⟨?_, ?_, ?_, fun t p f => mem_functions_addSignature⟩ <;>
  · intro t p
    simp only [addSignature]
    split_ifs <;> rfl

theorem AddsMembers.foldl {add : TypeDecl → List Node × Node → TypeDecl} (hadd : AddsMembers source add)
    (ps : List (List Node × Node)) (t : TypeDecl) :
    (ps.foldl add t).name = t.name ∧ (ps.foldl add t).startLine = t.startLine ∧
      (ps.foldl add t).endLine = t.endLine ∧
      ∀ f ∈ (ps.foldl add t).functions, f ∈ t.functions ∨ ∃ p ∈ ps, f = methodOf source p.1 p.2 := by
  induction ps generalizing t with
  | nil => exact ⟨rfl, rfl, rfl, fun f hf => .inl hf⟩
  | cons p ps ih =>
    obtain ⟨hname, hstart, hend, hfunctions⟩ := ih (add t p)
    refine ⟨hname.trans (hadd.name t p), hstart.trans (hadd.startLine t p), hend.trans (hadd.endLine t p), ?_⟩
    intro f hf
    rcases hfunctions f hf with hf | ⟨q, hq, rfl⟩
    · rcases hadd.functions t p f hf with hf | rfl
      · exact .inl hf
      · exact .inr ⟨p, List.mem_cons_self, rfl⟩
    · exact .inr ⟨q, List.mem_cons_of_mem _ hq, rfl⟩

/-- A type whose members are those of the body of its node. -/
theorem AddsMembers.isSymbolAt {add : TypeDecl → List Node × Node → TypeDecl} (hadd : AddsMembers source add)
    {n anchor : Node} {t : TypeDecl} (hname : t.name = textOf source (n.child? .name))
    (hstart : t.startLine = Script.startLine anchor) (hend : t.endLine = Script.endLine anchor)
    (hfunctions : t.functions = []) :
    IsSymbolAt source ⟨n, anchor⟩
      (.type ((withBefore [] (((n.child? .body).map Tree.children).getD [])).foldl add t)) := by
  obtain ⟨hname', hstart', hend', hmembers⟩ :=
    hadd.foldl (withBefore [] (((n.child? .body).map Tree.children).getD [])) t
  refine ⟨hname'.trans hname, hstart'.trans hstart, hend'.trans hend, ?_⟩
  intro u hu f hf
  cases hu
  rcases hmembers f hf with hf | ⟨p, hp, rfl⟩
  · rw [hfunctions] at hf
    cases hf
  · have hm := mem_of_mem_withBefore hp
    cases hbody : n.child? .body with
    | none =>
      rw [hbody] at hm
      cases hm
    | some body =>
      rw [hbody] at hm
      exact ⟨body, hbody, p.2, hm, rfl, rfl, rfl⟩

theorem classOf?_isSymbolAt {n anchor : Node} {before : List Node} {t : TypeDecl}
    (h : classOf? source n before anchor = some t) : IsSymbolAt source ⟨n, anchor⟩ (.type t) := by
  rw [classOf?] at h
  split at h
  · cases h
  · cases h
    exact AddsMembers.isSymbolAt addMember_addsMembers rfl rfl rfl rfl

theorem interfaceOf_isSymbolAt (n anchor : Node) (before : List Node) :
    IsSymbolAt source ⟨n, anchor⟩ (.type (interfaceOf source n before anchor)) :=
  AddsMembers.isSymbolAt addSignature_addsMembers rfl rfl rfl rfl

theorem functionOf_isSymbolAt {name : Text} {v n anchor : Node} {before : List Node}
    (h : name = textOf source (v.child? .name)) :
    IsSymbolAt source ⟨v, anchor⟩ (.function (functionOf source name n before anchor)) :=
  ⟨h, rfl, rfl, fun t ht => by cases ht⟩

/-! ## Contributions -/

/-- The variables whose value is a function are symbols at their places. -/
theorem functionVariables_sites (n anchor : Node) (before : List Node) :
    ∃ sites : List Anchored,
      sites.Sublist (((namedChildren n).filter (·.kind = .variableDeclarator)).map (⟨·, anchor⟩)) ∧
      List.Forall₂ (IsSymbolAt source) sites ((functionVariables source n before anchor).map .function) := by
  rw [functionVariables]
  induction namedChildren n with
  | nil => exact ⟨[], .refl _, .nil⟩
  | cons v vs ih =>
    obtain ⟨sites, hs, hd⟩ := ih
    rw [List.filterMap_cons]
    split
    · exact ⟨sites, hs.trans ((List.sublist_cons_self v vs).filter _ |>.map _), hd⟩
    · rename_i f hf
      split at hf
      · rename_i hkind
        split at hf
        · rename_i name value hname hvalue
          split at hf
          · cases hf
            refine ⟨⟨v, anchor⟩ :: sites, ?_, .cons (functionOf_isSymbolAt (by rw [hname]; rfl)) hd⟩
            rw [List.filter_cons, if_pos (by simpa using hkind)]
            exact hs.cons_cons _
          · cases hf
        · cases hf
      · cases hf

theorem declared_sites (n anchor : Node) (before : List Node) :
    ∃ sites : List Anchored, sites.Sublist (Anchored.sites ⟨n, anchor⟩) ∧
      List.Forall₂ (IsSymbolAt source) sites (declared source before anchor n).decls := by
  rw [declared, Anchored.sites]
  by_cases hvariable : isVariableDeclaration n.kind = true
  · have hfunction : isFunctionDeclaration n.kind ≠ true := by
      simp only [isVariableDeclaration, Bool.or_eq_true, decide_eq_true_eq] at hvariable
      rcases hvariable with h | h <;> rw [h] <;> decide
    rw [if_pos hvariable, if_neg hfunction, if_pos hvariable]
    exact functionVariables_sites n anchor before
  · rw [if_neg hvariable, if_neg hvariable]
    by_cases hfunction : isFunctionDeclaration n.kind = true
    · rw [if_pos hfunction, if_pos (by simp [hfunction])]
      split
      · exact ⟨[], List.nil_sublist _, .nil⟩
      · rename_i name hname
        exact ⟨_, .refl _, .cons (functionOf_isSymbolAt rfl) .nil⟩
    · rw [if_neg hfunction]
      by_cases hclass : isClass n.kind = true
      · rw [if_pos hclass, if_pos (by simp [hclass])]
        cases h : classOf? source n before anchor with
        | none => exact ⟨[], List.nil_sublist _, .nil⟩
        | some t => exact ⟨_, .refl _, .cons (classOf?_isSymbolAt h) .nil⟩
      · rw [if_neg hclass]
        by_cases hinterface : n.kind = .interfaceDeclaration
        · rw [if_pos hinterface, if_pos (by simp [hinterface])]
          exact ⟨_, .refl _, .cons (interfaceOf_isSymbolAt n anchor before) .nil⟩
        · rw [if_neg hinterface]
          refine ⟨[], List.nil_sublist _, ?_⟩
          split <;> exact .nil

theorem declared_follows (n anchor : Node) (before : List Node) (himport : n.kind ≠ .importStatement)
    (hexport : n.kind ≠ .exportStatement) : Follows source [⟨n, anchor⟩] (declared source before anchor n) := by
  refine ⟨?_, ?_, by simpa using declared_sites n anchor before⟩
  · rw [List.filter_cons, if_neg (by simpa using himport)]
    rw [declared]
    repeat' split
    all_goals rfl
  · rw [List.flatMap_singleton, exportsIn, if_neg hexport, if_neg himport, declared, declared]
    repeat' split
    all_goals rfl

theorem contribution_eq (before anchorBefore : List Node) (anchor n : Node) :
    contribution source before anchorBefore anchor n =
      if n.kind = .importStatement then { imports := [importOf source n] }
      else if n.kind = .exportStatement then
        (contribution.ofDeclaration source before n [] n.children).append { exports := exportsOf source n }
      else declared source anchorBefore anchor n := by
  cases n
  rw [contribution]
  rfl

/-- What the declaration of an export contributes, if there is one. -/
theorem ofDeclaration_cases (exportBefore before : List Node) (exported : Node) (cs : List Node) :
    (cs.find? (fun c => decide (c.field = some .declaration)) = none ∧
      contribution.ofDeclaration source exportBefore exported before cs = {}) ∨
    ∃ d front after, cs.find? (fun c => decide (c.field = some .declaration)) = some d ∧ cs = front ++ d :: after ∧
      contribution.ofDeclaration source exportBefore exported before cs =
        contribution source (front.reverse ++ before) exportBefore exported d := by
  induction cs generalizing before with
  | nil => exact .inl ⟨rfl, by rw [contribution.ofDeclaration]⟩
  | cons c cs ih =>
    rw [contribution.ofDeclaration, List.find?_cons]
    by_cases hc : c.field = some .declaration
    · exact .inr ⟨c, [], cs, by simp [hc], rfl, if_pos hc⟩
    · rw [if_neg hc]
      rcases ih (c :: before) with ⟨hd, he⟩ | ⟨d, front, after, hd, rfl, he⟩
      · exact .inl ⟨by simpa [hc] using hd, he⟩
      · exact .inr ⟨d, c :: front, after, by simpa [hc] using hd, rfl, by simpa using he⟩

theorem exportsOf_follows {n anchor : Node} (hn : n.kind = .exportStatement) :
    Follows source [⟨n, anchor⟩] { exports := exportsOf source n } := by
  refine ⟨?_, ?_, [], List.nil_sublist _, .nil⟩
  · simp [hn]
  · simp [exportsIn, hn]

theorem importOf_follows {n anchor : Node} (hn : n.kind = .importStatement) :
    Follows source [⟨n, anchor⟩] { imports := [importOf source n] } := by
  refine ⟨?_, ?_, [], List.nil_sublist _, .nil⟩
  · simp [hn]
  · simp [exportsIn, hn]

/-- The induction goes from the declaration of an export to the export. -/
theorem contribution_follows (n : Node) : ∀ before anchorBefore anchor,
    Follows source (statementsOf anchor n) (contribution source before anchorBefore anchor n) := by
  induction n using declaration_induct with
  | step n ih =>
    intro before anchorBefore anchor
    rw [contribution_eq, statementsOf]
    split
    · rename_i himport
      rw [inner_eq, if_neg (by rw [himport]; decide)]
      exact importOf_follows himport
    · rename_i himport
      split
      · rename_i hexport
        refine Follows.append ?_ (exportsOf_follows hexport)
        rw [inner_eq, if_pos hexport]
        rcases ofDeclaration_cases before [] n n.children with ⟨hd, he⟩ | ⟨d, front, after, hd, -, he⟩
        · rw [he, show n.child? .declaration = none from hd]
          exact .nil
        · rw [he, show n.child? .declaration = some d from hd]
          exact ih d hd _ before n
      · rename_i hexport
        rw [inner_eq, if_neg hexport]
        exact declared_follows n anchor anchorBefore himport hexport

/-- A symbol comes from one of the contributions. -/
theorem mem_decls_foldl {d : Decl} {cs : List Contribution} {c : Contribution}
    (h : d ∈ (cs.foldl Contribution.append c).decls) : d ∈ c.decls ∨ ∃ c' ∈ cs, d ∈ c'.decls := by
  induction cs generalizing c with
  | nil => exact .inl h
  | cons c' cs ih =>
    rcases ih h with h | ⟨c'', hc, h⟩
    · exact (List.mem_append.mp h).imp_right fun h => ⟨c', List.mem_cons_self, h⟩
    · exact .inr ⟨c'', List.mem_cons_of_mem _ hc, h⟩

/-- The contributions of statements one after the other. -/
theorem follows_foldl (ps : List (List Node × Node)) {before : List Anchored} {c : Contribution}
    (hc : Follows source before c) :
    Follows source (before ++ ps.flatMap fun p => statementsOf p.2 p.2)
      ((ps.map (ofStatement source)).foldl Contribution.append c) := by
  induction ps generalizing before c with
  | nil => simpa using hc
  | cons p ps ih =>
    have h := ih (hc.append (contribution_follows p.2 p.1 p.1 p.2))
    rwa [List.append_assoc] at h

theorem map_withBefore (before ns : List Node) : (withBefore before ns).map Prod.snd = ns := by
  induction ns generalizing before with
  | nil => rfl
  | cons n ns ih => rw [withBefore, List.map_cons, ih]

/-- **An outline comes from the statements of the script.** -/
theorem outlineOf_follows (language path : Text) (root : Node) :
    let o := outlineOf language path source root
    Follows source (statements root) ⟨o.decls, o.imports, o.exports⟩ := by
  have hs : statements root =
      ((withBefore [] root.children).filter (·.2.kind.isNamed)).flatMap fun p => statementsOf p.2 p.2 := by
    conv_lhs => rw [statements, ← map_withBefore [] root.children, List.filter_map, List.flatMap_map]
    rfl
  rw [hs]
  exact follows_foldl _ .nil

end SourceDoc.Script
