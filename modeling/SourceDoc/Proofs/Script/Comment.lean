import SourceDoc.Extractor.Basic
import SourceDoc.Proofs.Script.Statement
import SourceDoc.Proofs.Text.Comment

/-!
# The comments of a script

Of the siblings before a node the nearest are perhaps comments, one below the other with at most one blank line between
neighbours (`IsChainAbove`).  Those of them that share no line with the node nor with the code before them stand alone
(`standsAlone`).  These are the comments of the node,

    d.comments = joined (texts of the chain that stand alone) ↔ every other one in the chain has no text
                                                                                    (scriptOutlineBy_comments)

unless a comment at the end of a line of code, or in front of the node on its own line, has a text: then that is attached
too.
-/

namespace SourceDoc

/-- A node of a tree: its root, or a child of one of its nodes. -/
inductive Grammar.Tree.Contains {κ φ : Type} (root : Grammar.Tree κ φ) : Grammar.Tree κ φ → Prop
  | root : Contains root root
  | child {n c : Grammar.Tree κ φ} : Contains root n → c ∈ n.children → Contains root c

namespace Script

open Grammar Text

/-! ## Comments above a node -/

/-- The text of a comment without its markers. -/
def commentText (source : Text) (c : Node) : Text := stripComment (c.text source)

/-- Comments one below the other, the lowest first, above a row, with at most one blank line between neighbours. -/
inductive IsChain : Nat → List Node → Prop
  | nil (row : Nat) : IsChain row []
  | cons {row : Nat} {c : Node} {above : List Node} : c.kind = .comment → row ≤ c.stop.row + 2 →
      IsChain c.start.row above → IsChain row (c :: above)

/-- The nearest of the siblings before a node, as many as are a chain of comments above it. -/
structure IsChainAbove (before : List Node) (n : Node) (chain : List Node) : Prop where
  nearest : chain <+: before
  isChain : IsChain n.start.row chain
  longest : ∀ c, chain ++ [c] <+: before → ¬ IsChain n.start.row (chain ++ [c])

/-- No code before a comment ends on the line where the comment starts, and the node below it does not start where it
ends. -/
def standsAlone (before : List Node) (n c : Node) : Bool :=
  before.all (fun s => s.kind = .comment || s.stop.row ≠ c.start.row) && c.stop.row ≠ n.start.row

/-- The comments of a node: all texts of its chain, and so those of the comments that stand alone if the others have no
text. -/
def IsCommented (source : Text) (before : List Node) (n : Node) (comments : Option Text) : Prop :=
  ∃ chain, IsChainAbove before n chain ∧
    comments = joined (chain.reverse.map (commentText source)) ∧
    (comments = joined ((chain.reverse.filter (standsAlone before n)).map (commentText source)) ↔
      ∀ c ∈ chain, standsAlone before n c = false → commentText source c = [])

theorem commentsAbove_isChainAbove (before : List Node) (n : Node) :
    IsChainAbove before n (commentsAbove n.start.row before) := by
  suffices h : ∀ row, commentsAbove row before <+: before ∧ IsChain row (commentsAbove row before) ∧
      ∀ c, commentsAbove row before ++ [c] <+: before → ¬ IsChain row (commentsAbove row before ++ [c]) from
    ⟨(h _).1, (h _).2.1, (h _).2.2⟩
  induction before with
  | nil =>
    intro row
    refine ⟨List.prefix_refl _, .nil row, fun c h => ?_⟩
    have := h.length_le
    simp at this
  | cons s before ih =>
    intro row
    rw [commentsAbove]
    split
    · rename_i hs
      obtain ⟨hnearest, hchain, hlongest⟩ := ih s.start.row
      refine ⟨?_, .cons hs.1 (by omega) hchain, fun c h hc => ?_⟩
      · exact List.cons_prefix_cons.mpr ⟨rfl, hnearest⟩
      · rw [List.cons_append] at h hc
        cases hc with
        | cons _ _ hc => exact hlongest c (List.cons_prefix_cons.mp h).2 hc
    · rename_i hs
      refine ⟨List.nil_prefix, .nil row, fun c h hc => ?_⟩
      obtain ⟨rfl, -⟩ := List.cons_prefix_cons.mp h
      cases hc with
      | cons hkind hrow _ => exact hs ⟨hkind, by omega⟩

theorem isCommented_leadingComments (source : Text) (before : List Node) (n : Node) :
    IsCommented source before n (leadingComments source before n) := by
  have hjoined : leadingComments source before n =
      joined ((commentsAbove n.start.row before).reverse.map (commentText source)) := by
    rw [List.map_reverse]
    refine joinComments_eq fun t ht => ?_
    obtain ⟨c, -, rfl⟩ := List.mem_map.mp (List.mem_reverse.mp ht)
    exact strip_stripComment _
  refine ⟨commentsAbove n.start.row before, commentsAbove_isChainAbove before n, hjoined, ?_⟩
  rw [hjoined, joined_filter_iff]
  simp only [List.mem_reverse]

/-! ## Siblings -/

/-- The nodes before a child of a node of the tree, nearest first. -/
def StandsAmong (root : Node) (before : List Node) (n : Node) : Prop :=
  ∃ parent after, root.Contains parent ∧ parent.children = before.reverse ++ n :: after

theorem mem_withBefore {before before' ns : List Node} {n : Node} (h : (before', n) ∈ withBefore before ns) :
    ∃ front after, ns = front ++ n :: after ∧ before' = front.reverse ++ before := by
  induction ns generalizing before with
  | nil => cases h
  | cons m ns ih =>
    rcases List.mem_cons.mp h with heq | h
    · cases heq
      exact ⟨[], ns, rfl, rfl⟩
    · obtain ⟨front, after, rfl, rfl⟩ := ih h
      exact ⟨m :: front, after, rfl, by rw [List.reverse_cons, List.append_assoc]; rfl⟩

theorem standsAmong_of_mem {root parent : Node} (hparent : root.Contains parent) {before : List Node} {n : Node}
    (h : (before, n) ∈ withBefore [] parent.children) : StandsAmong root before n := by
  obtain ⟨front, after, hchildren, hbefore⟩ := mem_withBefore h
  rw [List.append_nil] at hbefore
  exact ⟨parent, after, hparent, by rw [hbefore, List.reverse_reverse]; exact hchildren⟩

theorem StandsAmong.contains {root n : Node} {before : List Node} (h : StandsAmong root before n) : root.Contains n := by
  obtain ⟨parent, after, hparent, hchildren⟩ := h
  exact .child hparent (hchildren ▸ List.mem_append_right _ List.mem_cons_self)

/-! ## Members -/

/-- A member in the body of a type, with the nodes before it, nearest first. -/
def StandsIn (type : Node) (before : List Node) (m : Node) : Prop :=
  ∃ body after, type.child? .body = some body ∧ body.children = before.reverse ++ m :: after

/-- A method or a constructor with the comments of its node. -/
def IsMethodIn (source : Text) (type : Node) (f : FunctionDecl) : Prop :=
  ∃ before m, StandsIn type before m ∧ f.name = textOf source (m.child? .name) ∧ f.startLine = startLine m ∧
    f.endLine = endLine m ∧ IsCommented source before m f.comments

/-- A field or a property signature with the comments of its node, or a field that a parameter of a method declares,
which has none. -/
def IsPropertyIn (source : Text) (type : Node) (p : Property) : Prop :=
  ∃ before m, StandsIn type before m ∧
    ((m.kind = .fieldDefinition ∨ m.kind = .propertySignature) ∧ p.name = textOf source (m.child? .name) ∧
        IsCommented source before m p.comments ∨
      m.kind = .methodDefinition ∧ p ∈ parameterFields source m ∧ p.comments = none)

/-- An addition of members to types that leaves their comments as they are and adds no other properties. -/
structure AddsProperties (source : Text) (add : TypeDecl → List Node × Node → TypeDecl) : Prop where
  comments : ∀ t q, (add t q).comments = t.comments
  properties : ∀ t q, ∀ p ∈ (add t q).properties, p ∈ t.properties ∨
    (q.2.kind = .fieldDefinition ∨ q.2.kind = .propertySignature) ∧ p.name = textOf source (q.2.child? .name) ∧
        p.comments = leadingComments source q.1 q.2 ∨
    q.2.kind = .methodDefinition ∧ p ∈ parameterFields source q.2

theorem addMember_addsProperties (source : Text) : AddsProperties source (addMember source) := by
  refine ⟨fun t q => ?_, fun t q p hp => ?_⟩
  · simp only [addMember]
    split_ifs <;> rfl
  · simp only [addMember] at hp
    split at hp
    · rename_i hmethod
      split at hp
      · exact (List.mem_append.mp hp).imp_right fun hp => .inr ⟨hmethod, hp⟩
      · exact .inl hp
    · split at hp
      · rename_i hfield
        refine (List.mem_append.mp hp).imp_right fun hp => .inl ⟨.inl hfield.1, ?_⟩
        rw [List.mem_singleton.mp hp]
        exact ⟨rfl, rfl⟩
      · exact .inl hp

theorem addSignature_addsProperties (source : Text) : AddsProperties source (addSignature source) := by
  refine ⟨fun t q => ?_, fun t q p hp => ?_⟩
  · simp only [addSignature]
    split_ifs <;> rfl
  · simp only [addSignature] at hp
    split at hp
    · rename_i hproperty
      refine (List.mem_append.mp hp).imp_right fun hp => .inl ⟨.inr hproperty, ?_⟩
      rw [List.mem_singleton.mp hp]
      exact ⟨rfl, rfl⟩
    · split at hp <;> exact .inl hp

theorem AddsProperties.foldl {source : Text} {add : TypeDecl → List Node × Node → TypeDecl}
    (hadd : AddsProperties source add) (qs : List (List Node × Node)) (t : TypeDecl) :
    (qs.foldl add t).comments = t.comments ∧ ∀ p ∈ (qs.foldl add t).properties, p ∈ t.properties ∨ ∃ q ∈ qs,
      (q.2.kind = .fieldDefinition ∨ q.2.kind = .propertySignature) ∧ p.name = textOf source (q.2.child? .name) ∧
          p.comments = leadingComments source q.1 q.2 ∨
      q.2.kind = .methodDefinition ∧ p ∈ parameterFields source q.2 := by
  induction qs generalizing t with
  | nil => exact ⟨rfl, fun p hp => .inl hp⟩
  | cons q qs ih =>
    obtain ⟨hcomments, hproperties⟩ := ih (add t q)
    refine ⟨hcomments.trans (hadd.comments t q), fun p hp => ?_⟩
    rcases hproperties p hp with hp | ⟨q', hq', hp⟩
    · exact (hadd.properties t q p hp).imp_right fun hp => ⟨q, List.mem_cons_self, hp⟩
    · exact .inr ⟨q', List.mem_cons_of_mem _ hq', hp⟩

/-- A field that a parameter declares has no comments. -/
theorem comments_parameterFields {source : Text} {n : Node} {p : Property} (h : p ∈ parameterFields source n) :
    p.comments = none := by
  unfold parameterFields at h
  split at h
  · cases h
  · obtain ⟨parameter, -, h⟩ := List.mem_filterMap.mp h
    split at h
    · obtain ⟨m, -, rfl⟩ := Option.map_eq_some_iff.mp h
      rfl
    · cases h

theorem standsIn_of_mem {type : Node} {before : List Node} {m : Node}
    (h : (before, m) ∈ withBefore [] (((type.child? .body).map Tree.children).getD [])) : StandsIn type before m := by
  obtain ⟨front, after, hchildren, hbefore⟩ := mem_withBefore h
  rw [List.append_nil] at hbefore
  cases hbody : type.child? .body with
  | none =>
    rw [hbody] at hchildren
    exact absurd hchildren.symm (List.append_ne_nil_of_right_ne_nil _ (List.cons_ne_nil _ _))
  | some body =>
    rw [hbody] at hchildren
    exact ⟨body, after, hbody, by rw [hbefore, List.reverse_reverse]; exact hchildren⟩

/-- **The members of a type have the comments of their nodes.** -/
theorem members_commented {source : Text} {add : TypeDecl → List Node × Node → TypeDecl}
    (hmembers : AddsMembers source add) (hproperties : AddsProperties source add) (n : Node) {t u : TypeDecl}
    (ht : t.functions = [] ∧ t.properties = [])
    (hu : u = (withBefore [] (((n.child? .body).map Tree.children).getD [])).foldl add t) :
    u.comments = t.comments ∧ (∀ f ∈ u.functions, IsMethodIn source n f) ∧
      ∀ p ∈ u.properties, IsPropertyIn source n p := by
  obtain ⟨-, -, -, hfunctions⟩ := hmembers.foldl (withBefore [] (((n.child? .body).map Tree.children).getD [])) t
  obtain ⟨hcomments, hproperties⟩ := hproperties.foldl (withBefore [] (((n.child? .body).map Tree.children).getD [])) t
  rw [hu]
  refine ⟨hcomments, fun f hf => ?_, fun p hp => ?_⟩
  · rcases hfunctions f hf with hf | ⟨⟨before, m⟩, hm, rfl⟩
    · rw [ht.1] at hf
      cases hf
    · exact ⟨before, m, standsIn_of_mem hm, rfl, rfl, rfl, isCommented_leadingComments source before m⟩
  · rcases hproperties p hp with hp | ⟨⟨before, m⟩, hm, ⟨hkind, hname, hp⟩ | ⟨hkind, hp⟩⟩
    · rw [ht.2] at hp
      cases hp
    · exact ⟨before, m, standsIn_of_mem hm, .inl ⟨hkind, hname, hp ▸ isCommented_leadingComments source before m⟩⟩
    · exact ⟨before, m, standsIn_of_mem hm, .inr ⟨hkind, hp, comments_parameterFields hp⟩⟩

/-! ## Symbols -/

/-- A symbol has the comments of the statement that its place belongs to, and its members have those of their nodes. -/
structure IsCommentedAt (source : Text) (root : Node) (s : Anchored) (d : Decl) : Prop where
  symbol : IsSymbolAt source s d
  comments : ∃ before, StandsAmong root before s.anchor ∧ IsCommented source before s.anchor d.comments
  methods : ∀ t, d.type? = some t → ∀ f ∈ t.functions, IsMethodIn source s.node f
  properties : ∀ t, d.type? = some t → ∀ p ∈ t.properties, IsPropertyIn source s.node p

section

variable {source : Text} {root n anchor : Node} {before : List Node}

theorem functionOf_isCommentedAt {v : Node} {name : Text} (h : StandsAmong root before anchor)
    (hname : name = textOf source (v.child? .name)) :
    IsCommentedAt source root ⟨v, anchor⟩ (.function (functionOf source name n before anchor)) where
  symbol := functionOf_isSymbolAt hname
  comments := ⟨before, h, isCommented_leadingComments source before anchor⟩
  methods _ ht := by cases ht
  properties _ ht := by cases ht

theorem classOf_isCommentedAt {t : TypeDecl} (h : StandsAmong root before anchor)
    (ht : classOf? source n before anchor = some t) : IsCommentedAt source root ⟨n, anchor⟩ (.type t) := by
  have hsymbol := classOf?_isSymbolAt ht
  rw [classOf?] at ht
  split at ht
  · cases ht
  · obtain ⟨hcomments, hmethods, hproperties⟩ := members_commented addMember_addsMembers
      (addMember_addsProperties source) n ⟨rfl, rfl⟩ (Option.some.inj ht).symm
    refine ⟨hsymbol, ⟨before, h, ?_⟩, fun u hu => by cases hu; exact hmethods, fun u hu => by cases hu; exact hproperties⟩
    rw [show (Decl.type t).comments = leadingComments source before anchor from hcomments]
    exact isCommented_leadingComments source before anchor

theorem interfaceOf_isCommentedAt (h : StandsAmong root before anchor) :
    IsCommentedAt source root ⟨n, anchor⟩ (.type (interfaceOf source n before anchor)) := by
  obtain ⟨hcomments, hmethods, hproperties⟩ := members_commented addSignature_addsMembers
    (addSignature_addsProperties source) n ⟨rfl, rfl⟩ (rfl : interfaceOf source n before anchor = _)
  refine ⟨interfaceOf_isSymbolAt n anchor before, ⟨before, h, ?_⟩, fun u hu => by cases hu; exact hmethods,
    fun u hu => by cases hu; exact hproperties⟩
  rw [show (Decl.type (interfaceOf source n before anchor)).comments = leadingComments source before anchor from
    hcomments]
  exact isCommented_leadingComments source before anchor

/-- A variable whose value is a function has the comments of the declaration. -/
theorem functionVariables_commented (h : StandsAmong root before anchor) :
    ∀ f ∈ functionVariables source n before anchor, ∃ v ∈ (namedChildren n).filter (·.kind = .variableDeclarator),
      IsCommentedAt source root ⟨v, anchor⟩ (.function f) := by
  intro f hf
  obtain ⟨v, hv, hf⟩ := List.mem_filterMap.mp hf
  split at hf
  · rename_i hkind
    split at hf
    · rename_i name value hname hvalue
      split at hf
      · cases hf
        refine ⟨v, List.mem_filter.mpr ⟨hv, decide_eq_true hkind⟩, functionOf_isCommentedAt h ?_⟩
        rw [hname]
        rfl
      · cases hf
    · cases hf
  · cases hf

/-- **A declaration has the comments of its anchor.** -/
theorem declared_commented (h : StandsAmong root before anchor) :
    ∀ d ∈ (declared source before anchor n).decls, ∃ s ∈ Anchored.sites ⟨n, anchor⟩, IsCommentedAt source root s d := by
  intro d hd
  rw [declared] at hd
  rw [Anchored.sites]
  by_cases hvariable : isVariableDeclaration n.kind = true
  · have hfunction : isFunctionDeclaration n.kind ≠ true := by
      simp only [isVariableDeclaration, Bool.or_eq_true, decide_eq_true_eq] at hvariable
      rcases hvariable with hkind | hkind <;> rw [hkind] <;> decide
    rw [if_neg hfunction, if_pos hvariable] at hd
    obtain ⟨f, hf, rfl⟩ := List.mem_map.mp hd
    obtain ⟨v, hv, hcommented⟩ := functionVariables_commented h f hf
    rw [if_pos hvariable]
    exact ⟨_, List.mem_map_of_mem hv, hcommented⟩
  rw [if_neg hvariable] at hd ⊢
  split at hd
  · rename_i hfunction
    split at hd
    · cases hd
    · cases List.mem_singleton.mp hd
      exact ⟨_, by simp [hfunction], functionOf_isCommentedAt h rfl⟩
  split at hd
  · rename_i hclass
    obtain ⟨t, ht, rfl⟩ := List.mem_map.mp hd
    exact ⟨_, by simp [hclass], classOf_isCommentedAt h (Option.mem_toList.mp ht)⟩
  split at hd
  · rename_i hinterface
    cases List.mem_singleton.mp hd
    exact ⟨_, by simp [hinterface], interfaceOf_isCommentedAt h⟩
  · split at hd <;> cases hd

/-- The induction goes from the declaration of an export to the export. -/
theorem contribution_commented (n : Node) : ∀ before anchorBefore anchor, StandsAmong root before n →
    StandsAmong root anchorBefore anchor → ∀ d ∈ (contribution source before anchorBefore anchor n).decls,
      ∃ s ∈ (statementsOf anchor n).flatMap Anchored.sites, IsCommentedAt source root s d := by
  induction n using declaration_induct with
  | step n ih =>
    intro before anchorBefore anchor hn hanchor d hd
    rw [contribution_eq] at hd
    rw [statementsOf, List.flatMap_append]
    split at hd
    · cases hd
    split at hd
    · rename_i hexport
      have hd : d ∈ (contribution.ofDeclaration source before n [] n.children).decls := by
        simpa [Contribution.append] using hd
      rcases ofDeclaration_cases before [] n n.children with ⟨-, he⟩ | ⟨e, front, after, hfind, hchildren, he⟩
      · rw [he] at hd
        cases hd
      · rw [he, List.append_nil] at hd
        have hfront : StandsAmong root front.reverse e :=
          ⟨n, after, hn.contains, by rw [List.reverse_reverse]; exact hchildren⟩
        obtain ⟨s, hs, hcommented⟩ := ih e hfind front.reverse before n hfront hn d hd
        refine ⟨s, List.mem_append_left _ ?_, hcommented⟩
        rwa [inner_of_declaration hexport hfind]
    · obtain ⟨s, hs, hcommented⟩ := declared_commented hanchor d hd
      exact ⟨s, List.mem_append_right _ (by simpa using hs), hcommented⟩

end

/-- **The symbols of an outline have the comments of their statements.** -/
theorem outlineOf_commented (language path source : Text) (root : Node) :
    ∀ d ∈ (outlineOf language path source root).decls,
      ∃ s ∈ (statements root).flatMap Anchored.sites, IsCommentedAt source root s d := by
  intro d hd
  rcases mem_decls_foldl hd with hd | ⟨c, hc, hd⟩
  · cases hd
  · obtain ⟨⟨before, n⟩, hn, rfl⟩ := List.mem_map.mp hc
    obtain ⟨hn, hnamed⟩ := List.mem_filter.mp hn
    have hstands := standsAmong_of_mem .root hn
    obtain ⟨s, hs, hcommented⟩ := contribution_commented n before before n hstands hstands d hd
    refine ⟨s, ?_, hcommented⟩
    obtain ⟨a, ha, hs⟩ := List.mem_flatMap.mp hs
    refine List.mem_flatMap.mpr ⟨a, List.mem_flatMap.mpr ⟨n, ?_, ha⟩, hs⟩
    exact List.mem_filter.mpr ⟨mem_of_mem_withBefore hn, hnamed⟩

end Script

namespace Extractor

/-- **Symbols and members have the comments alone on their lines directly above them, if no other comment there has a
text.** -/
theorem scriptOutlineBy_comments (parse? : Script.Dialect → Text → Option Script.Node) (l : Language)
    (path source : Text) :
    (parse? (dialectOf l path) source = none ∧ scriptOutlineBy parse? l path source = .error (.malformed { path })) ∨
      ∃ root o, parse? (dialectOf l path) source = some root ∧ scriptOutlineBy parse? l path source = .ok o ∧
        ∀ d ∈ o.decls, ∃ s ∈ (Script.statements root).flatMap Script.Anchored.sites,
          Script.IsCommentedAt source root s d := by
  rw [scriptOutlineBy]
  cases parse? (dialectOf l path) source with
  | none => exact .inl ⟨rfl, rfl⟩
  | some root => exact .inr ⟨root, _, rfl, rfl, Script.outlineOf_commented l.name path source root⟩

/-- A comment at the end of a line, and a function below. -/
def trailingScript : Text := "const x = 1; // trailing\nconst f = () => 2;\n".toList

/-- The comment is attached to the function, though no comment above it stands alone. -/
theorem scriptOutline_trailing : ∃ root o, Script.parse? .typed trailingScript = some root ∧
    scriptOutline .typescript "a.ts".toList trailingScript = .ok o ∧
    o.decls.map (fun d => (d.name, d.comments)) = [(['f'], some "trailing".toList)] ∧
    ∃ before n, (before, n) ∈ Script.withBefore [] root.children ∧ Script.startLine n = 2 ∧
      ∀ c ∈ before, Script.standsAlone before n c = false := by
  have hscript : (Script.parse? .typed trailingScript).map (fun root =>
      ((Script.outlineOf Language.typescript.name "a.ts".toList trailingScript root).decls.map fun d =>
          (d.name, d.comments),
        (Script.withBefore [] root.children).map fun p =>
          (Script.startLine p.2, p.1.map (Script.standsAlone p.1 p.2)))) =
      some ([(['f'], some "trailing".toList)], [(1, []), (1, [false]), (2, [false, false])]) := by
    rw [show trailingScript = _ from String.toList_ofList]
    decide +kernel
  obtain ⟨root, hroot, hread⟩ := Option.map_eq_some_iff.mp hscript
  obtain ⟨hdecls, hsiblings⟩ := Prod.mk.inj hread
  refine ⟨root, _, hroot, ?_, hdecls, ?_⟩
  · rw [scriptOutline, scriptOutlineBy, show dialectOf .typescript "a.ts".toList = .typed from rfl, hroot]
  · have hmem : (2, [false, false]) ∈ (Script.withBefore [] root.children).map fun p =>
        (Script.startLine p.2, p.1.map (Script.standsAlone p.1 p.2)) := by
      rw [hsiblings]
      exact List.mem_cons_of_mem _ (List.mem_cons_of_mem _ List.mem_cons_self)
    obtain ⟨⟨before, n⟩, hn, heq⟩ := List.mem_map.mp hmem
    obtain ⟨hline, halone⟩ := Prod.mk.inj heq
    refine ⟨before, n, hn, hline, fun c hc => ?_⟩
    have := halone ▸ List.mem_map_of_mem hc
    simpa using this

end Extractor

end SourceDoc
