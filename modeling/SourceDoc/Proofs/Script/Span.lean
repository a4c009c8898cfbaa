import SourceDoc.Proofs.Grammar.Tree
import SourceDoc.Proofs.Script.Statement

/-!
# Where the symbols of a script stand

In a tree whose rows are in order, the symbols, the imports and the exports of an outline stand where the statements do
that they come from (`outlineOf_isPlaced`): the lines of a symbol are lines of the source, its members stand within
them, and the symbols and the imports come in the order of their lines.  The exports do unless one of them straggles
(`Straggles`): what a declaration exports on its own line is listed before the default export around it, which may
start on an earlier line.
-/

namespace SourceDoc.Script

open Grammar

variable {source : Text} {root n anchor : Node}

/-! ## Statements in rows -/

/-- A node in order within the rows of its statement. -/
structure Anchored.IsOrdered (s : Anchored) : Prop where
  node : s.node.IsOrdered
  anchor : s.anchor.IsOrdered
  isIn : s.node.IsIn s.anchor

theorem statementsOf_isOrdered (n : Node) : ∀ anchor : Node, n.IsOrdered → anchor.IsOrdered → n.IsIn anchor →
    ∀ s ∈ statementsOf anchor n, s.IsOrdered ∧ s.anchor.IsIn anchor := by
  induction n using declaration_induct with
  | step n ih =>
    intro anchor hn ha hin s hs
    rcases List.mem_append.mp hs with hs | hs
    · rcases inner_cases n with hi | ⟨d, -, hd, hi⟩
      · rw [hi] at hs
        cases hs
      · rw [hi] at hs
        have hmem := mem_children hd
        obtain ⟨hs, hsn⟩ := ih d hd n (hn.of_mem hmem) hn (hn.isIn_of_mem hmem) s hs
        exact ⟨hs, hsn.trans hin⟩
    · rw [List.mem_singleton.mp hs]
      exact ⟨⟨hn, ha, hin⟩, .refl _⟩

/-- All statements in a statement but the first are exports. -/
theorem statementsOf_cons (n : Node) : ∀ anchor : Node, ∃ s exports, statementsOf anchor n = s :: exports ∧
    ∀ e ∈ exports, e.node.kind = .exportStatement := by
  induction n using declaration_induct with
  | step n ih =>
    intro anchor
    rw [statementsOf]
    rcases inner_cases n with hi | ⟨d, hn, hd, hi⟩
    · exact ⟨⟨n, anchor⟩, [], by rw [hi]; rfl, by simp⟩
    · obtain ⟨s, exports, he, hexports⟩ := ih d hd n
      refine ⟨s, exports ++ [⟨n, anchor⟩], by rw [hi, he]; rfl, ?_⟩
      intro e hm
      rcases List.mem_append.mp hm with hm | hm
      · exact hexports e hm
      · rw [List.mem_singleton.mp hm, hn]

/-- What the children of a node give on their lines is in order if what each of them gives is. -/
theorem pairwise_children {β : Type} {f : Node → List β} {line : β → Int} (hroot : root.IsOrdered)
    (hin : ∀ n ∈ root.children, ∀ b ∈ f n, startLine n ≤ line b ∧ line b ≤ endLine n) :
    ((root.children.filter (·.kind.isNamed)).flatMap f).Pairwise (fun a b => line a ≤ line b) ↔
      ∀ n ∈ root.children.filter (·.kind.isNamed), (f n).Pairwise fun a b => line a ≤ line b := by
  rw [List.pairwise_flatMap]
  refine and_iff_left (((Tree.isOrdered_iff.mp hroot).order.filter _).imp_of_mem ?_)
  intro m n hm hn hmn a ha b hb
  have ha := (hin m (List.mem_filter.mp hm).1 a ha).2
  have hb := (hin n (List.mem_filter.mp hn).1 b hb).1
  simp only [startLine, endLine] at ha hb
  omega

/-! ## Exports -/

/-- A default export around a statement that starts on a later line and makes names visible of its own: these are
listed before it. -/
def Straggles (source : Text) (n : Node) : Prop :=
  n.kind = .exportStatement ∧ n.has (.token "default") ∧
    ∃ s ∈ inner n, exportsIn source s.node ≠ [] ∧ n.start.row < s.node.start.row

/-- Of the statements that are neither imports nor exports, only an alias of a type exports something. -/
theorem declared_exports (before : List Node) (anchor n : Node) : (declared source before anchor n).exports = [] ∨
    n.kind = .typeAlias ∧ ∃ x, (declared source before anchor n).exports = [x] ∧ x.startLine = startLine n := by
  rw [declared]
  split_ifs with hfunction hvariable hclass hinterface halias
  · split <;> exact .inl rfl
  · exact .inl rfl
  · exact .inl rfl
  · exact .inl rfl
  · exact .inr ⟨halias, _, rfl, rfl⟩
  · exact .inl rfl

theorem exportsOf_startLine {x : Export} (hx : x ∈ exportsOf source n) : x.startLine = startLine n := by
  rw [exportsOf] at hx
  extract_lets line isDefault at hx
  split at hx
  · extract_lets names at hx
    split at hx
    · rw [List.mem_singleton.mp hx]
    · obtain ⟨p, -, rfl⟩ := List.mem_map.mp hx
      rfl
  · split at hx
    · rw [List.mem_singleton.mp hx]
    · obtain ⟨p, -, rfl⟩ := List.mem_map.mp hx
      rfl

theorem exportsIn_startLine {x : Export} (hx : x ∈ exportsIn source n) : x.startLine = startLine n := by
  rw [exportsIn] at hx
  split at hx
  · exact exportsOf_startLine hx
  · split at hx
    · cases hx
    · rcases declared_exports [] n n with h | ⟨-, y, h, hy⟩
      · rw [h] at hx
        cases hx
      · rw [h] at hx
        rw [List.mem_singleton.mp hx, hy]

/-- Only exports and aliases of types make names visible. -/
theorem kind_of_exportsIn (h : exportsIn source n ≠ []) : n.kind = .exportStatement ∨ n.kind = .typeAlias := by
  rw [exportsIn] at h
  split at h
  · rename_i hn
    exact .inl hn
  · split at h
    · exact absurd rfl h
    · rcases declared_exports [] n n with hnil | ⟨halias, -⟩
      · exact absurd hnil h
      · exact .inr halias

theorem kind_of_mem_inner {s : Anchored} (h : s ∈ inner n) : n.kind = .exportStatement := by
  rcases inner_cases n with hi | ⟨d, hn, -, -⟩
  · rw [hi] at h
    cases h
  · exact hn

/-- An export around a statement with names of its own has a name exactly if it is the default export. -/
theorem exportsOf_eq_nil_iff {s : Anchored} (hs : s ∈ inner n) (hne : exportsIn source s.node ≠ []) :
    exportsOf source n = [] ↔ n.has (.token "default") = false := by
  rcases inner_cases n with hin | ⟨d, -, hd, hin⟩
  · rw [hin] at hs
    cases hs
  · have hkind : d.kind = .exportStatement ∨ d.kind = .typeAlias := by
      rw [hin] at hs
      rcases List.mem_append.mp hs with hs | hs
      · exact .inl (kind_of_mem_inner hs)
      · rw [List.mem_singleton.mp hs] at hne
        exact kind_of_exportsIn hne
    have hnames : declaredNames source d = [] := by
      rw [declaredNames]
      rcases hkind with hk | hk <;> rw [hk] <;> rfl
    rw [exportsOf, hd]
    simp [hnames]

/-- Names that are visible through a statement around others come after theirs. -/
theorem exports_cross_iff (n : Node) :
    (∀ a ∈ (inner n).flatMap fun s => exportsIn source s.node, ∀ b ∈ exportsIn source n, a.startLine ≤ b.startLine) ↔
      ¬Straggles source n := by
  constructor
  · rintro h ⟨hn, hdefault, s, hs, hne, hlt⟩
    obtain ⟨a, ha⟩ := List.exists_mem_of_ne_nil _ hne
    have hown : exportsIn source n ≠ [] := by
      rw [exportsIn, if_pos hn, ne_eq, exportsOf_eq_nil_iff hs hne, hdefault]
      decide
    obtain ⟨b, hb⟩ := List.exists_mem_of_ne_nil _ hown
    have hle := h a (List.mem_flatMap.mpr ⟨s, hs, ha⟩) b hb
    rw [exportsIn_startLine ha, exportsIn_startLine hb] at hle
    simp only [startLine] at hle
    omega
  · intro h a ha b hb
    obtain ⟨s, hs, ha⟩ := List.mem_flatMap.mp ha
    have hne := List.ne_nil_of_mem ha
    have hn := kind_of_mem_inner hs
    rw [exportsIn_startLine ha, exportsIn_startLine hb, startLine, startLine]
    by_contra hlt
    refine h ⟨hn, ?_, s, hs, hne, by omega⟩
    by_contra hdefault
    rw [exportsIn, if_pos hn, (exportsOf_eq_nil_iff hs hne).mpr (by simpa using hdefault)] at hb
    cases hb

/-- The exports of a statement and of those in it are in order unless some of them straggle. -/
theorem exports_pairwise_iff (n : Node) : ∀ anchor : Node,
    ((statementsOf anchor n).flatMap fun s => exportsIn source s.node).Pairwise (fun a b => a.startLine ≤ b.startLine) ↔
      ∀ s ∈ statementsOf anchor n, ¬Straggles source s.node := by
  induction n using declaration_induct with
  | step n ih =>
    intro anchor
    have hown : (exportsIn source n).Pairwise fun a b => a.startLine ≤ b.startLine :=
      List.pairwise_of_forall_mem_list fun a ha b hb =>
        Int.le_of_eq ((exportsIn_startLine ha).trans (exportsIn_startLine hb).symm)
    have hinner : ((inner n).flatMap fun s => exportsIn source s.node).Pairwise (fun a b => a.startLine ≤ b.startLine) ↔
        ∀ s ∈ inner n, ¬Straggles source s.node := by
      rcases inner_cases n with hi | ⟨d, -, hd, hi⟩
      · simp [hi]
      · rw [hi]
        exact ih d hd n
    rw [statementsOf, List.flatMap_append, List.flatMap_singleton, List.pairwise_append, hinner, exports_cross_iff,
      List.forall_mem_append]
    simp [hown]

/-- Where the declaration of an export is no export, the statement that an export straggles behind is an alias. -/
theorem straggles_iff (hd : ∀ d, n.child? .declaration = some d → d.kind ≠ .exportStatement) :
    Straggles source n ↔ n.kind = .exportStatement ∧ n.has (.token "default") ∧
      ∃ d, n.child? .declaration = some d ∧ d.kind = .typeAlias ∧ n.start.row < d.start.row := by
  constructor
  · rintro ⟨hn, hdefault, s, hs, hne, hlt⟩
    rcases inner_cases n with hi | ⟨d, -, hchild, hi⟩
    · rw [hi] at hs
      cases hs
    · rw [hi] at hs
      rcases List.mem_append.mp hs with hs | hs
      · exact absurd (kind_of_mem_inner hs) (hd d hchild)
      · rw [List.mem_singleton.mp hs] at hne hlt
        exact ⟨hn, hdefault, d, hchild, (kind_of_exportsIn hne).resolve_left (hd d hchild), hlt⟩
  · rintro ⟨hn, hdefault, d, hchild, hkind, hlt⟩
    refine ⟨hn, hdefault, ⟨d, n⟩, ?_, ?_, hlt⟩
    · rw [inner_of_declaration hn hchild]
      exact List.mem_append_right _ List.mem_cons_self
    · simp [exportsIn, declared, hkind, isFunctionDeclaration, isVariableDeclaration, isClass]

/-! ## Symbols -/

theorem sites_of_mem {s v : Anchored} (hs : s.IsOrdered) (hv : v ∈ s.sites) : v.anchor = s.anchor ∧ v.IsOrdered := by
  rw [Anchored.sites] at hv
  split at hv
  · obtain ⟨c, hc, rfl⟩ := List.mem_map.mp hv
    have hmem : c ∈ s.node.children := (List.mem_filter.mp (List.mem_filter.mp hc).1).1
    exact ⟨rfl, hs.node.of_mem hmem, hs.anchor, (hs.node.isIn_of_mem hmem).trans hs.isIn⟩
  · split at hv
    · rw [List.mem_singleton.mp hv]
      exact ⟨rfl, hs⟩
    · cases hv

theorem sites_of_export {s : Anchored} (h : s.node.kind = .exportStatement) : s.sites = [] := by
  rw [Anchored.sites, h]
  rfl

/-- A statement gives symbols in one place only, and it takes all their lines from one statement. -/
theorem sites_pairwise (n : Node) (hn : n.IsOrdered) :
    ((statementsOf n n).flatMap Anchored.sites).Pairwise fun v w => startLine v.anchor ≤ startLine w.anchor := by
  obtain ⟨s, exports, he, hexports⟩ := statementsOf_cons n n
  have hs : s.IsOrdered := (statementsOf_isOrdered n n hn hn (.refl n) s (by rw [he]; exact List.mem_cons_self)).1
  have hnil : exports.flatMap Anchored.sites = [] :=
    List.flatMap_eq_nil_iff.mpr fun e hm => sites_of_export (hexports e hm)
  rw [he, List.flatMap_cons, hnil, List.append_nil]
  exact List.pairwise_of_forall_mem_list fun v hv w hw =>
    Int.le_of_eq (congrArg startLine ((sites_of_mem hs hv).1.trans (sites_of_mem hs hw).1.symm))

/-- A node starts on a line of the one that it is in. -/
theorem startLine_of_isIn {t : Node} (ht : t.IsOrdered) (hin : t.IsIn n) :
    startLine n ≤ startLine t ∧ startLine t ≤ endLine n := by
  have := ht.rows
  obtain ⟨hstart, hstop⟩ := hin
  simp only [startLine, endLine]
  omega

/-- A member stands within its type. -/
theorem isMember_lines {f : FunctionDecl} (hn : n.IsOrdered) (hf : IsMember source n f) :
    startLine n ≤ f.startLine ∧ f.startLine ≤ f.endLine ∧ f.endLine ≤ endLine n := by
  obtain ⟨body, hbody, member, hm, -, hstart, hend⟩ := hf
  have hb := mem_children hbody
  obtain ⟨h₁, h₂⟩ := ((hn.of_mem hb).isIn_of_mem hm).trans (hn.isIn_of_mem hb)
  have hrows := ((hn.of_mem hb).of_mem hm).rows
  rw [hstart, hend]
  simp only [startLine, endLine]
  omega

/-! ## Outlines -/

/-- What an outline lists stands where the statements of the tree do. -/
structure IsPlaced (source : Text) (root : Node) (o : Outline) : Prop where
  /-- Every symbol stands in the lines of the source. -/
  lines : ∀ d ∈ o.decls, 1 ≤ d.startLine ∧ d.startLine ≤ d.endLine ∧ d.endLine ≤ Text.lineCount source
  /-- Methods and constructors stand within their types. -/
  members : ∀ t ∈ o.types, ∀ f ∈ t.functions,
    t.startLine ≤ f.startLine ∧ f.startLine ≤ f.endLine ∧ f.endLine ≤ t.endLine
  /-- The symbols come in the order of their lines. -/
  decls : o.decls.Pairwise fun a b => a.startLine ≤ b.startLine
  /-- Each of them is declared by a statement of its own or by a variable of one. -/
  sites : ∃ sites : List Anchored, sites.Sublist ((statements root).flatMap Anchored.sites) ∧
    List.Forall₂ (IsSymbolAt source) sites o.decls
  /-- There is one import for each import statement. -/
  importsOf : o.imports =
    ((statements root).filter (·.node.kind = .importStatement)).map fun s => importOf source s.node
  /-- The imports come in the order of their lines. -/
  imports : o.imports.Pairwise fun a b => a.startLine ≤ b.startLine
  /-- The exports do exactly if none straggles. -/
  exports : o.exports.Pairwise (fun a b => a.startLine ≤ b.startLine) ↔ ∀ s ∈ statements root, ¬Straggles source s.node

theorem statements_isOrdered (hroot : root.IsOrdered) {s : Anchored} (hs : s ∈ statements root) :
    s.IsOrdered ∧ s.anchor.IsIn root := by
  obtain ⟨n, hn, hs⟩ := List.mem_flatMap.mp hs
  have hmem := (List.mem_filter.mp hn).1
  have hordered := hroot.of_mem hmem
  obtain ⟨hs, hin⟩ := statementsOf_isOrdered n n hordered hordered (.refl n) s hs
  exact ⟨hs, hin.trans (hroot.isIn_of_mem hmem)⟩

theorem statements_sites_pairwise (hroot : root.IsOrdered) :
    ((statements root).flatMap Anchored.sites).Pairwise fun v w => startLine v.anchor ≤ startLine w.anchor := by
  rw [statements, List.flatMap_assoc]
  refine (pairwise_children hroot fun n hn v hv => ?_).mpr fun n hn =>
    sites_pairwise n (hroot.of_mem (List.mem_filter.mp hn).1)
  have hordered := hroot.of_mem hn
  obtain ⟨s, hs, hv⟩ := List.mem_flatMap.mp hv
  obtain ⟨hs, hin⟩ := statementsOf_isOrdered n n hordered hordered (.refl n) s hs
  rw [(sites_of_mem hs hv).1]
  exact startLine_of_isIn hs.anchor hin

theorem statements_imports_pairwise (hroot : root.IsOrdered) :
    ((statements root).filter (·.node.kind = .importStatement)).Pairwise fun s t =>
      startLine s.node ≤ startLine t.node := by
  rw [statements, List.filter_flatMap]
  refine (pairwise_children hroot fun n hn s hs => ?_).mpr fun n hn => ?_
  · have hordered := hroot.of_mem hn
    obtain ⟨hs, hin⟩ := statementsOf_isOrdered n n hordered hordered (.refl n) s (List.mem_filter.mp hs).1
    exact startLine_of_isIn hs.node (hs.isIn.trans hin)
  · obtain ⟨s, exports, he, hexports⟩ := statementsOf_cons n n
    have hnil : exports.filter (·.node.kind = .importStatement) = [] :=
      List.filter_eq_nil_iff.mpr fun e hm => by simp [hexports e hm]
    rw [he, List.filter_cons, hnil]
    split
    · exact List.pairwise_singleton _ s
    · exact .nil

theorem statements_exports_pairwise_iff (hroot : root.IsOrdered) :
    ((statements root).flatMap fun s => exportsIn source s.node).Pairwise (fun a b => a.startLine ≤ b.startLine) ↔
      ∀ s ∈ statements root, ¬Straggles source s.node := by
  rw [statements, List.flatMap_assoc, pairwise_children hroot]
  · simp only [exports_pairwise_iff, List.mem_flatMap, forall_exists_index, and_imp]
    exact ⟨fun h s n hn hs => h n hn s hs, fun h n hn s hs => h s n hn hs⟩
  · intro n hn x hx
    have hordered := hroot.of_mem hn
    obtain ⟨s, hs, hx⟩ := List.mem_flatMap.mp hx
    obtain ⟨hs, hin⟩ := statementsOf_isOrdered n n hordered hordered (.refl n) s hs
    rw [exportsIn_startLine hx]
    exact startLine_of_isIn hs.node (hs.isIn.trans hin)

/-- **An outline stands where the statements of its tree do.** -/
theorem outlineOf_isPlaced (language path : Text) (hroot : root.IsOrdered)
    (hrows : root.stop.row < Text.lineCount source) :
    IsPlaced source root (outlineOf language path source root) := by
  obtain ⟨himports, hexports, sites, hsub, hsymbols⟩ := outlineOf_follows language path root
  have hsite : ∀ d ∈ (outlineOf language path source root).decls, ∃ v : Anchored,
      IsSymbolAt source v d ∧ v.IsOrdered ∧ v.anchor.IsIn root := by
    intro d hd
    obtain ⟨v, hv, hvd⟩ := exists_mem_of_forall₂ hsymbols d hd
    obtain ⟨s, hs, hv⟩ := List.mem_flatMap.mp (hsub.subset hv)
    obtain ⟨hs, hin⟩ := statements_isOrdered hroot hs
    obtain ⟨hanchor, hv⟩ := sites_of_mem hs hv
    exact ⟨v, hvd, hv, hanchor ▸ hin⟩
  constructor
  case lines =>
    intro d hd
    obtain ⟨v, hvd, hv, hin⟩ := hsite d hd
    have := hv.anchor.rows
    have := hin.stop
    rw [hvd.startLine, hvd.endLine, startLine, endLine]
    omega
  case members =>
    intro t ht f hf
    obtain ⟨d, hd, hdt⟩ := List.mem_filterMap.mp ht
    obtain ⟨v, hvd, hv, hin⟩ := hsite d hd
    have hlines := isMember_lines hv.node (hvd.members t hdt f hf)
    have hstart := hvd.startLine
    have hend := hvd.endLine
    cases d with
    | function => cases hdt
    | type u =>
      cases hdt
      have := hv.isIn.start
      have := hv.isIn.stop
      simp only [Decl.startLine, Decl.endLine, startLine, endLine] at hstart hend hlines
      omega
  case decls =>
    refine pairwise_of_forall₂ hsymbols ((statements_sites_pairwise hroot).sublist hsub) ?_
    intro v w a b hvw ha hb
    rw [ha.startLine, hb.startLine]
    exact hvw
  case sites => exact ⟨sites, hsub, hsymbols⟩
  case importsOf => exact himports
  case imports =>
    rw [show (outlineOf language path source root).imports = _ from himports, List.pairwise_map]
    exact statements_imports_pairwise hroot
  case exports =>
    rw [show (outlineOf language path source root).exports = _ from hexports]
    exact statements_exports_pairwise_iff hroot

end SourceDoc.Script
