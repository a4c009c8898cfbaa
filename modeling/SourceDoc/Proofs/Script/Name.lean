import SourceDoc.Proofs.Grammar.Field
import SourceDoc.Proofs.Script.Statement

/-!
# The names of classes and interfaces

The grammar of scripts makes classes and interfaces in a few rules only (`Rule.nodes_ruleOf`), and each of them reads the
name as an identifier, so the types of an outline have names of name characters (`outlineOf_isName`).
-/

namespace SourceDoc.Script

open Grammar

/-! ## Names -/

/-- A character of a name: of an identifier, or of an escape in one. -/
def isNameChar (c : Char) : Bool := Lexeme.isNameStart c || Lexeme.isDigit 10 c || "\\\x7b\x7d".toList.contains c

/-- A text of such characters. -/
def IsName (t : Text) : Prop := ∀ c ∈ t, isNameChar c = true

instance (t : Text) : Decidable (IsName t) := List.decidableBAll _ t

/-- What holds of ASCII characters, looked at one by one. -/
theorem forall_ascii {p : Char → Bool} (h : ∀ n < 128, p (Char.ofNat n) = true) {c : Char} (hc : c.toNat < 128) :
    p c = true := by
  rw [← Char.ofNat_toNat c]
  exact h _ hc

theorem isNameChar_of_isDigit {c : Char} (h : Lexeme.isDigit 16 c = true) : isNameChar c = true := by
  have hascii : c.toNat < 128 := by
    rw [Lexeme.isDigit] at h
    simp only [Bool.and_eq_true, decide_eq_true_eq] at h
    split_ifs at h <;> omega
  have hall : ∀ n < 128, (!Lexeme.isDigit 16 (Char.ofNat n) || isNameChar (Char.ofNat n)) = true := by decide
  have := forall_ascii (p := fun c => !Lexeme.isDigit 16 c || isNameChar c) hall hascii
  rwa [h, Bool.not_true, Bool.false_or] at this

theorem isName_append {a b : Text} (ha : IsName a) (hb : IsName b) : IsName (a ++ b) := List.forall_mem_append.mpr ⟨ha, hb⟩

theorem isName_takeWhile_digit (t : Text) : IsName (t.takeWhile (Lexeme.isDigit 16)) := fun _ hc =>
  isNameChar_of_isDigit (List.mem_takeWhile_imp hc)

theorem isName_nameEscape {t : Text} {n : Nat} (h : Lexeme.nameEscape? t = some n) : IsName (t.take n) := by
  unfold Lexeme.nameEscape? at h
  split at h
  · rename_i rest
    extract_lets k at h
    split at h
    · rename_i more hmore
      split at h
      · cases h
      · cases h
        have hdigits : rest.takeWhile (Lexeme.isDigit 16) = rest.take k :=
          List.prefix_iff_eq_take.mp (List.takeWhile_prefix _)
        have hrest : rest = rest.takeWhile (Lexeme.isDigit 16) ++ ['\x7d'] ++ more := by
          rw [List.append_assoc, List.singleton_append, hdigits, ← hmore, List.take_append_drop]
        have htake : ('\\' :: 'u' :: '\x7b' :: rest).take (k + 4) =
            ['\\', 'u', '\x7b'] ++ (rest.takeWhile (Lexeme.isDigit 16) ++ ['\x7d']) := by
          have hfront : rest.take (k + 1) = rest.takeWhile (Lexeme.isDigit 16) ++ ['\x7d'] := by
            conv_lhs => rw [hrest]
            exact List.take_left' (by rw [List.length_append]; rfl)
          rw [← hfront]
          rfl
        rw [htake]
        exact isName_append (by decide) (isName_append (isName_takeWhile_digit rest) (by decide))
    · cases h
  · rename_i rest _
    split at h
    · rename_i hlength
      cases h
      have hdigits : (rest.take 4).takeWhile (Lexeme.isDigit 16) = rest.take 4 := by
        refine (List.takeWhile_prefix _).eq_of_length_le ?_
        rw [hlength, List.length_take]
        exact Nat.min_le_left 4 _
      have htake : ('\\' :: 'u' :: rest).take 6 = ['\\', 'u'] ++ rest.take 4 := rfl
      rw [htake, ← hdigits]
      exact isName_append (by decide) (isName_takeWhile_digit _)
    · cases h
  · cases h

/-- The induction is on the bound, which every character or escape lowers. -/
theorem isName_nameRest (bound : Nat) (t : Text) : IsName (t.take (Lexeme.nameRest bound t)) := by
  induction bound generalizing t with
  | zero => exact fun c hc => nomatch hc
  | succ bound ih =>
    cases t with
    | nil => exact fun c hc => nomatch hc
    | cons c rest =>
      rw [Lexeme.nameRest]
      split
      · rename_i hc
        rw [Nat.add_comm, List.take_succ_cons]
        have hname : isNameChar c = true := by rw [isNameChar, hc, Bool.true_or]
        exact List.forall_mem_cons.mpr ⟨hname, ih rest⟩
      · split
        · rename_i n hn
          rw [List.take_add]
          exact isName_append (isName_nameEscape hn) (ih _)
        · exact fun c hc => nomatch hc

/-- **An identifier is a name.** -/
theorem isName_identifier {t : Text} {n : Nat} (h : Lexeme.identifier? t = some n) : IsName (t.take n) := by
  rw [Lexeme.identifier?] at h
  split at h
  · rename_i k hname
    split at h
    · cases h
    · cases h
      unfold Lexeme.name? at hname
      split at hname
      · cases hname
      · split at hname
        · cases hname
          exact isName_nameRest _ _
        · cases hname
  · cases h

/-! ## Rules -/

/-- The names of classes and interfaces. -/
def nameForm : FieldForm Kind Field where
  owns k := isClass k || k = .interfaceDeclaration
  field := .name
  form := IsName

variable {source : Text}

namespace Rule

/-- What is read for a class that is declared. -/
def classParts (d : Dialect) (orExpression : Bool) : Rule :=
  seqs [.many (sym .decorator), word "class", classRest d, bodyEnd d orExpression]

/-- What is read for an abstract class. -/
def abstractClassParts (d : Dialect) : Rule :=
  seqs [.many (sym .decorator), word "abstract", word "class", classRest d]

/-- What is read for a class that stands where an expression does. -/
def classExpressionParts (d : Dialect) : Rule :=
  seqs [.many (sym .decorator), word "class",
    opt (named .name (seqs [.without (.alt (word "extends") (word "implements")), identifier])),
    if d.hasTypes then opt (sym .typeParameters) else .done,
    opt (sym .superclass), named .body (sym .classBody)]

/-- What is read for an interface. -/
def interfaceParts (d : Dialect) : Rule :=
  seqs [word "interface", named .name (.leaf .typeName Lexeme.identifier?), opt (sym .typeParameters),
    opt (nodeOf .extendsTypeClause [word "extends", commaList1 namedType]),
    named .body (.node .interfaceBody (objectTypeRest d))]

/-- The nodes of classes and interfaces that the rule of a symbol makes. -/
def namedNodes (d : Dialect) : Symbol → List (Kind × Option Rule)
  | .declaration orExpression =>
    (.classDeclaration, some (classParts d orExpression)) ::
      if d.hasTypes then
        [(.abstractClassDeclaration, some (abstractClassParts d)), (.interfaceDeclaration, some (interfaceParts d))]
      else []
  | .operand _ => [(.classExpression, some (classExpressionParts d))]
  | .construction => [(.classExpression, some (classExpressionParts d))]
  | .superclass => if d.hasTypes then List.replicate 2 (.classExpression, some (classExpressionParts d)) else []
  | _ => []

/-- **No other rule makes a class or an interface.** -/
theorem nodes_ruleOf (d : Dialect) (s : Symbol) : (ruleOf d s).nodes.filter (nameForm.owns ·.1) = namedNodes d s := by
  cases d <;> cases s
  all_goals first
    | rfl
    | (rename_i c; rcases c with ⟨_ | _, _ | _, _ | _⟩ <;> rfl)

section

variable {g : Grammar.Table Symbol Kind Field} {q : Node → Prop} {rs : List Rule} {r : Rule}

theorem gives_seqs (h : ∀ r ∈ rs, Gives g source q r) : Gives g source q (seqs rs) := by
  induction rs with
  | nil => exact .done
  | cons r rs ih =>
    obtain ⟨hr, hrs⟩ := List.forall_mem_cons.mp h
    cases rs with
    | nil => exact hr
    | cons r' rs => exact hr.seq (ih hrs)

theorem gives_opt (h : Gives g source q r) : Gives g source q (opt r) := h.alt .done

/-- Without a field there is nothing to say. -/
theorem holds_unlabelled (kind : Kind) (start stop : Place) (children : List Node) :
    nameForm.Holds source (.node kind none start stop children) := fun h => nomatch h

theorem gives_token {kind : Kind} {scan : Text → Option Nat} : Gives g source (nameForm.Holds source) (.leaf kind scan) :=
  .leaf fun _ _ _ _ => holds_unlabelled _ _ _ _

theorem gives_node {kind : Kind} : Gives g source (nameForm.Holds source) (.node kind r) :=
  .node fun _ _ _ => holds_unlabelled _ _ _ _

/-- What fills another field. -/
theorem gives_other {f : Field} (hf : f ≠ .name) : Gives g source (nameForm.Holds source) (named f r) := by
  have hall : Gives g source (fun _ => True) r := fun _ _ _ _ _ _ _ _ _ => trivial
  refine .field hall fun t _ hfield => ?_
  cases t
  exact absurd (Option.some.inj hfield) hf

/-- **The name of a class or an interface is read as an identifier.** -/
theorem gives_name (h : Gives g source (fun t => IsName (t.text source)) r) :
    Gives g source (nameForm.Holds source) (named .name r) := by
  refine .field h fun t ht _ => ?_
  cases t
  exact ht

theorem gives_identifier (kind : Kind) :
    Gives g source (fun t => IsName (t.text source)) (.leaf kind Lexeme.identifier?) := by
  refine .leaf fun c n hc hn => ?_
  rw [text_leaf hc]
  exact isName_identifier hn

end

variable {d : Dialect}

theorem gives_decorators : Gives (grammar d) source (nameForm.Holds source) (.many (sym .decorator)) :=
  .many (.call gives_node)

theorem gives_typeParameters : Gives (grammar d) source (nameForm.Holds source) (opt (sym .typeParameters)) :=
  gives_opt (.call gives_node)

theorem gives_superclass : Gives (grammar d) source (nameForm.Holds source) (opt (sym .superclass)) := by
  refine gives_opt (.call ?_)
  cases d <;> exact gives_node

theorem gives_parameters :
    Gives (grammar d) source (nameForm.Holds source) (if d.hasTypes then opt (sym .typeParameters) else .done) := by
  split
  · exact gives_typeParameters
  · exact .done

theorem gives_classRest : Gives (grammar d) source (nameForm.Holds source) (classRest d) := by
  refine gives_seqs ?_
  simp only [List.forall_mem_cons, List.not_mem_nil, false_imp_iff, implies_true, and_true]
  exact ⟨gives_name (gives_identifier _), gives_parameters, gives_superclass, gives_other (by decide)⟩

theorem gives_classParts (orExpression : Bool) :
    Gives (grammar d) source (nameForm.Holds source) (classParts d orExpression) := by
  refine gives_seqs ?_
  simp only [List.forall_mem_cons, List.not_mem_nil, false_imp_iff, implies_true, and_true]
  exact ⟨gives_decorators, gives_token, gives_classRest, gives_opt .gap⟩

theorem gives_abstractClassParts : Gives (grammar d) source (nameForm.Holds source) (abstractClassParts d) := by
  refine gives_seqs ?_
  simp only [List.forall_mem_cons, List.not_mem_nil, false_imp_iff, implies_true, and_true]
  exact ⟨gives_decorators, gives_token, gives_token, gives_classRest⟩

theorem gives_classExpressionParts : Gives (grammar d) source (nameForm.Holds source) (classExpressionParts d) := by
  refine gives_seqs ?_
  simp only [List.forall_mem_cons, List.not_mem_nil, false_imp_iff, implies_true, and_true]
  refine ⟨gives_decorators, gives_token, gives_opt (gives_name ?_), gives_parameters, gives_superclass,
    gives_other (by decide)⟩
  exact .seq .without (gives_identifier _)

theorem gives_interfaceParts : Gives (grammar d) source (nameForm.Holds source) (interfaceParts d) := by
  refine gives_seqs ?_
  simp only [List.forall_mem_cons, List.not_mem_nil, false_imp_iff, implies_true, and_true]
  exact ⟨gives_token, gives_name (gives_identifier _), gives_typeParameters, gives_opt gives_node, gives_other (by decide)⟩

/-- The rules for classes and interfaces read names for their names. -/
theorem keep_namedNodes (s : Symbol) : Keep (grammar d) nameForm source (namedNodes d s) := by
  have hclass : ∀ kind, Keep (grammar d) nameForm source [(kind, some (classExpressionParts d))] := fun kind =>
    List.forall_mem_singleton.mpr fun _ => ⟨_, rfl, gives_classExpressionParts⟩
  cases s with
  | declaration orExpression =>
    refine keep_cons.mpr ⟨fun _ => ⟨_, rfl, gives_classParts orExpression⟩, ?_⟩
    split
    · refine keep_cons.mpr ⟨fun _ => ⟨_, rfl, gives_abstractClassParts⟩, ?_⟩
      exact List.forall_mem_singleton.mpr fun _ => ⟨_, rfl, gives_interfaceParts⟩
    · exact fun n hn => nomatch hn
  | operand c => exact hclass _
  | construction => exact hclass _
  | superclass =>
    rw [namedNodes]
    split
    · exact keep_append.mpr ⟨hclass _, hclass _⟩
    · exact fun n hn => nomatch hn
  | _ => exact fun n hn => nomatch hn

end Rule

/-! ## Trees and outlines -/

/-- A tree in which every class and every interface has a name of name characters. -/
abbrev HasNames (d : Dialect) (source : Text) (n : Node) : Prop := n.Fits (grammar d) nameForm source

variable {d : Dialect} {root n : Node}

theorem hasNames_of_parse (h : parse? d source = some root) : ∀ n ∈ root.children, HasNames d source n := by
  obtain ⟨read, hread, rfl⟩ := Option.map_eq_some_iff.mp h
  have hfits : ∀ n ∈ read, HasNames d source n :=
    fits_of_parse (fun s => keep_of_filter (by
      rw [show (grammar d).rule s = ruleOf d s from rfl, Rule.nodes_ruleOf]
      exact Rule.keep_namedNodes s)) hread
  exact fun n hn => hfits n (List.mem_filter.mp hn).1

/-- The name of a class or an interface, empty where it has none, has name characters only. -/
theorem isName_textOf (h : HasNames d source n) (hn : nameForm.owns n.kind = true) :
    IsName (textOf source (n.child? .name)) := by
  cases hname : n.child? .name with
  | none => exact fun c hc => nomatch hc
  | some name =>
    obtain ⟨-, howned, -⟩ := h
    have hfield : name.field = some .name := by simpa using List.find?_some hname
    exact howned hn name (mem_children hname) hfield

theorem isName_declared {before : List Node} {anchor : Node} (h : HasNames d source n) {t : TypeDecl}
    (ht : .type t ∈ (declared source before anchor n).decls) : IsName t.name := by
  rw [declared] at ht
  split at ht
  · split at ht
    · cases ht
    · cases List.mem_singleton.mp ht
  · split at ht
    · obtain ⟨f, -, hf⟩ := List.mem_map.mp ht
      cases hf
    · split at ht
      · rename_i hclass
        obtain ⟨u, hu, he⟩ := List.mem_map.mp ht
        cases he
        have hname : t.name = textOf source (n.child? .name) := (classOf?_isSymbolAt (Option.mem_toList.mp hu)).name
        exact hname ▸ isName_textOf h (by simp [nameForm, hclass])
      · split at ht
        · rename_i hinterface
          cases List.mem_singleton.mp ht
          have hname : (interfaceOf source n before anchor).name = textOf source (n.child? .name) :=
            (interfaceOf_isSymbolAt n anchor before).name
          exact hname ▸ isName_textOf h (by simp [nameForm, hinterface])
        · split at ht <;> cases ht

/-- The induction goes from the declaration of an export to the export. -/
theorem isName_contribution (n : Node) : ∀ (before anchorBefore : List Node) (anchor : Node), HasNames d source n →
    ∀ t, .type t ∈ (contribution source before anchorBefore anchor n).decls → IsName t.name := by
  induction n using declaration_induct with
  | step n ih =>
    intro before anchorBefore anchor h t ht
    rw [contribution_eq] at ht
    split at ht
    · cases ht
    · split at ht
      · rw [Contribution.append, List.append_nil] at ht
        rcases ofDeclaration_cases before [] n n.children with ⟨-, he⟩ | ⟨e, front, after, hd, -, he⟩
        · rw [he] at ht
          cases ht
        · rw [he] at ht
          obtain ⟨-, -, hbelow⟩ := h
          exact ih e hd _ before _ (hbelow e (mem_children hd)) t ht
      · exact isName_declared h ht

/-- **The types of a script have names of name characters.** -/
theorem outlineOf_isName (language path : Text) (h : parse? d source = some root) :
    ∀ t ∈ (outlineOf language path source root).types, IsName t.name := by
  intro t ht
  obtain ⟨decl, hdecl, htype⟩ := List.mem_filterMap.mp ht
  cases decl with
  | function f => cases htype
  | type u =>
    cases htype
    rcases mem_decls_foldl hdecl with hdecl | ⟨c, hc, hdecl⟩
    · cases hdecl
    · obtain ⟨p, hp, rfl⟩ := List.mem_map.mp hc
      have hmem : p.2 ∈ root.children := mem_of_mem_withBefore (List.mem_filter.mp hp).1
      exact isName_contribution p.2 _ _ _ (hasNames_of_parse h p.2 hmem) t hdecl


end SourceDoc.Script
