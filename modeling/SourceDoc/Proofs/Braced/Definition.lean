import SourceDoc.Proofs.Braced.Remark
import SourceDoc.Proofs.Braced.Start

/-!
# Exported type definitions

A line defines a type that is not a structure or an interface: a name, an equals sign or none, and the definition,
perhaps with a comment behind it.  The export has the whole definition unless it starts with square brackets and no equals
sign stands in front of it: the reader takes the brackets for parameters of types, so of a slice or an array only the type
of the elements is left (`definitionOf_bracketed`).  And a definition that starts like the word for a structure or an
interface, or with a bracket, is no export at all (`extract_typeDefinition`).
-/

namespace SourceDoc.Braced

open Text

/-! ## The definition behind a name -/

/-- The text behind an equals sign, where something follows it, or the text itself. -/
def afterEquals? (t : Text) : Option Text :=
  match stripLeft t with
  | '=' :: rest => if stripLeft rest = [] then some ['='] else some (stripLeft rest)
  | [] => none
  | bare => some bare

theorem definitionOf_eq (t : Text) :
    definitionOf t = ((afterSquare? (stripLeft t)).bind afterEquals?).or (afterEquals? (stripLeft t)) := rfl

theorem afterEquals_bare {t : Text} (hne : t ≠ []) (hleft : stripLeft t = t) (h : ∀ c ∈ t.head?, c ≠ '=') :
    afterEquals? t = some t := by
  obtain ⟨c, t, rfl⟩ := List.exists_cons_of_ne_nil hne
  have hc : c ≠ '=' := h c rfl
  unfold afterEquals?
  rw [hleft]
  split
  · rename_i heq
    exact absurd (List.cons.inj heq).1 hc
  · rename_i heq
    cases heq
  · rfl

/-- What is left of a text that is not blank is no longer. -/
theorem afterEquals_some {t : Text} (h : isBlankText t = false) :
    ∃ u, afterEquals? t = some u ∧ u.length ≤ t.length := by
  have hleft : (stripLeft t).length ≤ t.length := (stripLeft_suffix t).length_le
  unfold afterEquals?
  split
  · rename_i rest heq
    rw [heq, List.length_cons] at hleft
    split
    · exact ⟨_, rfl, by simp only [List.length_singleton]; omega⟩
    · have := (stripLeft_suffix rest).length_le
      exact ⟨_, rfl, by omega⟩
  · rename_i heq
    have hblank : isBlankText t = true := (dropLeft_eq_nil_iff isBlank t).mp heq
    rw [hblank] at h
    cases h
  · exact ⟨_, rfl, hleft⟩

section

variable {definition : Text} (hne : definition ≠ []) (hstrip : strip definition = definition)
  (hequals : ∀ c ∈ definition.head?, c ≠ '=')

include hne hstrip

theorem definitionOf_alias : definitionOf (" = ".toList ++ definition) = some definition := by
  have hleft : stripLeft (' ' :: definition) = definition :=
    (stripLeft_blank_append definition (s := [' ']) rfl).trans (stripLeft_of_strip hstrip)
  show (if stripLeft (' ' :: definition) = [] then some ['='] else some (stripLeft (' ' :: definition))) = _
  rw [hleft, if_neg hne]

include hequals

theorem definitionOf_plain_eq :
    definitionOf (' ' :: definition) = ((afterSquare? definition).bind afterEquals?).or (some definition) := by
  have hleft : stripLeft (' ' :: definition) = definition :=
    (stripLeft_blank_append definition (s := [' ']) rfl).trans (stripLeft_of_strip hstrip)
  rw [definitionOf_eq, hleft, afterEquals_bare hne (stripLeft_of_strip hstrip) hequals]

/-- **The whole definition is read, or less than it where something stands behind square brackets at its front.** -/
theorem definitionOf_plain_cases :
    (definitionOf (' ' :: definition) = some definition ∧ ∀ rest, afterSquare? definition = some rest → rest = []) ∨
      ∃ found, definitionOf (' ' :: definition) = some found ∧ found.length < definition.length ∧
        ∃ rest, afterSquare? definition = some rest ∧ rest ≠ [] := by
  rw [definitionOf_plain_eq hne hstrip hequals]
  cases hrest : afterSquare? definition with
  | none => exact .inl ⟨rfl, fun rest h => nomatch h⟩
  | some rest =>
    by_cases hnil : rest = []
    · rw [hnil]
      exact .inl ⟨rfl, fun rest' h => (Option.some.inj h).symm⟩
    · obtain ⟨inner, -, hdefinition⟩ := eq_of_afterSquare hrest
      have hfront : definition = '[' :: (inner ++ [']']) ++ rest := by simp [hdefinition]
      have hlast : isBlankText rest = false := not_blank_of_append (hfront ▸ hstrip) hnil
      obtain ⟨found, hfound, hlength⟩ := afterEquals_some hlast
      refine .inr ⟨found, by rw [Option.bind_some, hfound]; rfl, ?_, rest, rfl, hnil⟩
      rw [hdefinition, List.length_cons, List.length_append, List.length_cons]
      omega

/-- Of a definition with square brackets at its front only what stands behind them is read. -/
theorem definitionOf_bracketed {inner rest : Text} (hdefinition : definition = '[' :: (inner ++ ']' :: rest))
    (hinner : ']' ∉ inner) (hrest : ∀ c ∈ rest.head?, isBlank c = false ∧ c ≠ '=') (hrestNe : rest ≠ []) :
    definitionOf (' ' :: definition) = some rest := by
  have hleft : stripLeft rest = rest := (dropLeft_eq_self_iff isBlank rest).mpr fun c hc => (hrest c hc).1
  rw [definitionOf_plain_eq hne hstrip hequals, hdefinition, afterSquare_read hinner, Option.bind_some,
    afterEquals_bare hrestNe hleft fun c hc => (hrest c hc).2]
  rfl

end

/-! ## Lines that define a type -/

/-- The line that defines a type as it is written: perhaps with an equals sign, and perhaps with a comment. -/
structure WrittenDefinition where
  name : Text
  isAlias : Bool
  definition : Text
  remark : Option Remark

namespace WrittenDefinition

/-- What stands between the name and the definition. -/
def sign (d : WrittenDefinition) : Text := if d.isAlias then " = ".toList else [' ']

/-- The line without its comment. -/
def code (d : WrittenDefinition) : Text := "type".toList ++ [' '] ++ d.name ++ d.sign ++ d.definition

def line (d : WrittenDefinition) : Text := d.code ++ remarkText d.remark

theorem startsWith_line (d : WrittenDefinition) : startsWith d.line "type".toList = true :=
  List.isPrefixOf_iff_prefix.mpr
    ⟨[' '] ++ d.name ++ d.sign ++ d.definition ++ remarkText d.remark, by simp [line, code]⟩

/-- The name starts with a capital letter, and the definition has no quote and no comment.  A square bracket at its front
is closed in it. -/
structure IsWritten (d : WrittenDefinition) : Prop where
  named : isIdentifier d.name = true
  capital : isPublic d.name = true
  ne_nil : d.definition ≠ []
  stripped : strip d.definition = d.definition
  unquoted : ∀ c ∈ d.definition, isQuote c = false
  bare : ¬ ['/', '/'] <:+: d.definition ++ ['/']
  no_equals : ∀ c ∈ d.definition.head?, c ≠ '='
  closed : d.definition.head? = some '[' → ']' ∈ d.definition
  gap : ∀ r ∈ d.remark, isBlankText r.gap = true

variable {d : WrittenDefinition}

theorem strip_code (h : d.IsWritten) : strip d.code = d.code := by
  have hword : strip "type".toList = "type".toList := by decide
  have hcode : d.code = "type".toList ++ ([' '] ++ d.name ++ d.sign) ++ d.definition := by simp [code]
  rw [hcode]
  exact strip_append_self hword (by decide) h.stripped h.ne_nil _

theorem isPassed_code (h : d.IsWritten) : IsPassed d.code := by
  have hsign : IsPassed d.sign := by
    unfold sign
    split
    · exact fun rest => rfl
    · exact fun rest => rfl
  have hword : IsPassed ("type".toList ++ [' ']) := fun rest => rfl
  exact ((hword.append (isPassed_name h.named)).append hsign).append (isPassed_unquoted h.unquoted h.bare)

/-- The line without its comment is read up to its name. -/
theorem afterWord_line (h : d.IsWritten) (t : Text) :
    afterWord? "type".toList (d.code ++ t) = some (d.name ++ (d.sign ++ (d.definition ++ t))) := by
  have hcode : d.code ++ t = "type".toList ++ ' ' :: (d.name ++ (d.sign ++ (d.definition ++ t))) := by simp [code]
  rw [hcode, afterWord_space, stripLeft_identifier h.named]

theorem head_sign (d : WrittenDefinition) (t : Text) : ∀ c ∈ (d.sign ++ t).head?, isWord c = false := by
  unfold sign
  split <;> rintro c ⟨⟩ <;> rfl

/-- The definition that the reader finds. -/
theorem definition_line (h : d.IsWritten) {found : Text} (hfound : definitionOf (d.sign ++ d.definition) = some found) :
    definition? (strip (uncommented d.line)) = some (d.name, found) := by
  have hname : identifier? (d.name ++ (d.sign ++ d.definition)) = some (d.name, d.sign ++ d.definition) :=
    identifier_read h.named (head_sign d d.definition)
  have hword := afterWord_line h []
  simp only [List.append_nil] at hword
  unfold line
  rw [strip_uncommented_remark (isPassed_code h) h.gap, strip_code h]
  unfold definition?
  rw [hword, Option.bind_some, hname]
  simp only [Option.bind_some, hfound]

/-! ### The types on the line -/

/-- Behind the code of a line there is a blank or a slash, and behind blanks a slash. -/
structure IsBehind (t : Text) : Prop where
  head : ∀ c ∈ t.head?, isBlank c = true ∨ c = '/'
  left : ∀ c ∈ (stripLeft t).head?, c = '/'

theorem IsBehind.before {t u : Text} (h : IsBehind t) (hu : u <+: t) : IsBehind u := by
  obtain ⟨more, rfl⟩ := hu
  constructor
  · intro c hc
    obtain ⟨rest, rfl⟩ := List.head?_eq_some_iff.mp hc
    exact h.head c rfl
  · intro c hc
    rcases stripLeft_append_cases u more with ⟨hblank, -⟩ | ⟨d, rest, hleft, happend⟩
    · have hnil : stripLeft u = [] := (dropLeft_eq_nil_iff isBlank u).mpr hblank
      rw [hnil] at hc
      cases hc
    · rw [hleft] at hc
      exact h.left c (by rw [happend]; exact hc)

theorem isBehind_remark {remark : Option Remark} (hgap : ∀ r ∈ remark, isBlankText r.gap = true) :
    IsBehind (remarkText remark) := by
  cases remark with
  | none => constructor <;> intro c hc <;> cases hc
  | some r =>
    have hblank := hgap r rfl
    constructor
    · intro c hc
      cases hg : r.gap with
      | nil =>
        rw [remarkText, hg] at hc
        cases hc
        exact .inr rfl
      | cons b gap =>
        rw [remarkText, hg] at hc
        cases hc
        rw [hg] at hblank
        exact .inl (List.all_eq_true.mp hblank _ List.mem_cons_self)
    · intro c hc
      rw [remarkText, stripLeft_blank_append _ hblank] at hc
      cases hc
      rfl

theorem opensBody_behind {t : Text} (h : IsBehind t) (kind : BodyKind) : opensBody (stripLeft t) kind = false := by
  refine not_opensBody ?_
  cases hleft : stripLeft t with
  | nil => cases kind <;> rfl
  | cons c rest =>
    obtain rfl := h.left c (by rw [hleft]; rfl)
    cases kind <;> rfl

/-- A definition that starts no body does not start one with what is behind it. -/
theorem opensBody_definition {definition t : Text} (ht : IsBehind t) (h : isStructured definition = false)
    (kind : BodyKind) : opensBody (definition ++ t) kind = false := by
  have hword : startsWith definition kind.word = false := by
    unfold isStructured at h
    simp only [List.any_cons, Bool.or_eq_false_iff] at h
    cases kind
    · exact h.1
    · exact h.2.1
  have hapart : ∀ c ∈ t.head?, c ∉ kind.word := by
    intro c hc
    rcases ht.head c hc with hblank | rfl
    · intro hmem
      have hletters : ∀ d ∈ kind.word, isBlank d = false := by cases kind <;> decide
      rw [hletters c hmem] at hblank
      cases hblank
    · cases kind <;> decide
  exact not_opensBody ((startsWith_append hapart definition).trans hword)

/-- Behind the name and the parameters there is no word for a kind. -/
theorem opensBody_sign (h : d.IsWritten) {t : Text} (ht : IsBehind t) (hsign : d.isAlias = true ∨
    isStructured d.definition = false ∧ ∀ rest, afterSquare? d.definition = some rest →
      ∀ c ∈ rest.head?, isBlank c = false) {u : Text}
    (hu : afterBlanks? (skipSquare (d.sign ++ (d.definition ++ t))) = some u) (kind : BodyKind) :
    opensBody u kind = false := by
  unfold sign at hu
  cases halias : d.isAlias with
  | true =>
    rw [if_pos halias] at hu
    cases hu
    cases kind <;> rfl
  | false =>
    obtain ⟨hstructured, hsquare⟩ := hsign.resolve_left (by rw [halias]; exact Bool.false_ne_true)
    rw [if_neg (by rw [halias]; exact Bool.false_ne_true)] at hu
    have hleft : stripLeft ([' '] ++ (d.definition ++ t)) = d.definition ++ t := by
      have hself : stripLeft (d.definition ++ t) = stripLeft d.definition ++ t :=
        stripLeft_append t (not_blank_of_strip h.stripped h.ne_nil)
      rw [stripLeft_blank_append _ (by decide), hself, stripLeft_of_strip h.stripped]
    cases hafter : afterSquare? d.definition with
    | none =>
      -- A bracket at the front of the definition is closed in it, so none is closed in the comment behind it.
      have hopen : ∀ c ∈ d.definition.head?, c ≠ '[' := by
        rintro c hopen rfl
        obtain ⟨rest, hrest⟩ := List.head?_eq_some_iff.mp hopen
        have hmem := h.closed hopen
        rw [hrest, List.mem_cons] at hmem
        obtain ⟨inner, more, hmore, hinner⟩ := List.eq_append_cons_of_mem (hmem.resolve_left (by decide))
        rw [hrest, hmore, afterSquare_read hinner] at hafter
        cases hafter
      have hskip : skipSquare ([' '] ++ (d.definition ++ t)) = [' '] ++ (d.definition ++ t) := by
        refine skipSquare_bare ?_
        rw [hleft, List.head?_append_of_ne_nil _ h.ne_nil]
        exact hopen
      rw [hskip] at hu
      rw [eq_stripLeft_of_afterBlanks hu, hleft]
      exact opensBody_definition ht hstructured kind
    | some rest =>
      obtain ⟨inner, hinner, hdefinition⟩ := eq_of_afterSquare hafter
      have hskip : skipSquare ([' '] ++ (d.definition ++ t)) = rest ++ t := by
        refine skipSquare_read ?_ hinner
        rw [hleft, hdefinition]
        simp
      rw [hskip] at hu
      cases rest with
      | nil =>
        rw [eq_stripLeft_of_afterBlanks hu]
        exact opensBody_behind ht kind
      | cons c rest =>
        have hblank := hsquare _ hafter c rfl
        rw [List.cons_append, afterBlanks?, if_neg (by simp [hblank])] at hu
        cases hu

/-- **The line starts no type with members,** if its definition starts no body and no blank stands behind square brackets
at its front. -/
theorem startOn_line (h : d.IsWritten) (hsign : d.isAlias = true ∨ isStructured d.definition = false ∧
    ∀ rest, afterSquare? d.definition = some rest → ∀ c ∈ rest.head?, isBlank c = false) (inGroup : Bool) :
    startOn? inGroup d.line = none := by
  obtain ⟨t, ht, hline⟩ : ∃ t, IsBehind t ∧ strip d.line = d.code ++ t :=
    ⟨_, (isBehind_remark h.gap).before (stripRight_within _),
      strip_append_right (strip_code h) (by simp [code]) (remarkText d.remark)⟩
  unfold startOn?
  rw [if_pos (startsWith_line d), not_isIndented_of_type (startsWith_line d), Bool.and_false, hline, declaredStart?,
    afterWord_line h, Option.bind_some,
    typeStart_none h.named (head_sign d _) fun u hu => opensBody_sign h ht hsign hu]
  rfl

end WrittenDefinition

/-! ## The exports of a line -/

/-- The export that the line defines. -/
def definitionOn? (i : Nat) (line : Text) : Option Export :=
  if startsWith line "type".toList then
    match definition? (strip (uncommented line)) with
    | some (name, definition) =>
      if isStructured definition || !isPublic name then none
      else some { name := name, kind := "type-alias".toList, definition := some (strip definition), startLine := i + 1 }
    | none => none
  else none

theorem definitionsOf_eq (lines : List Text) :
    definitionsOf lines = (List.range lines.length).filterMap fun i => definitionOn? i ((lines[i]?).getD []) := rfl

theorem startLine_of_definitionOn {i : Nat} {line : Text} {e : Export} (h : definitionOn? i line = some e) :
    e.startLine = i + 1 ∧ e.kind = "type-alias".toList := by
  unfold definitionOn? at h
  split at h
  · split at h
    · split at h
      · cases h
      · cases h
        exact ⟨rfl, rfl⟩
    · cases h
  · cases h

section

variable {lines above below : List Text} {line source : Text} {o : Outline} {types : List SourceDoc.TypeDecl}

theorem mem_definitionsOf_iff (hlines : lines = above ++ line :: below) (e : Export) :
    e ∈ definitionsOf lines ∧ e.startLine = above.length + 1 ↔ definitionOn? above.length line = some e := by
  have hline : (lines[above.length]?).getD [] = line := by
    rw [hlines, List.getElem?_append_right (Nat.le_refl _), Nat.sub_self]
    rfl
  rw [definitionsOf_eq, List.mem_filterMap]
  constructor
  · rintro ⟨⟨i, -, hon⟩, hstart⟩
    have hi := (startLine_of_definitionOn hon).1
    obtain rfl : i = above.length := by omega
    rwa [hline] at hon
  · intro hon
    refine ⟨⟨above.length, List.mem_range.mpr ?_, by rw [hline]; exact hon⟩, (startLine_of_definitionOn hon).1⟩
    rw [hlines, List.length_append, List.length_cons]
    omega

theorem definitionsOf_increasing (lines : List Text) :
    (definitionsOf lines).Pairwise fun e e' => e.startLine < e'.startLine := by
  rw [definitionsOf_eq, List.pairwise_filterMap]
  refine List.pairwise_lt_range.imp fun hlt e he e' he' => ?_
  rw [(startLine_of_definitionOn he).1, (startLine_of_definitionOn he').1]
  omega

/-- The exports that have the number of a line. -/
def exportsOn (o : Outline) (line : Int) : List Export := o.exports.filter fun e => e.startLine = line

/-- An export of a type definition is the one that its line defines. -/
theorem Holds.definitionOn_of_mem (h : Holds source types o) (hlines : Text.lines source = above ++ line :: below)
    {e : Export} (he : e ∈ exportsOn o (above.length + 1)) (hkind : e.kind = "type-alias".toList) :
    definitionOn? above.length line = some e := by
  obtain ⟨hmem, hstart⟩ := List.mem_filter.mp he
  rw [h.exports] at hmem
  refine (mem_definitionsOf_iff hlines e).mp ⟨?_, of_decide_eq_true hstart⟩
  rcases List.mem_append.mp (List.mem_mergeSort.mp hmem) with hmem | hmem
  · rcases List.mem_append.mp hmem with hmem | hmem
    · obtain ⟨f, -, rfl⟩ := List.mem_map.mp hmem
      exact absurd hkind (show "function".toList ≠ "type-alias".toList by decide)
    · obtain ⟨t, -, rfl⟩ := List.mem_map.mp hmem
      exact absurd hkind (show "type".toList ≠ "type-alias".toList by decide)
  · exact hmem

/-- A line defines at most one name, and only those of its definitions start on it. -/
theorem filter_definitionsOf (hlines : lines = above ++ line :: below) :
    (definitionsOf lines).filter (fun (e : Export) => e.startLine = (above.length : Int) + 1) =
      (definitionOn? above.length line).toList := by
  cases hon : definitionOn? above.length line with
  | none =>
    refine List.filter_eq_nil_iff.mpr fun e he hfirst => ?_
    rw [(mem_definitionsOf_iff hlines e).mp ⟨he, of_decide_eq_true hfirst⟩] at hon
    cases hon
  | some e =>
    obtain ⟨hmem, hfirst⟩ := (mem_definitionsOf_iff hlines e).mpr hon
    refine filter_eq_singleton _ (definitionsOf_increasing _) hmem (decide_eq_true hfirst) fun e' _ hfirst' => ?_
    rw [of_decide_eq_true hfirst', hfirst]

/-- **Of a line that starts no type with members, the exports are what it defines.** -/
theorem Holds.exportsOn_eq (h : Holds source types o) (hlines : Text.lines source = above ++ line :: below)
    (hmark : startsWith line "type".toList = true) (hstart : startOn? (above.foldl groupAfter false) line = none) :
    exportsOn o (above.length + 1) = (definitionOn? above.length line).toList := by
  have hline : ((Text.lines source)[above.length]?).getD [] = line := by
    rw [hlines, List.getElem?_append_right (Nat.le_refl _), Nat.sub_self]
    rfl
  have hfunctions : ∀ f ∈ o.functions, f.startLine ≠ above.length + 1 := by
    intro f hf hfirst
    obtain ⟨i, -, hon⟩ := h.function_on f hf
    have hi : f.startLine = (i : Int) + 1 := hon.lies.starts
    obtain rfl : i = above.length := by omega
    have hword := hon.marked
    rw [hline] at hword
    obtain ⟨rest, rfl⟩ := List.isPrefixOf_iff_prefix.mp hmark
    cases hword
  have htypes : ∀ t ∈ o.types, t.startLine ≠ above.length + 1 := by
    rw [h.attached]
    refine List.forall_mem_map.mpr fun t ht hfirst => ?_
    obtain ⟨name, kind, hon, -⟩ := (h.mem_types_iff hlines t).mp ⟨ht, hfirst⟩
    rw [hstart] at hon
    cases hon
  have hperm : (exportsOn o (above.length + 1)).Perm (definitionOn? above.length line).toList := by
    rw [← filter_definitionsOf hlines, exportsOn, h.exports]
    refine ((List.mergeSort_perm _ _).filter _).trans ?_
    rw [List.filter_append, List.filter_append, List.filter_eq_nil_iff.mpr, List.filter_eq_nil_iff.mpr]
    · exact .refl _
    · refine List.forall_mem_map.mpr fun t ht hfirst => ?_
      exact htypes t (List.mem_filter.mp ht).1 (of_decide_eq_true hfirst)
    · refine List.forall_mem_map.mpr fun f hf hfirst => ?_
      exact hfunctions f (List.mem_filter.mp hf).1 (of_decide_eq_true hfirst)
  cases hon : definitionOn? above.length line with
  | none =>
    rw [hon] at hperm
    exact hperm.eq_nil
  | some e =>
    rw [hon] at hperm
    exact hperm.eq_singleton

end

namespace WrittenDefinition

/-- The export of the line, with a definition. -/
def edge (d : WrittenDefinition) (i : Nat) (definition : Text) : Export :=
  { name := d.name, kind := "type-alias".toList, definition := some definition, startLine := i + 1 }

/-- The definition does not start like the word for a type with members, nor with a bracket.  Without an equals sign in
front of it, nothing stands behind square brackets at its front. -/
structure IsWhole (d : WrittenDefinition) : Prop where
  unstructured : isStructured d.definition = false
  unsliced : d.isAlias = false → ∀ inner rest, ']' ∉ inner → d.definition = '[' :: (inner ++ ']' :: rest) → rest = []

variable {d : WrittenDefinition} (h : d.IsWritten)

include h

theorem definitionOn_line {found : Text} (hfound : definitionOf (d.sign ++ d.definition) = some found) (i : Nat) :
    definitionOn? i d.line = if isStructured found then none else some (d.edge i (strip found)) := by
  unfold definitionOn?
  rw [if_pos (startsWith_line d), definition_line h hfound]
  simp only [h.capital, Bool.not_true, Bool.or_false]
  rfl

/-- **The line defines its whole definition exactly if no part of it is taken for something else.** -/
theorem definitionOn_line_iff (i : Nat) : definitionOn? i d.line = some (d.edge i d.definition) ↔ d.IsWhole := by
  have hwhole : definitionOf (d.sign ++ d.definition) = some d.definition →
      (definitionOn? i d.line = some (d.edge i d.definition) ↔ isStructured d.definition = false) := by
    intro hfound
    rw [definitionOn_line h hfound, h.stripped]
    cases isStructured d.definition <;> simp
  cases halias : d.isAlias with
  | true =>
    have hsign : d.sign = " = ".toList := if_pos halias
    rw [hwhole (by rw [hsign]; exact definitionOf_alias h.ne_nil h.stripped)]
    exact ⟨fun hun => ⟨hun, fun hplain => absurd (halias.symm.trans hplain) (by decide)⟩, IsWhole.unstructured⟩
  | false =>
    have hsign : d.sign = [' '] := if_neg (by simp [halias])
    rcases definitionOf_plain_cases h.ne_nil h.stripped h.no_equals with
      ⟨hfound, hnil⟩ | ⟨found, hfound, hlength, rest, hrest, hne⟩
    · rw [hwhole (by rw [hsign]; exact hfound)]
      refine ⟨fun hun => ⟨hun, fun _ inner rest hinner hdefinition => ?_⟩, IsWhole.unstructured⟩
      exact hnil rest (hdefinition ▸ afterSquare_read hinner rest)
    · refine iff_of_false (fun hon => ?_) fun hw => ?_
      · rw [← List.singleton_append, ← hsign] at hfound
        rw [definitionOn_line h hfound] at hon
        split at hon
        · cases hon
        · have hsame : strip found = d.definition := by
            have := congrArg Export.definition (Option.some.inj hon)
            exact Option.some.inj this
          have hstrip : (strip found).length ≤ found.length := (strip_within found).length_le
          rw [hsame] at hstrip
          omega
      · obtain ⟨inner, hinner, hdefinition⟩ := eq_of_afterSquare hrest
        exact hne (hw.unsliced halias inner rest hinner hdefinition)

/-- Nothing but the definition is exported from a line that defines it whole. -/
theorem startOn_whole (hw : d.IsWhole) (inGroup : Bool) : startOn? inGroup d.line = none := by
  refine startOn_line h ?_ inGroup
  cases halias : d.isAlias with
  | true => exact .inl rfl
  | false =>
    refine .inr ⟨hw.unstructured, fun rest hrest c hc => ?_⟩
    obtain ⟨inner, hinner, hdefinition⟩ := eq_of_afterSquare hrest
    rw [hw.unsliced halias inner rest hinner hdefinition] at hc
    cases hc

variable {path source : Text} {above below : List Text} {o : Outline} {types : List SourceDoc.TypeDecl}
  (hholds : Holds source types o) (hlines : Text.lines source = above ++ d.line :: below)

include hholds hlines

theorem exportsOn_whole_iff : exportsOn o (above.length + 1) = [d.edge above.length d.definition] ↔ d.IsWhole := by
  constructor
  · intro honly
    rw [← definitionOn_line_iff h above.length]
    exact hholds.definitionOn_of_mem hlines (honly ▸ List.mem_singleton_self _) rfl
  · intro hw
    rw [hholds.exportsOn_eq hlines (startsWith_line d) (startOn_whole h hw _),
      (definitionOn_line_iff h above.length).mpr hw]
    rfl

/-- Only the type behind square brackets at the front of a definition is exported. -/
theorem exportsOn_bracketed {inner rest : Text} (halias : d.isAlias = false) (hinner : ']' ∉ inner)
    (hdefinition : d.definition = '[' :: (inner ++ ']' :: rest)) (hne : rest ≠ [])
    (hrest : ∀ c ∈ rest.head?, isBlank c = false ∧ c ≠ '=') :
    exportsOn o (above.length + 1) = if isStructured rest then [] else [d.edge above.length rest] := by
  have hsign : d.sign = [' '] := if_neg (by simp [halias])
  have hfound := definitionOf_bracketed h.ne_nil h.stripped h.no_equals hdefinition hinner hrest hne
  have hbracket : isStructured d.definition = false := by
    rw [hdefinition]
    rfl
  have hafter : ∀ rest', afterSquare? d.definition = some rest' → ∀ c ∈ rest'.head?, isBlank c = false := by
    rw [hdefinition, afterSquare_read hinner]
    rintro rest' ⟨⟩ c hc
    exact (hrest c hc).1
  have hstrip : strip rest = rest := by
    have hfront : d.definition = '[' :: (inner ++ [']']) ++ rest := by simp [hdefinition]
    exact strip_of_append (hfront ▸ h.stripped) fun c hc => (hrest c hc).1
  rw [hholds.exportsOn_eq hlines (startsWith_line d) (startOn_line h (.inr ⟨hbracket, hafter⟩) _),
    definitionOn_line h (by rw [hsign]; exact hfound), hstrip]
  split <;> rfl

end WrittenDefinition

/-- **A line that defines a type is one export with its whole definition,** unless the definition starts like the word
for a structure or an interface, or with a bracket, or has something behind square brackets at its front with no equals
sign before it.  Of a slice or an array without an equals sign only the type of the elements is exported, and nothing if
that starts in such a way. -/
theorem extract_typeDefinition (d : WrittenDefinition) (h : d.IsWritten) (path source : Text) (above below : List Text)
    (hlines : Text.lines source = above ++ d.line :: below) :
    ∃ o, (Extractor.builtIn .go).extract path source = .ok o ∧
      (exportsOn o (above.length + 1) = [d.edge above.length d.definition] ↔ d.IsWhole) ∧
      ∀ inner rest, d.isAlias = false → ']' ∉ inner → d.definition = '[' :: (inner ++ ']' :: rest) → rest ≠ [] →
        (∀ c ∈ rest.head?, isBlank c = false ∧ c ≠ '=') →
          exportsOn o (above.length + 1) = if isStructured rest then [] else [d.edge above.length rest] := by
  obtain ⟨o, types, ho, hholds⟩ := extract_holds path source
  exact ⟨o, ho, WrittenDefinition.exportsOn_whole_iff h hholds hlines,
    fun inner rest => WrittenDefinition.exportsOn_bracketed h hholds hlines⟩

namespace Sample

/-- A map to slices, with a comment behind it. -/
def index : WrittenDefinition := ⟨"Index".toList, false, "map[string][]int".toList, some ⟨[' '], " by name".toList⟩⟩

theorem index_isWritten : index.IsWritten := by
  refine ⟨?_, ?_, ?_, ?_, ?_, not_infix_of_contains ?_, ?_, ?_, ?_⟩ <;> decide

def slice : WrittenDefinition := ⟨"Ints".toList, false, "[]int".toList, none⟩

theorem slice_isWritten : slice.IsWritten := by
  refine ⟨?_, ?_, ?_, ?_, ?_, not_infix_of_contains ?_, ?_, ?_, ?_⟩ <;> decide

end Sample

theorem extract_typeDefinition_index : Sample.index.IsWritten ∧
    ∃ o, (Extractor.builtIn .go).extract "a.go".toList (Sample.index.line ++ ['\n']) = .ok o ∧
      exportsOn o 1 = [Sample.index.edge 0 "map[string][]int".toList] := by
  obtain ⟨o, ho, hwhole, -⟩ := extract_typeDefinition Sample.index Sample.index_isWritten "a.go".toList
    (Sample.index.line ++ ['\n']) [] [[]] (by decide)
  have hunsliced : ∀ inner rest, ']' ∉ inner → Sample.index.definition = '[' :: (inner ++ ']' :: rest) → rest = [] := by
    intro inner rest _ hdefinition
    cases hdefinition
  exact ⟨Sample.index_isWritten, o, ho, hwhole.mpr ⟨by decide, fun _ => hunsliced⟩⟩

/-- Of a slice only the type of the elements is exported. -/
theorem extract_slice : Sample.slice.IsWritten ∧ isStructured Sample.slice.definition = false ∧
    ∃ o, (Extractor.builtIn .go).extract "a.go".toList (Sample.slice.line ++ ['\n']) = .ok o ∧
      exportsOn o 1 = [Sample.slice.edge 0 "int".toList] ∧
      exportsOn o 1 ≠ [Sample.slice.edge 0 Sample.slice.definition] := by
  obtain ⟨o, types, ho, hholds⟩ := extract_holds "a.go".toList (Sample.slice.line ++ ['\n'])
  have hlines : Text.lines (Sample.slice.line ++ ['\n']) = [] ++ Sample.slice.line :: [[]] := by decide
  have hbracket : Sample.slice.definition = '[' :: ([] ++ ']' :: "int".toList) := rfl
  have hedge : exportsOn o 1 = [Sample.slice.edge 0 "int".toList] :=
    WrittenDefinition.exportsOn_bracketed Sample.slice_isWritten hholds hlines rfl (by decide) hbracket (by decide)
      (by decide)
  refine ⟨Sample.slice_isWritten, by decide, o, ho, hedge, ?_⟩
  rw [hedge]
  decide

end SourceDoc.Braced
