import SourceDoc.Proofs.Page.Markup
import SourceDoc.Proofs.Page.Template

/-!
# The tags of a page

`read` goes through a page character by character and gives the tags in it with their attributes.  An anchor is a tag
with a link or with an identifier.  Texts and the values of attributes are escaped, so the anchors of a piece of markup
are those that its elements have by themselves (`Anchors.element`), and the anchors of a filled template are those of
the values of its slots, one after the other, where the slots stand between tags (`anchors_fill`).
-/

namespace SourceDoc.Markup

/-! ## Reading -/

/-- A tag with its attributes, and the values of these as they are written; a closing tag has a slash in its name. -/
structure Tag where
  name : Text
  attributes : List (Text × Text) := []
  deriving DecidableEq, Repr

/-- The value of an attribute. -/
def Tag.attribute? (t : Tag) (key : String) : Option Text := Table.get? key.toList t.attributes

/-- The tag has a link or an identifier. -/
def Tag.isAnchor (t : Tag) : Bool := (t.attribute? "href").isSome || (t.attribute? "id").isSome

/-- Where the reading of a page stands. -/
inductive Mode where
  /-- Between tags. -/
  | text
  /-- In the name of a tag. -/
  | name (read : Text)
  /-- Behind the name of a tag, and perhaps in the key of an attribute. -/
  | tag (t : Tag) (key : Text)
  /-- In the value of an attribute. -/
  | value (t : Tag) (key read : Text)
  deriving DecidableEq, Repr

/-- Reads a character: the tag that it ends, and where the reading stands then. -/
def Mode.step : Mode → Char → Option Tag × Mode
  | text, c => (none, if c = '<' then name [] else text)
  | name read, c =>
    if c = '>' then (some ⟨read, []⟩, text)
    else if c = ' ' then (none, tag ⟨read, []⟩ [])
    else (none, name (read ++ [c]))
  | tag t key, c =>
    if c = '>' then (some t, text)
    else if c = '"' then (none, value t key [])
    else if c = ' ' then (none, tag t [])
    else if c = '=' then (none, tag t key)
    else (none, tag t (key ++ [c]))
  | value t key read, c =>
    if c = '"' then (none, tag { t with attributes := t.attributes ++ [(key, read)] } [])
    else (none, value t key (read ++ [c]))

/-- Reads a text: the tags that end in it, and where the reading stands then. -/
def read (m : Mode) : Text → List Tag × Mode
  | [] => ([], m)
  | c :: rest =>
    let (ended, m) := m.step c
    let (tags, m) := read m rest
    (ended.toList ++ tags, m)

/-- The tags of a page. -/
def tagsOf (page : Text) : List Tag := (read .text page).1

/-- The anchors of a page. -/
def anchorsOf (page : Text) : List Tag := (tagsOf page).filter Tag.isAnchor

section

variable {m m' m'' : Mode} {a b : Text} {tags tags' : List Tag} {t : Tag} {key : Text}

theorem read_cons (m : Mode) (c : Char) (rest : Text) :
    read m (c :: rest) = ((m.step c).1.toList ++ (read (m.step c).2 rest).1, (read (m.step c).2 rest).2) := rfl

/-- **Reading goes on where it stands.** -/
theorem read_append (ha : read m a = (tags, m')) (hb : read m' b = (tags', m'')) :
    read m (a ++ b) = (tags ++ tags', m'') := by
  induction a generalizing m tags with
  | nil =>
    cases ha
    exact hb
  | cons c a ih =>
    rw [read_cons] at ha
    obtain ⟨rfl, hmode⟩ := Prod.mk.inj ha
    have hrest := ih (Prod.ext rfl hmode : read (m.step c).2 a = ((read (m.step c).2 a).1, m'))
    rw [List.cons_append, read_cons, hrest, List.append_assoc]

/-- Characters that leave the reading in modes of one kind, one after the other. -/
theorem read_of_step {f : Text → Mode} (hstep : ∀ (r : Text), ∀ c ∈ a, (f r).step c = (none, f (r ++ [c]))) (r : Text) :
    read (f r) a = ([], f (r ++ a)) := by
  induction a generalizing r with
  | nil => rw [List.append_nil]; rfl
  | cons c a ih =>
    have hrest := ih (fun r d hd => hstep r d (List.mem_cons_of_mem c hd)) (r ++ [c])
    rw [read_cons, hstep r c List.mem_cons_self, hrest, List.append_assoc]
    rfl

theorem read_text (h : '<' ∉ a) : read .text a = ([], .text) := by
  refine read_of_step (f := fun _ => .text) (fun r c hc => ?_) []
  have hne : c ≠ '<' := fun he => h (he ▸ hc)
  rw [Mode.step, if_neg hne]

theorem read_value (h : '"' ∉ a) (r : Text) : read (.value t key r) a = ([], .value t key (r ++ a)) := by
  refine read_of_step (f := Mode.value t key) (fun r c hc => ?_) r
  have hne : c ≠ '"' := fun he => h (he ▸ hc)
  rw [Mode.step, if_neg hne]

/-- A character of the name of a tag or of an attribute. -/
def isTagChar (c : Char) : Bool := c ≠ '>' && c ≠ '"' && c ≠ ' ' && c ≠ '='

theorem isTagChar_iff {c : Char} : isTagChar c = true ↔ c ≠ '>' ∧ c ≠ '"' ∧ c ≠ ' ' ∧ c ≠ '=' := by
  simp [isTagChar, and_assoc]

theorem read_name (h : ∀ c ∈ a, isTagChar c = true) (r : Text) : read (.name r) a = ([], .name (r ++ a)) := by
  refine read_of_step (fun r c hc => ?_) r
  obtain ⟨hclose, -, hblank, -⟩ := isTagChar_iff.mp (h c hc)
  rw [Mode.step, if_neg hclose, if_neg hblank]

theorem read_key (h : ∀ c ∈ a, isTagChar c = true) (r : Text) : read (.tag t r) a = ([], .tag t (r ++ a)) := by
  refine read_of_step (f := Mode.tag t) (fun r c hc => ?_) r
  obtain ⟨hclose, hquote, hblank, hequals⟩ := isTagChar_iff.mp (h c hc)
  rw [Mode.step, if_neg hclose, if_neg hquote, if_neg hblank, if_neg hequals]

end

/-! ## Tags as they are written -/

/-- A word of the characters of names. -/
def IsTagWord (s : String) : Prop := ∀ c ∈ s.toList, isTagChar c = true

instance (s : String) : Decidable (IsTagWord s) := List.decidableBAll _ s.toList

theorem IsTagWord.quote_not_mem {s : String} (h : IsTagWord s) : '"' ∉ s.toList := fun hmem =>
  absurd (h _ hmem) (by decide)

/-- An attribute that is read as it is written. -/
def IsReadable (x : String × Text) : Prop := IsTagWord x.1 ∧ '"' ∉ x.2

theorem isReadable {key : String} {value : Text} (hkey : IsTagWord key) (hvalue : '"' ∉ value) :
    IsReadable (key, value) := ⟨hkey, hvalue⟩

/-- The attributes of an element as they are read. -/
def readAttributes (attributes : List (String × Text)) : List (Text × Text) :=
  attributes.map fun (key, value) => (key.toList, value)

section

variable {attributes : List (String × Text)} {children : List Markup} {name : String}

theorem read_attributeText {x : String × Text} (hx : IsReadable x) (t : Tag) (key : Text) :
    read (.tag t key) (attributeText x) =
      ([], .tag { t with attributes := t.attributes ++ [(x.1.toList, x.2)] } []) := by
  have htext : attributeText x = [' '] ++ (x.1.toList ++ (['=', '"'] ++ (x.2 ++ ['"']))) := by
    simp [attributeText]
  have hblank : read (.tag t key) [' '] = ([], .tag t []) := rfl
  have hkey : read (.tag t []) x.1.toList = ([], .tag t x.1.toList) := read_key hx.1 []
  have hopen : read (.tag t x.1.toList) ['=', '"'] = ([], .value t x.1.toList []) := rfl
  have hvalue : read (.value t x.1.toList []) x.2 = ([], .value t x.1.toList x.2) := read_value hx.2 []
  rw [htext]
  exact read_append hblank (read_append hkey (read_append hopen (read_append hvalue rfl)))

theorem read_attributes (h : ∀ x ∈ attributes, IsReadable x) (t : Tag) (key : Text) :
    read (.tag t key) (attributes.flatMap attributeText ++ ['>']) =
      ([{ t with attributes := t.attributes ++ readAttributes attributes }], .text) := by
  induction attributes generalizing t key with
  | nil =>
    simp only [List.flatMap_nil, List.nil_append, readAttributes, List.map_nil, List.append_nil]
    rfl
  | cons x attributes ih =>
    obtain ⟨hx, hrest⟩ := List.forall_mem_cons.mp h
    rw [List.flatMap_cons, List.append_assoc, read_append (read_attributeText hx t key) (ih hrest _ _)]
    simp [readAttributes]

/-- **A tag is read as it is written.** -/
theorem read_tag (hname : ∀ c ∈ name.toList, isTagChar c = true) (h : ∀ x ∈ attributes, IsReadable x) :
    read .text ('<' :: (name.toList ++ attributes.flatMap attributeText ++ ['>'])) =
      ([⟨name.toList, readAttributes attributes⟩], .text) := by
  have hopen : read .text ('<' :: name.toList) = ([], .name name.toList) := read_append (a := ['<']) rfl (read_name hname [])
  rw [← List.cons_append, ← List.cons_append, List.append_assoc]
  refine read_append hopen ?_
  cases attributes with
  | nil => rfl
  | cons x attributes =>
    -- the blank before the first attribute ends the name
    have hfirst : ∀ rest : Text, read (.name name.toList) (attributeText x ++ rest) =
        read (.tag ⟨name.toList, []⟩ []) (attributeText x ++ rest) := fun rest => rfl
    have := read_attributes h ⟨name.toList, []⟩ []
    rw [List.flatMap_cons, List.append_assoc] at this ⊢
    rw [hfirst, this, List.nil_append]

/-! ## Anchors of markup -/

/-- A text that stands between tags, and the anchors in it. -/
def HasAnchors (t : Text) (anchors : List Tag) : Prop :=
  ∃ tags, read .text t = (tags, .text) ∧ tags.filter Tag.isAnchor = anchors

theorem HasAnchors.anchorsOf {t : Text} {anchors : List Tag} (h : HasAnchors t anchors) : anchorsOf t = anchors := by
  obtain ⟨tags, hread, htags⟩ := h
  rw [Markup.anchorsOf, tagsOf, hread, htags]

theorem HasAnchors.append {a b : Text} {as bs : List Tag} (ha : HasAnchors a as) (hb : HasAnchors b bs) :
    HasAnchors (a ++ b) (as ++ bs) := by
  obtain ⟨tags, hread, rfl⟩ := ha
  obtain ⟨tags', hread', rfl⟩ := hb
  exact ⟨tags ++ tags', read_append hread hread', List.filter_append tags tags'⟩

/-- The anchors of some pieces of a page. -/
def Anchors (ms : List Markup) (anchors : List Tag) : Prop := HasAnchors (allText ms) anchors

end

namespace Anchors

variable {ms ms' : List Markup} {as as' : List Tag} {attributes : List (String × Text)} {name : String}

theorem nil : Anchors [] [] := ⟨[], rfl, rfl⟩

theorem append (h : Anchors ms as) (h' : Anchors ms' as') : Anchors (ms ++ ms') (as ++ as') := by
  rw [Anchors, allText_append]
  exact HasAnchors.append h h'

theorem cons {m : Markup} (h : Anchors [m] as) (h' : Anchors ms as') : Anchors (m :: ms) (as ++ as') := append h h'

/-- Pieces without anchors in front of others. -/
theorem after (h : Anchors ms []) (h' : Anchors ms' as') : Anchors (ms ++ ms') as' := append h h'

/-- **Texts have no anchors.** -/
theorem text (t : Text) : Anchors [.text t] [] := by
  rw [Anchors, allText_singleton, toText_text]
  refine ⟨[], read_text fun hmem => ?_, rfl⟩
  have hmark : '<' ∈ marks (escape t) := List.mem_filter.mpr ⟨hmem, by decide⟩
  rw [marks_escape] at hmark
  cases hmark

/-- **The anchors of an element:** its own, if it is one, and those in it. -/
theorem element (hname : IsTagWord name) (h : ∀ x ∈ attributes, IsReadable x) (hms : Anchors ms as) :
    Anchors [.element name attributes ms]
      ([(⟨name.toList, readAttributes attributes⟩ : Tag)].filter Tag.isAnchor ++ as) := by
  have hslash : read .text ['<', '/'] = ([], .name ['/']) := rfl
  have hclose : read .text (['<', '/'] ++ (name.toList ++ ['>'])) = ([⟨'/' :: name.toList, []⟩], .text) :=
    read_append hslash (read_append (read_name hname ['/']) rfl)
  rw [Anchors, allText_singleton, toText_element, List.append_assoc]
  refine HasAnchors.append ⟨_, read_tag hname h, rfl⟩ ?_
  rw [← List.append_nil as]
  exact HasAnchors.append hms ⟨_, hclose, rfl⟩

theorem plain (hname : IsTagWord name) (h : Anchors ms as) : Anchors [.plain name ms] as :=
  element hname (List.forall_mem_nil _) h

theorem classed {cls : String} (hname : IsTagWord name) (hcls : IsTagWord cls) (h : Anchors ms as) :
    Anchors [.classed name cls ms] as :=
  element hname (List.forall_mem_singleton.mpr (isReadable (by decide) hcls.quote_not_mem)) h

theorem flatMap {α : Type} {f : α → Markup} {g : α → List Tag} {l : List α} (h : ∀ x ∈ l, Anchors [f x] (g x)) :
    Anchors (l.map f) (l.flatMap g) := by
  induction l with
  | nil => exact nil
  | cons x l ih =>
    obtain ⟨hx, hl⟩ := List.forall_mem_cons.mp h
    exact cons hx (ih hl)

/-- Pieces each of which has one anchor. -/
theorem map {α : Type} {f : α → Markup} {g : α → Tag} {l : List α} (h : ∀ x ∈ l, Anchors [f x] [g x]) :
    Anchors (l.map f) (l.map g) := by
  rw [List.map_eq_flatMap (f := g)]
  exact flatMap h

/-- Pieces none of which has an anchor. -/
theorem none {α : Type} {f : α → Markup} {l : List α} (h : ∀ x ∈ l, Anchors [f x] []) : Anchors (l.map f) [] := by
  have := flatMap h
  rwa [List.flatMap_eq_nil_iff.mpr fun _ _ => rfl] at this

end Anchors

end SourceDoc.Markup

/-! ## Anchors of templates -/

namespace SourceDoc.Template

open Markup

/-- The slots among some pieces, where these end between tags, each of the slots stands there and none of the tags is an
anchor. -/
def slotsFrom? (m : Mode) : List Piece → Option (List Text)
  | [] => if m = .text then some [] else none
  | .char c :: ps => if (m.step c).1.any Tag.isAnchor then none else slotsFrom? (m.step c).2 ps
  | .slot name :: ps => if m = .text then (slotsFrom? .text ps).map (name :: ·) else none

variable {m : Mode} {ps : List Piece} {slots : List Text} {values : List (Text × Text)} {anchors : Text → List Tag}

theorem read_pieces (hslots : slotsFrom? m ps = some slots)
    (hvalues : ∀ name ∈ slots, HasAnchors (Piece.fill values (.slot name)) (anchors name)) :
    ∃ tags, read m (ps.flatMap (Piece.fill values)) = (tags, .text) ∧
      tags.filter Tag.isAnchor = slots.flatMap anchors := by
  induction ps generalizing m slots with
  | nil =>
    rw [slotsFrom?] at hslots
    split at hslots
    · rename_i hm
      cases hslots
      exact ⟨[], by rw [hm]; rfl, rfl⟩
    · cases hslots
  | cons p ps ih =>
    cases p with
    | char c =>
      rw [slotsFrom?] at hslots
      split at hslots
      · cases hslots
      · rename_i hnone
        obtain ⟨tags, hread, htags⟩ := ih hslots hvalues
        refine ⟨(m.step c).1.toList ++ tags, ?_, ?_⟩
        · rw [List.flatMap_cons, Piece.fill, List.singleton_append, read_cons, hread]
        · rw [List.filter_append, htags]
          have hnil : (m.step c).1.toList.filter Tag.isAnchor = [] := by
            refine List.filter_eq_nil_iff.mpr fun t ht hanchor => hnone ?_
            rw [Option.mem_toList.mp ht]
            exact hanchor
          rw [hnil, List.nil_append]
    | slot name =>
      rw [slotsFrom?] at hslots
      split at hslots
      · rename_i hm
        obtain ⟨names, hnames, rfl⟩ := Option.map_eq_some_iff.mp hslots
        obtain ⟨hfirst, hrest⟩ := List.forall_mem_cons.mp hvalues
        obtain ⟨tags, hread, htags⟩ := hfirst
        obtain ⟨tags', hread', htags'⟩ := ih hnames hrest
        refine ⟨tags ++ tags', ?_, ?_⟩
        · rw [List.flatMap_cons, hm]
          exact read_append hread hread'
        · rw [List.filter_append, htags, htags', List.flatMap_cons]
      · cases hslots

/-- **The anchors of a filled template** are those of the values of its slots. -/
theorem anchors_fill {t : Text} (hslots : slotsFrom? .text (pieces t) = some slots)
    (hvalues : ∀ name ∈ slots, HasAnchors (Piece.fill values (.slot name)) (anchors name)) :
    anchorsOf (fill values t) = slots.flatMap anchors :=
  HasAnchors.anchorsOf (read_pieces hslots hvalues)

theorem slotsFrom_append {ps' : List Piece} {slots' : List Text} (h : slotsFrom? m ps = some slots)
    (h' : slotsFrom? .text ps' = some slots') : slotsFrom? m (ps ++ ps') = some (slots ++ slots') := by
  induction ps generalizing m slots with
  | nil =>
    rw [slotsFrom?] at h
    split at h
    · rename_i hm
      cases h
      rw [hm]
      exact h'
    · cases h
  | cons p ps ih =>
    cases p with
    | char c =>
      rw [slotsFrom?] at h
      split at h
      · cases h
      · rename_i hnone
        rw [List.cons_append, slotsFrom?, if_neg hnone]
        exact ih h
    | slot name =>
      rw [slotsFrom?] at h
      split at h
      · rename_i hm
        obtain ⟨names, hnames, rfl⟩ := Option.map_eq_some_iff.mp h
        rw [List.cons_append, slotsFrom?, if_pos hm, ih hnames]
        rfl
      · cases h

/-- **The slots of two lines.** -/
theorem slotsFrom_append_newline {t rest : Text} {more : List Text} (h : slotsFrom? .text (pieces t) = some slots)
    (hrest : slotsFrom? .text (pieces rest) = some more) :
    slotsFrom? .text (pieces (t ++ '\n' :: rest)) = some (slots ++ more) := by
  rw [pieces_append_newline]
  exact slotsFrom_append h hrest

end SourceDoc.Template

/-! ## The default template -/

namespace SourceDoc.Html

open Markup Template

/-- The slots of a line that begins between tags and ends there. -/
def LineSlots (line : String) (names : List Text) : Prop := slotsFrom? .text (pieces line.toList) = some names

theorem lineSlots_ofList {t : Text} {names : List Text} (h : slotsFrom? .text (pieces t) = some names) :
    LineSlots (String.ofList t) names :=
  of_literal (p := fun t => slotsFrom? .text (pieces t) = some names) h

/-- The slots of lines are those of each. -/
theorem slotsFrom_joinLines {lines : List String} {slots : List (List Text)} (h : List.Forall₂ LineSlots lines slots)
    (hne : lines ≠ []) : slotsFrom? .text (pieces (Text.joinLines (lines.map String.toList))) = some slots.flatten := by
  induction h with
  | nil => exact absurd rfl hne
  | @cons line names lines slots hline hrest ih =>
    cases hrest with
    | nil =>
      rw [List.flatten_singleton]
      exact hline
    | @cons second _ rest _ hsecond hrest =>
      have hjoin : Text.joinLines (line.toList :: second.toList :: rest.map String.toList) =
          line.toList ++ '\n' :: Text.joinLines (second.toList :: rest.map String.toList) := by
        rw [Text.joinLines, Text.joinWith, List.append_assoc, List.singleton_append]
        · rfl
        · simp
      rw [List.map_cons, List.map_cons, hjoin, List.flatten_cons]
      exact slotsFrom_append_newline hline (ih (List.cons_ne_nil _ _))

set_option maxRecDepth 2000 in
/-- The lines of the style sheet have neither slots nor tags. -/
theorem slotsFrom_styleRules :
    ∀ rule ∈ styleRules, slotsFrom? .text (pieces (List.replicate 8 ' ' ++ rule.toList)) = some [] := by
  unfold styleRules
  repeat' refine List.forall_mem_cons.mpr ⟨of_literal (p := fun t =>
    slotsFrom? .text (pieces (List.replicate 8 ' ' ++ t)) = some []) rfl, ?_⟩
  exact fun rule hrule => nomatch hrule

theorem slotsFrom_style {t rest : Text} {slots more : List Text} (ht : slotsFrom? .text (pieces t) = some slots)
    (hrest : slotsFrom? .text (pieces rest) = some more) :
    slotsFrom? .text (pieces (t ++ (style ++ rest))) = some (slots ++ more) := by
  have hrules : ∀ rules : List String, (∀ rule ∈ rules, rule ∈ styleRules) →
      slotsFrom? .text (pieces ((rules.flatMap fun rule => List.replicate 8 ' ' ++ rule.toList ++ ['\n']) ++ rest)) =
        some more := by
    intro rules hrules
    induction rules with
    | nil => exact hrest
    | cons rule rules ih =>
      obtain ⟨hrule, hmore⟩ := List.forall_mem_cons.mp hrules
      rw [List.flatMap_cons, List.append_assoc, List.append_assoc _ ['\n']]
      exact slotsFrom_append_newline (slotsFrom_styleRules rule hrule) (ih hmore)
  rw [style, List.cons_append]
  exact slotsFrom_append_newline ht (hrules styleRules fun _ h => h)

/-- The slots of the default template, in order. -/
def defaultSlots : List Text :=
  ["TITLE", "TITLE", "FILE_PATH", "LANGUAGE", "DESCRIPTION", "TABLE_OF_CONTENTS", "FUNCTIONS", "CLASSES", "EXPORTS",
    "USAGE", "NOTES", "GENERATED_DATE"].map String.toList

/-- **The default template has no anchors of its own, and all its slots stand between tags.** -/
theorem slotsFrom_defaultTemplate : slotsFrom? .text (pieces defaultTemplate) = some defaultSlots := by
  have hhead : List.Forall₂ LineSlots templateHead [[], [], [], [], [], ["TITLE".toList], []] := by
    unfold templateHead
    repeat' refine .cons (lineSlots_ofList rfl) ?_
    exact .nil
  have htail : List.Forall₂ LineSlots templateTail tailSlots := by
    unfold templateTail tailSlots
    repeat' refine .cons (lineSlots_ofList rfl) ?_
    exact .nil
  have hslots := slotsFrom_style (slotsFrom_joinLines hhead (by simp [templateHead]))
    (slotsFrom_joinLines htail (by simp [templateTail]))
  rw [defaultTemplate, List.append_assoc]
  exact hslots

end SourceDoc.Html
