import Mathlib.Data.List.Basic
import SourceDoc.Proofs.Braced.Parameter
import SourceDoc.Proofs.Text.Line

/-!
# Parameters that share a type

In a list of parameters the names in front of a type share it: `a, b int, c string`.  A name alone looks like a type, so
the reader keeps it until an item with a name and a type comes (`grouped_groupItems`).  A list in groups has one
parameter for each name, and what it declares does not depend on how often a type is written; where no item names a
parameter, each is a type (`parametersOf_written`).
-/

namespace SourceDoc.Braced

open Text

/-! ## Lists with a space behind each comma -/

/-- The text can stand between the commas of a list, as it is. -/
structure IsListItem (t : Text) : Prop where
  ne_nil : t ≠ []
  stripped : strip t = t
  unquoted : ∀ c ∈ t, isQuote c = false
  balanced : openAfter [','] 0 t = some 0

instance (t : Text) : Decidable (IsListItem t) :=
  decidable_of_iff (t ≠ [] ∧ strip t = t ∧ (∀ c ∈ t, isQuote c = false) ∧ openAfter [','] 0 t = some 0)
    ⟨fun ⟨hne, hstrip, hquote, hbalanced⟩ => ⟨hne, hstrip, hquote, hbalanced⟩,
      fun h => ⟨h.ne_nil, h.stripped, h.unquoted, h.balanced⟩⟩

theorem isListItem_name {name : Text} (h : isIdentifier name = true) : IsListItem name := by
  obtain ⟨hstrip, hne⟩ := strip_identifier h
  have hinert := isInert_of_isIdentifier h
  have hcomma : ',' ∉ name := fun hmem => absurd (isWord_of_isIdentifier h _ hmem) (by decide)
  refine ⟨hne, hstrip, fun c hc => (hinert c hc).1, openAfter_of_flat fun c hc => ?_⟩
  refine ⟨(hinert c hc).2.1, (hinert c hc).2.2, ?_⟩
  rw [List.mem_singleton]
  rintro rfl
  exact hcomma hc

/-- A name with a type behind it is one item. -/
theorem IsListItem.named {name type : Text} (hname : isIdentifier name = true) (htype : IsListItem type) :
    IsListItem (name ++ [' '] ++ type) := by
  have h := isListItem_name hname
  refine ⟨by simp, strip_append_self h.stripped h.ne_nil htype.stripped htype.ne_nil [' '], ?_, ?_⟩
  · simp only [List.forall_mem_append]
    exact ⟨⟨h.unquoted, by decide⟩, htype.unquoted⟩
  · rw [openAfter_append, openAfter_append, h.balanced]
    exact htype.balanced

/-- **A list is split into the items that it was written with.** -/
theorem splitTopLevel_items {items : List Text} (h : ∀ item ∈ items, IsListItem item) :
    splitTopLevel ',' (joinWith [',', ' '] items) = items := by
  cases items with
  | nil => rfl
  | cons first more =>
    obtain ⟨hfirst, hmore⟩ := List.forall_mem_cons.mp h
    have hstrip : (more.map ([' '] ++ ·)).filterMap stripped? = more := by
      rw [List.filterMap_map]
      refine (List.filterMap_congr fun item hitem => ?_).trans List.filterMap_some
      exact stripped_of_strip ((strip_blank_append item (by decide)).trans (hmore item hitem).stripped)
        (hmore item hitem).ne_nil
    rw [← joinWith_comma, splitTopLevel_joinWith (List.mem_singleton_self ',') rfl]
    · rw [List.filterMap_cons, stripped_of_strip hfirst.stripped hfirst.ne_nil, hstrip]
    · simp only [List.forall_mem_cons, List.forall_mem_map]
      exact ⟨hfirst.unquoted, fun item hitem => List.forall_mem_append.mpr ⟨by decide, (hmore item hitem).unquoted⟩⟩
    · simp only [List.forall_mem_cons, List.forall_mem_map]
      exact ⟨hfirst.balanced, fun item hitem => (hmore item hitem).balanced⟩

/-! ## Groups -/

/-- Names with the type that they share. -/
structure ParameterGroup where
  names : List Text
  type : Text
  deriving DecidableEq

namespace ParameterGroup

/-- There are names, none of which begins a type. -/
structure IsWritten (g : ParameterGroup) : Prop where
  names_ne : g.names ≠ []
  named : ∀ name ∈ g.names, isIdentifier name = true ∧ name ∉ typeWords
  type : IsListItem g.type

instance (g : ParameterGroup) : Decidable g.IsWritten :=
  decidable_of_iff
    (g.names ≠ [] ∧ (∀ name ∈ g.names, isIdentifier name = true ∧ ¬ typeWords.contains name = true) ∧ IsListItem g.type)
    (by
      simp only [List.contains_iff_mem]
      exact ⟨fun ⟨hne, hnamed, htype⟩ => ⟨hne, hnamed, htype⟩, fun h => ⟨h.names_ne, h.named, h.type⟩⟩)

/-- The names, and the type behind the last of them. -/
def text (g : ParameterGroup) : Text := joinWith [',', ' '] g.names ++ [' '] ++ g.type

/-- Each name with its type. -/
def typed (g : ParameterGroup) : List (Text × Text) := g.names.map fun name => (name, g.type)

end ParameterGroup

/-- The items of a group: all names but the last stand alone. -/
def groupItems (type : Text) : List Text → List Text
  | [] => []
  | [name] => [name ++ [' '] ++ type]
  | name :: more => name :: groupItems type more

theorem groupItems_cons (type name : Text) {more : List Text} (h : more ≠ []) :
    groupItems type (name :: more) = name :: groupItems type more := by
  cases more with
  | nil => exact absurd rfl h
  | cons name' more => rfl

section

variable {type : Text} {names : List Text}

theorem groupItems_ne_nil (h : names ≠ []) : groupItems type names ≠ [] := by
  cases names with
  | nil => exact absurd rfl h
  | cons name more => cases more <;> exact List.cons_ne_nil _ _

theorem joinWith_groupItems (h : names ≠ []) :
    joinWith [',', ' '] (groupItems type names) = joinWith [',', ' '] names ++ [' '] ++ type := by
  induction names with
  | nil => exact absurd rfl h
  | cons name more ih =>
    by_cases hlast : more = []
    · rw [hlast]
      rfl
    · rw [groupItems_cons _ _ hlast, joinWith_cons _ _ _ (groupItems_ne_nil hlast), ih hlast, joinWith_cons _ _ _ hlast]
      simp only [List.append_assoc]

theorem isListItem_groupItems (hnames : ∀ name ∈ names, isIdentifier name = true) (htype : IsListItem type) :
    ∀ item ∈ groupItems type names, IsListItem item := by
  induction names with
  | nil => exact List.forall_mem_nil _
  | cons name more ih =>
    obtain ⟨hname, hmore⟩ := List.forall_mem_cons.mp hnames
    by_cases hlast : more = []
    · rw [hlast]
      exact List.forall_mem_singleton.mpr (.named hname htype)
    · rw [groupItems_cons _ _ hlast]
      exact List.forall_mem_cons.mpr ⟨isListItem_name hname, ih hmore⟩

/-! ## Reading groups -/

/-- An item declares no name exactly if the reader takes it for a type. -/
theorem isLone_iff {item : Text} (h : strip item = item) : IsLone item ↔ namedPiece item = (item, none) := by
  rcases namedPiece_cases h with ⟨name, type, hread, hnames⟩ | ⟨hread, hlone⟩
  · refine iff_of_false (fun hlone => hlone name type hnames) ?_
    rw [hread]
    intro hnone
    cases hnone
  · exact iff_of_true hlone hread

theorem isLone_name {name : Text} (h : isIdentifier name = true) : IsLone name := by
  rintro word type ⟨-, -, -, -, gap, hgap, hblank, rfl⟩
  obtain ⟨c, gap, rfl⟩ := List.exists_cons_of_ne_nil hgap
  have hc : isBlank c = true := List.all_eq_true.mp hblank c List.mem_cons_self
  have hword := isWord_of_isIdentifier h c (by simp)
  rw [not_isBlank_of_isWord hword] at hc
  cases hc

theorem namesType_item {name : Text} (h : isIdentifier name = true ∧ name ∉ typeWords) (htype : IsListItem type) :
    NamesType (name ++ [' '] ++ type) name type :=
  ⟨h.1, h.2, htype.ne_nil, htype.stripped, [' '], List.cons_ne_nil _ _, rfl, rfl⟩

/-- Some item of a group names a parameter. -/
theorem not_isLone_groupItems (hne : names ≠ []) (hnames : ∀ name ∈ names, isIdentifier name = true ∧ name ∉ typeWords)
    (htype : IsListItem type) : ∃ item ∈ groupItems type names, ¬ IsLone item := by
  induction names with
  | nil => exact absurd rfl hne
  | cons name more ih =>
    obtain ⟨hname, hmore⟩ := List.forall_mem_cons.mp hnames
    by_cases hlast : more = []
    · rw [hlast]
      exact ⟨_, List.mem_singleton_self _, fun hlone => hlone name type (namesType_item hname htype)⟩
    · obtain ⟨item, hitem, hnot⟩ := ih hlast hmore
      rw [groupItems_cons _ _ hlast]
      exact ⟨item, List.mem_cons_of_mem _ hitem, hnot⟩

/-- **The names of a group wait for its type,** and no longer. -/
theorem grouped_groupItems (hne : names ≠ []) (hnames : ∀ name ∈ names, isIdentifier name = true ∧ name ∉ typeWords)
    (htype : IsListItem type) (pending : List Text) (rest : List (Text × Option Text)) :
    grouped pending ((groupItems type names).map namedPiece ++ rest) =
      (pending.reverse ++ names).map (fun name => { name := name, type := some type }) ++ grouped [] rest := by
  induction names generalizing pending with
  | nil => exact absurd rfl hne
  | cons name more ih =>
    obtain ⟨hname, hmore⟩ := List.forall_mem_cons.mp hnames
    by_cases hlast : more = []
    · rw [hlast, groupItems, List.map_singleton, namedPiece_of_namesType (namesType_item hname htype)]
      rfl
    · have hlone := (isLone_iff (strip_identifier hname.1).1).mp (isLone_name hname.1)
      rw [groupItems_cons _ _ hlast, List.map_cons, hlone, List.cons_append, grouped, ih hlast hmore,
        List.reverse_cons, List.append_assoc]
      rfl

end

section

variable {groups : List ParameterGroup}

theorem joinWith_groups (h : ∀ g ∈ groups, g.IsWritten) :
    joinWith [',', ' '] (groups.map ParameterGroup.text) =
      joinWith [',', ' '] (groups.flatMap fun g => groupItems g.type g.names) := by
  induction groups with
  | nil => rfl
  | cons g groups ih =>
    obtain ⟨hg, hgroups⟩ := List.forall_mem_cons.mp h
    have htext : joinWith [',', ' '] (groupItems g.type g.names) = g.text := joinWith_groupItems hg.names_ne
    by_cases hlast : groups = []
    · rw [hlast, List.flatMap_singleton, htext]
      rfl
    · have hmore : groups.flatMap (fun g => groupItems g.type g.names) ≠ [] := by
        obtain ⟨g', hg'⟩ := List.exists_mem_of_ne_nil groups hlast
        intro hnil
        exact groupItems_ne_nil (hgroups g' hg').names_ne (List.flatMap_eq_nil_iff.mp hnil g' hg')
      rw [List.map_cons, joinWith_cons _ _ _ (by simpa using hlast), List.flatMap_cons,
        joinWith_append _ (groupItems_ne_nil hg.names_ne) hmore, htext, ih hgroups]

theorem grouped_groups (h : ∀ g ∈ groups, g.IsWritten) :
    grouped [] ((groups.flatMap fun g => groupItems g.type g.names).map namedPiece) =
      (groups.flatMap ParameterGroup.typed).map fun (name, type) => { name := name, type := some type } := by
  induction groups with
  | nil => rfl
  | cons g groups ih =>
    obtain ⟨hg, hgroups⟩ := List.forall_mem_cons.mp h
    rw [List.flatMap_cons, List.map_append, grouped_groupItems hg.names_ne hg.named hg.type, ih hgroups,
      List.flatMap_cons, List.map_append]
    simp [ParameterGroup.typed]

/-- The parameters of a list of items, some of which names a parameter. -/
theorem parametersOf_items {items : List Text} (h : ∀ item ∈ items, IsListItem item)
    (hnamed : ∃ item ∈ items, ¬ IsLone item) :
    parametersOf (joinWith [',', ' '] items) = grouped [] (items.map namedPiece) := by
  obtain ⟨item, hitem, hnot⟩ := hnamed
  have hany : (items.map namedPiece).any (·.2.isSome) = true := by
    refine List.any_eq_true.mpr ⟨_, List.mem_map_of_mem hitem, ?_⟩
    rcases namedPiece_cases (h item hitem).stripped with ⟨name, type, hread, -⟩ | ⟨-, hlone⟩
    · rw [hread]
      rfl
    · exact absurd hlone hnot
  unfold parametersOf
  dsimp only
  rw [splitTopLevel_items h, if_pos hany]

/-- The parameters of a list of types. -/
theorem parametersOf_types {types : List Text} (h : ∀ type ∈ types, IsListItem type ∧ IsLone type) :
    parametersOf (joinWith [',', ' '] types) = types.map fun type => { name := ['_'], type := some type } := by
  have hnone : ¬ (types.map namedPiece).any (·.2.isSome) = true := by
    rw [List.any_map, List.any_eq_true]
    rintro ⟨type, htype, hsome⟩
    obtain ⟨hitem, hlone⟩ := h type htype
    rw [Function.comp_apply, (isLone_iff hitem.stripped).mp hlone] at hsome
    cases hsome
  unfold parametersOf
  dsimp only
  rw [splitTopLevel_items fun type htype => (h type htype).1, if_neg hnone]

/-- **A list in groups has one parameter for each name, with the type of its group.** -/
theorem parametersOf_groups (hne : groups ≠ []) (h : ∀ g ∈ groups, g.IsWritten) :
    parametersOf (joinWith [',', ' '] (groups.map ParameterGroup.text)) =
      (groups.flatMap ParameterGroup.typed).map fun (name, type) => { name := name, type := some type } := by
  rw [joinWith_groups h, parametersOf_items, grouped_groups h]
  · intro item hitem
    obtain ⟨g, hg, hitem⟩ := List.mem_flatMap.mp hitem
    exact isListItem_groupItems (fun name hname => ((h g hg).named name hname).1) (h g hg).type item hitem
  · obtain ⟨g, hg⟩ := List.exists_mem_of_ne_nil groups hne
    obtain ⟨item, hitem, hnot⟩ := not_isLone_groupItems (h g hg).names_ne (h g hg).named (h g hg).type
    exact ⟨item, List.mem_flatMap.mpr ⟨g, hg, hitem⟩, hnot⟩

end

/-- **The parameters of a written list.**  A list in groups has one parameter for each name, in order, with the type of
its group and without an initial value; two lists declare the same exactly if they give the same names the same types,
however they group them.  Where no item names a parameter, each is the type of one without a name. -/
theorem parametersOf_written :
    (∀ groups : List ParameterGroup, groups ≠ [] → (∀ g ∈ groups, g.IsWritten) →
      parametersOf (joinWith [',', ' '] (groups.map ParameterGroup.text)) =
        (groups.flatMap ParameterGroup.typed).map fun (name, type) =>
          { name := name, type := some type, initial := none, isOptional := false }) ∧
    (∀ groups groups' : List ParameterGroup, groups ≠ [] → groups' ≠ [] → (∀ g ∈ groups, g.IsWritten) →
      (∀ g ∈ groups', g.IsWritten) →
      (parametersOf (joinWith [',', ' '] (groups.map ParameterGroup.text)) =
          parametersOf (joinWith [',', ' '] (groups'.map ParameterGroup.text)) ↔
        groups.flatMap ParameterGroup.typed = groups'.flatMap ParameterGroup.typed)) ∧
    (∀ types : List Text, (∀ type ∈ types, IsListItem type ∧ IsLone type) →
      parametersOf (joinWith [',', ' '] types) =
        types.map fun type => { name := ['_'], type := some type, initial := none, isOptional := false }) := by
  refine ⟨fun groups hne h => parametersOf_groups hne h, fun groups groups' hne hne' h h' => ?_,
    fun types h => parametersOf_types h⟩
  have hinjective : Function.Injective fun (typed : Text × Text) =>
      ({ name := typed.1, type := some typed.2 } : Parameter) := by
    rintro ⟨name, type⟩ ⟨name', type'⟩ heq
    cases heq
    rfl
  rw [parametersOf_groups hne h, parametersOf_groups hne' h']
  exact hinjective.list_map.eq_iff

/-- A pair of names that share a type, and types with blanks and commas of their own. -/
theorem parametersOf_written_shared :
    (parametersOf "a, b int, c string".toList = parametersOf "a int, b int, c string".toList ∧
      parametersOf "a, b int, c string".toList =
        [("a", "int"), ("b", "int"), ("c", "string")].map fun (name, type) =>
          { name := name.toList, type := some type.toList }) ∧
    parametersOf "chan int, func(a, b int) error".toList =
      ["chan int", "func(a, b int) error"].map fun type => { name := ['_'], type := some type.toList } := by
  let shared : List ParameterGroup := [⟨["a".toList, "b".toList], "int".toList⟩, ⟨["c".toList], "string".toList⟩]
  let apart : List ParameterGroup :=
    [⟨["a".toList], "int".toList⟩, ⟨["b".toList], "int".toList⟩, ⟨["c".toList], "string".toList⟩]
  have hshared : ∀ g ∈ shared, g.IsWritten := by decide
  have hapart : ∀ g ∈ apart, g.IsWritten := by decide
  have htypes : ∀ type ∈ ["chan int".toList, "func(a, b int) error".toList], IsListItem type ∧ IsLone type := by
    simp only [List.forall_mem_cons]
    exact ⟨⟨by decide, (isLone_iff (by decide)).mpr (by decide)⟩, ⟨by decide, (isLone_iff (by decide)).mpr (by decide)⟩,
      List.forall_mem_nil _⟩
  exact ⟨⟨(parametersOf_written.2.1 shared apart (by decide) (by decide) hshared hapart).mpr (by decide),
    parametersOf_written.1 shared (by decide) hshared⟩, parametersOf_written.2.2 _ htypes⟩

end SourceDoc.Braced
