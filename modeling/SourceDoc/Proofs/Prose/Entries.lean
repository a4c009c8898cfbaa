import SourceDoc.Proofs.Table
import SourceDoc.Prose.Basic

/-!
# Entries of prose

Prose is read off lists of entries that are objects with a name.  `Json.keepEntries` takes the named entries with other
than some wanted names out of a list and changes those that stay; `Json.edit` does something to one member of an object.
What is then read is what is read without that, but for the entries that were taken out:

    entriesOf name (edit name (keepEntries wanted change) m) = ((entriesOf name m).filter …).map …    (entriesOf_edit)
-/

namespace SourceDoc

namespace Json

/-- The members of an object, with the value under a name changed. -/
def edit (name : String) (change : Json → Json) (m : Members) : Members :=
  m.map fun (k, v) => (k, if k = name.toList then change v else v)

/-- The name that an entry gives. -/
def entryName? (m : Members) : Option Text := (Table.get? "name".toList m).bind text?

/-- An entry of a list as it is kept: without a name as it is, with a name where that is wanted, and changed. -/
def keepEntry (wanted : List Text) (change : Text → Members → Members) : Json → Option Json
  | .object m =>
    match entryName? m with
    | none => some (.object m)
    | some name => if wanted.contains name then some (.object (change name m)) else none
  | v => some v

/-- A list without the named entries whose names are not wanted, and with a change to those whose names are.  Any other
value stays as it is. -/
def keepEntries (wanted : List Text) (change : Text → Members → Members) : Json → Json
  | .list items => .list (items.filterMap (keepEntry wanted change))
  | v => v

theorem get_edit (k : Text) (name : String) (change : Json → Json) (m : Members) :
    Table.get? k (edit name change m) =
      if k = name.toList then (Table.get? k m).map change else Table.get? k m := by
  unfold edit
  induction m with
  | nil => simp
  | cons p m ih =>
    obtain ⟨k', v⟩ := p
    rw [List.map_cons, Table.get_cons, Table.get_cons, ih]
    by_cases hk : k' = k
    · subst hk
      by_cases hname : k' = name.toList
      · simp [hname]
      · simp [hname]
    · simp [hk]

theorem get_edit_of_ne {k : Text} {name : String} (h : k ≠ name.toList) (change : Json → Json) (m : Members) :
    Table.get? k (edit name change m) = Table.get? k m := by
  rw [get_edit, if_neg h]

theorem entryName_edit {name : String} (h : "name".toList ≠ name.toList) (change : Json → Json) (m : Members) :
    entryName? (edit name change m) = entryName? m := by
  unfold entryName?
  rw [get_edit_of_ne h]

end Json

namespace Prose

open Json

/-! ## Entries that are kept -/

section

variable (wanted : List Text) (change : Text → Members → Members)
  (hchange : ∀ name m, entryName? (change name m) = entryName? m)

include hchange

theorem entries_keepEntries (v : Json) :
    entries (some (keepEntries wanted change v)) =
      ((entries (some v)).filter fun p => wanted.contains p.1).map fun p => (p.1, change p.1 p.2) := by
  cases v with
  | list items =>
    -- an item is kept, changed or taken out, and has its place among the entries accordingly
    simp only [entries, keepEntries]
    induction items with
    | nil => rfl
    | cons item items ih =>
      cases item with
      | object m =>
        cases hname : entryName? m with
        | none =>
          have hkept : keepEntry wanted change (.object m) = some (.object m) := by simp [keepEntry, hname]
          unfold entryName? at hname
          rw [List.filterMap_cons_some hkept]
          simp only [List.filterMap_cons, hname, Option.map_none, ih]
        | some name =>
          by_cases hwanted : wanted.contains name = true
          · have hkept : keepEntry wanted change (.object m) = some (.object (change name m)) := by
              simp only [keepEntry, hname, hwanted, if_true]
            have hagain := (hchange name m).trans hname
            unfold entryName? at hname hagain
            rw [List.filterMap_cons_some hkept]
            simp only [List.filterMap_cons, hname, hagain, Option.map_some, ih, List.filter_cons, hwanted, if_true,
              List.map_cons]
          · have hgone : keepEntry wanted change (.object m) = none := by
              simp only [keepEntry, hname, hwanted]
              rfl
            unfold entryName? at hname
            rw [List.filterMap_cons_none hgone]
            simp only [List.filterMap_cons, hname, Option.map_some, ih, List.filter_cons, hwanted]
            rfl
      | _ => exact ih
  | _ => rfl

/-- **What is read of a member whose entries are kept.** -/
theorem entriesOf_edit (name : String) (m : Members) :
    entriesOf name (edit name (keepEntries wanted change) m) =
      ((entriesOf name m).filter fun p => wanted.contains p.1).map fun p => (p.1, change p.1 p.2) := by
  unfold entriesOf
  rw [get_edit, if_pos rfl]
  cases Table.get? name.toList m with
  | none => rfl
  | some v => exact entries_keepEntries wanted change hchange v

/-- A look-up of what is read of the entries under a wanted name reads the changed entry. -/
theorem get_ofPairs_entriesOf_edit {α : Type} (read : Members → α) (name : String) (m : Members) (key : Text)
    (hkey : key ∈ wanted) :
    Table.get? key (Table.ofPairs ((entriesOf name (edit name (keepEntries wanted change) m)).map fun p =>
        (p.1, read p.2))) =
      (Table.get? key (Table.ofPairs (entriesOf name m))).map fun e => read (change key e) := by
  have hcontains : wanted.contains key = true := List.contains_iff_mem.mpr hkey
  rw [entriesOf_edit wanted change hchange, List.map_map]
  have hmap := Table.get_ofPairs_map (fun name e => read (change name e)) key
    ((entriesOf name m).filter fun p => wanted.contains p.1)
  rw [Table.get_ofPairs_filter wanted.contains key hcontains] at hmap
  exact hmap

end

/-- A look-up of what is read of the entries reads the entry. -/
theorem get_ofPairs_entriesOf {α : Type} (read : Members → α) (name : String) (m : Members) (key : Text) :
    Table.get? key (Table.ofPairs ((entriesOf name m).map fun p => (p.1, read p.2))) =
      (Table.get? key (Table.ofPairs (entriesOf name m))).map read :=
  Table.get_ofPairs_map (fun _ e => read e) key (entriesOf name m)

theorem textOf_edit {key name : String} (h : key.toList ≠ name.toList) (change : Json → Json) (m : Members) :
    textOf key (edit name change m) = textOf key m := by
  unfold textOf
  rw [get_edit_of_ne h]

theorem entriesOf_edit_of_ne {key name : String} (h : key.toList ≠ name.toList) (change : Json → Json) (m : Members) :
    entriesOf key (edit name change m) = entriesOf key m := by
  unfold entriesOf
  rw [get_edit_of_ne h]

/-! ## Descriptions -/

/-- Only the entries with some names, as they are. -/
def only (wanted : List Text) : Json → Json := keepEntries wanted fun _ m => m

/-- **The descriptions in the entries with some names are those with these names.** -/
theorem described_only (wanted : List Text) (name : String) (m : Members) :
    described name (edit name (only wanted) m) = (described name m).filter fun p => wanted.contains p.1 := by
  unfold described only
  rw [entriesOf_edit wanted _ (fun _ _ => rfl), Table.filter_ofPairs wanted.contains]
  rw [List.map_id', List.filterMap_filter, List.filter_filterMap]
  congr 2
  funext ⟨entry, e⟩
  cases htext : textOf "description" e with
  | none => simp [htext]
  | some text => simp [htext, Option.filter]

theorem described_edit_of_ne {key name : String} (h : key.toList ≠ name.toList) (change : Json → Json) (m : Members) :
    described key (edit name change m) = described key m := by
  unfold described
  rw [entriesOf_edit_of_ne h]

/-- Prose about a function, with some of its parameters. -/
theorem ofFunction_edit (wanted : List Text) (m : Members) :
    ofFunction (edit "parameters" (only wanted) m) =
      { ofFunction m with parameters := (ofFunction m).parameters.filter fun p => wanted.contains p.1 } := by
  unfold ofFunction
  rw [textOf_edit (by decide), textOf_edit (by decide), textOf_edit (by decide), get_edit_of_ne (by decide),
    described_only]

end Prose

end SourceDoc
