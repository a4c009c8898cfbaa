import Mathlib.Data.List.Induction
import Mathlib.Data.List.Nodup
import SourceDoc.Table

/-!
# Tables

A table none of whose keys is given twice is the table of its own pairs (`ofPairs_of_nodup`), and each of its pairs
is found under its key (`get_of_mem`).  In any table, what is found was put in (`mem_of_get`, `mem_put`).

Of the table of some pairs, the part with some of the keys is the table of the pairs with those keys
(`filter_ofPairs`), so a look-up does not depend on the pairs with other keys (`get_ofPairs_filter`).
-/

namespace SourceDoc.Table

variable {α : Type}

@[simp] theorem get_nil (key : Text) : get? key ([] : List (Text × α)) = none := rfl

theorem get_cons (key k : Text) (v : α) (t : List (Text × α)) :
    get? key ((k, v) :: t) = if k = key then some v else get? key t := rfl

@[simp] theorem put_nil (key : Text) (value : α) : put key value [] = [(key, value)] := rfl

theorem put_cons (key : Text) (value : α) (k : Text) (v : α) (t : List (Text × α)) :
    put key value ((k, v) :: t) = if k = key then (k, value) :: t else (k, v) :: put key value t := rfl

theorem put_of_not_mem (key : Text) (value : α) (t : List (Text × α)) (h : key ∉ t.map Prod.fst) :
    put key value t = t ++ [(key, value)] := by
  induction t with
  | nil => rfl
  | cons p t ih =>
    obtain ⟨k, v⟩ := p
    simp only [List.map_cons, List.mem_cons, not_or] at h
    rw [put_cons, if_neg (Ne.symm h.1), ih h.2]
    rfl

theorem foldl_put_of_nodup (pairs t : List (Text × α)) (h : ((t ++ pairs).map Prod.fst).Nodup) :
    pairs.foldl (fun t p => put p.1 p.2 t) t = t ++ pairs := by
  induction pairs generalizing t with
  | nil => simp
  | cons p pairs ih =>
    have hp : p.1 ∉ t.map Prod.fst := by
      rw [List.map_append, List.map_cons, List.nodup_append] at h
      exact fun hm => h.2.2 _ hm _ List.mem_cons_self rfl
    rw [List.foldl_cons, put_of_not_mem p.1 p.2 t hp, ih (t ++ [p]) (by simpa using h)]
    simp

/-- **Pairs with distinct keys are a table as they are.** -/
theorem ofPairs_of_nodup (pairs : List (Text × α)) (h : (pairs.map Prod.fst).Nodup) : ofPairs pairs = pairs := by
  unfold ofPairs
  rw [foldl_put_of_nodup pairs [] (by simpa using h), List.nil_append]

/-- **A pair of a table with distinct keys is found under its key.** -/
theorem get_of_mem (t : List (Text × α)) (h : (t.map Prod.fst).Nodup) (key : Text) (value : α)
    (hm : (key, value) ∈ t) : get? key t = some value := by
  induction t with
  | nil => cases hm
  | cons p t ih =>
    obtain ⟨k, v⟩ := p
    rw [List.map_cons, List.nodup_cons] at h
    rw [get_cons]
    rcases List.mem_cons.mp hm with he | hm
    · cases he
      rw [if_pos rfl]
    · have hk : k ≠ key := by
        rintro rfl
        exact h.1 (List.mem_map.mpr ⟨_, hm, rfl⟩)
      rw [if_neg hk, ih h.2 hm]

/-- What is found under a key stands there. -/
theorem mem_of_get (t : List (Text × α)) (key : Text) (value : α) (h : get? key t = some value) : (key, value) ∈ t := by
  induction t with
  | nil => cases h
  | cons p t ih =>
    obtain ⟨k, v⟩ := p
    rw [get_cons] at h
    by_cases hk : k = key
    · rw [if_pos hk] at h
      cases h
      rw [hk]
      exact List.mem_cons_self
    · rw [if_neg hk] at h
      exact List.mem_cons_of_mem _ (ih h)

/-- Something is found under a key exactly if the key is there. -/
theorem get_isSome {key : Text} {t : List (Text × α)} : (get? key t).isSome = true ↔ key ∈ t.map Prod.fst := by
  induction t with
  | nil => simp
  | cons p t ih =>
    obtain ⟨k, v⟩ := p
    rw [get_cons, List.map_cons, List.mem_cons]
    by_cases hk : k = key
    · rw [if_pos hk]
      exact iff_of_true rfl (.inl hk.symm)
    · rw [if_neg hk, ih]
      exact (or_iff_right (Ne.symm hk)).symm

/-- What is put into a table is the only thing that is new in it. -/
theorem mem_put (t : List (Text × α)) (key : Text) (value : α) (p : Text × α) (h : p ∈ put key value t) :
    p.2 = value ∨ p ∈ t := by
  induction t with
  | nil =>
    rw [put_nil, List.mem_singleton] at h
    exact .inl (by rw [h])
  | cons q t ih =>
    obtain ⟨k, v⟩ := q
    rw [put_cons] at h
    by_cases hk : k = key
    · rw [if_pos hk] at h
      rcases List.mem_cons.mp h with rfl | h
      · exact .inl rfl
      · exact .inr (List.mem_cons_of_mem _ h)
    · rw [if_neg hk] at h
      rcases List.mem_cons.mp h with rfl | h
      · exact .inr List.mem_cons_self
      · exact (ih h).imp_right (List.mem_cons_of_mem _)

theorem get_map {β : Type} (f : Text → α → β) (key : Text) (t : List (Text × α)) :
    get? key (t.map fun p => (p.1, f p.1 p.2)) = (get? key t).map (f key) := by
  induction t with
  | nil => rfl
  | cons p t ih =>
    obtain ⟨k, v⟩ := p
    rw [List.map_cons, get_cons, get_cons, ih]
    by_cases hk : k = key
    · rw [if_pos hk, if_pos hk, hk]
      rfl
    · rw [if_neg hk, if_neg hk]

/-- A look-up does not depend on the order of the keys. -/
theorem get_perm {t t' : List (Text × α)} (h : t.Perm t') (hkeys : (t.map Prod.fst).Nodup) (key : Text) :
    get? key t = get? key t' := by
  have hkeys' : (t'.map Prod.fst).Nodup := (h.map Prod.fst).nodup_iff.mp hkeys
  cases hv : get? key t with
  | none =>
    have hkey : key ∉ t'.map Prod.fst := by
      intro hmem
      have hsome := get_isSome.mpr ((h.map Prod.fst).mem_iff.mpr hmem)
      rw [hv] at hsome
      cases hsome
    cases hv' : get? key t' with
    | none => rfl
    | some v => exact absurd (get_isSome.mp (by rw [hv']; rfl)) hkey
  | some v => exact (get_of_mem t' hkeys' key v (h.mem_iff.mp (mem_of_get t key v hv))).symm

/-- What is found under a key in two tables that match matches. -/
theorem rel_get {β : Type} {R : Text → α → β → Prop} {t : List (Text × α)} {t' : List (Text × β)}
    (h : List.Forall₂ (fun p q => p.1 = q.1 ∧ R p.1 p.2 q.2) t t') (key : Text) :
    Option.Rel (R key) (get? key t) (get? key t') := by
  induction h with
  | nil => exact .none
  | @cons p q t t' hpq _ ih =>
    obtain ⟨k, v⟩ := p
    obtain ⟨k', v'⟩ := q
    obtain ⟨rfl, hv⟩ := hpq
    rw [get_cons, get_cons]
    by_cases hk : k = key
    · rw [if_pos hk, if_pos hk]
      exact .some (hk ▸ hv)
    · rw [if_neg hk, if_neg hk]
      exact ih

/-! ## Tables of pairs -/

theorem get_put (k key : Text) (value : α) (t : List (Text × α)) :
    get? k (put key value t) = if key = k then some value else get? k t := by
  induction t with
  | nil => rfl
  | cons p t ih =>
    obtain ⟨k', v⟩ := p
    rw [put_cons]
    by_cases hk' : k' = key
    · subst hk'
      rw [if_pos rfl, get_cons, get_cons]
      by_cases hk : k' = k
      · rw [if_pos hk, if_pos hk]
      · rw [if_neg hk, if_neg hk, if_neg hk]
    · rw [if_neg hk', get_cons, ih, get_cons]
      by_cases hk : k' = k
      · have hne : key ≠ k := fun h => hk' (hk.trans h.symm)
        rw [if_pos hk, if_pos hk, if_neg hne]
      · rw [if_neg hk, if_neg hk]

theorem ofPairs_append_singleton (pairs : List (Text × α)) (p : Text × α) :
    ofPairs (pairs ++ [p]) = put p.1 p.2 (ofPairs pairs) := by
  unfold ofPairs
  rw [List.foldl_append]
  rfl

theorem map_fst_put (key : Text) (value : α) (t : List (Text × α)) :
    (put key value t).map Prod.fst = if key ∈ t.map Prod.fst then t.map Prod.fst else t.map Prod.fst ++ [key] := by
  induction t with
  | nil => rfl
  | cons p t ih =>
    obtain ⟨k, v⟩ := p
    rw [put_cons, List.map_cons]
    by_cases hk : k = key
    · rw [if_pos hk, if_pos (List.mem_cons.mpr (.inl hk.symm))]
      rfl
    · rw [if_neg hk, List.map_cons, ih]
      by_cases hkey : key ∈ t.map Prod.fst
      · rw [if_pos hkey, if_pos (List.mem_cons_of_mem _ hkey)]
      · rw [if_neg hkey, if_neg fun h => (List.mem_cons.mp h).elim (Ne.symm hk) hkey]
        rfl

/-- **No key stands in the table of some pairs twice.** -/
theorem nodup_ofPairs (pairs : List (Text × α)) : ((ofPairs pairs).map Prod.fst).Nodup := by
  induction pairs using List.reverseRecOn with
  | nil => exact List.nodup_nil
  | append_singleton pairs p ih =>
    rw [ofPairs_append_singleton, map_fst_put]
    by_cases hkey : p.1 ∈ (ofPairs pairs).map Prod.fst
    · rwa [if_pos hkey]
    · rw [if_neg hkey]
      exact List.concat_eq_append ▸ (List.nodup_concat _ _).mpr ⟨hkey, ih⟩

/-- The values of the table are values of the pairs. -/
theorem exists_of_mem_ofPairs {pairs : List (Text × α)} {p : Text × α} (h : p ∈ ofPairs pairs) :
    ∃ q ∈ pairs, q.2 = p.2 := by
  induction pairs using List.reverseRecOn with
  | nil => cases h
  | append_singleton pairs q ih =>
    rw [ofPairs_append_singleton] at h
    obtain hvalue | h := mem_put _ _ _ _ h
    · exact ⟨q, List.mem_append_right _ List.mem_cons_self, hvalue.symm⟩
    · obtain ⟨q', hq', hvalue⟩ := ih h
      exact ⟨q', List.mem_append_left _ hq', hvalue⟩

/-- Values may be changed by key before they are put into a table or when they are looked up. -/
theorem get_ofPairs_map {β : Type} (f : Text → α → β) (key : Text) (pairs : List (Text × α)) :
    get? key (ofPairs (pairs.map fun p => (p.1, f p.1 p.2))) = (get? key (ofPairs pairs)).map (f key) := by
  induction pairs using List.reverseRecOn with
  | nil => rfl
  | append_singleton pairs p ih =>
    rw [List.map_append, List.map_singleton, ofPairs_append_singleton, ofPairs_append_singleton, get_put, get_put, ih]
    by_cases hk : p.1 = key
    · rw [if_pos hk, if_pos hk, hk]
      rfl
    · rw [if_neg hk, if_neg hk]

section

variable (wanted : Text → Bool)

theorem filter_put (key : Text) (value : α) (t : List (Text × α)) :
    (put key value t).filter (fun p => wanted p.1) =
      if wanted key then put key value (t.filter fun p => wanted p.1) else t.filter fun p => wanted p.1 := by
  induction t with
  | nil => cases h : wanted key <;> simp [h]
  | cons p t ih =>
    obtain ⟨k, v⟩ := p
    rw [put_cons]
    by_cases hk : k = key
    · subst hk
      cases h : wanted k <;> simp [put_cons, h]
    · rw [if_neg hk, List.filter_cons, List.filter_cons, ih]
      cases h : wanted k <;> cases hkey : wanted key <;> simp [put_cons, hk]

/-- **The part of a table with some keys is the table of the pairs with those keys.** -/
theorem filter_ofPairs (pairs : List (Text × α)) :
    (ofPairs pairs).filter (fun p => wanted p.1) = ofPairs (pairs.filter fun p => wanted p.1) := by
  induction pairs using List.reverseRecOn with
  | nil => rfl
  | append_singleton pairs p ih =>
    rw [ofPairs_append_singleton, filter_put, ih, List.filter_append]
    cases h : wanted p.1 with
    | true => rw [if_pos rfl, ← ofPairs_append_singleton, List.filter_cons_of_pos (by simpa using h), List.filter_nil]
    | false => rw [if_neg Bool.false_ne_true, List.filter_cons_of_neg (by simp [h]), List.filter_nil, List.append_nil]

theorem get_filter (key : Text) (hkey : wanted key = true) (t : List (Text × α)) :
    get? key (t.filter fun p => wanted p.1) = get? key t := by
  induction t with
  | nil => rfl
  | cons p t ih =>
    obtain ⟨k, v⟩ := p
    rw [List.filter_cons, get_cons]
    by_cases hk : k = key
    · subst hk
      rw [if_pos hkey, get_cons, if_pos rfl, if_pos rfl]
    · cases h : wanted k with
      | true => rw [if_pos rfl, get_cons, if_neg hk, if_neg hk, ih]
      | false => simpa [hk] using ih

/-- A look-up does not depend on the pairs with other keys. -/
theorem get_ofPairs_filter (key : Text) (hkey : wanted key = true) (pairs : List (Text × α)) :
    get? key (ofPairs (pairs.filter fun p => wanted p.1)) = get? key (ofPairs pairs) := by
  rw [← filter_ofPairs, get_filter wanted key hkey]

end

end SourceDoc.Table
