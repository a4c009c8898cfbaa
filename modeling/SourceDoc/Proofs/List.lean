import Mathlib.Data.List.Forall2
import Mathlib.Data.List.Nodup

/-!
# Lists

A list whose values stay stays as it is (`map_eq_self`).  What is made of values that differ in a key differs in the key
(`nodup_map_filterMap`), and what is left of a list without its repetitions has none (`nodup_eraseDups`).  Two lists
that match have a match for each value (`exists_of_forall₂`), and order goes over from one to the other
(`pairwise_of_forall₂`).  A list that is made value by value without a failure matches the list that it is made of
(`mapM_ok_of_forall`).  Values with numbers of their own come in one order only (`eq_of_perm_of_increasing`).  The
characters of a literal need not be read off it (`of_literal`), nor those of a list of literals (`literals_cons`).
-/

namespace SourceDoc

/-- What holds of some characters holds of those of their string, and a literal is the string of its characters. -/
theorem of_literal {p : List Char → Prop} {t : List Char} (h : p t) : p (String.ofList t).toList := by
  rwa [String.toList_ofList]

/-- The characters of some literals are taken one literal after another. -/
theorem literals_cons {t : List Char} {literals : List String} {ts : List (List Char)}
    (h : literals.map String.toList = ts) : (String.ofList t :: literals).map String.toList = t :: ts := by
  rw [List.map_cons, String.toList_ofList, h]

/-- A list stays if each of its values does. -/
theorem map_eq_self {α : Type} {f : α → α} {l : List α} (h : ∀ a ∈ l, f a = a) : l.map f = l :=
  (List.map_congr_left h).trans (List.map_id l)

theorem nodup_eraseDups {α : Type} [BEq α] [LawfulBEq α] (l : List α) : l.eraseDups.Nodup := by
  induction h : l.length using Nat.strongRecOn generalizing l with
  | ind n ih =>
    cases l with
    | nil => simp
    | cons a l =>
      rw [List.eraseDups_cons, List.nodup_cons]
      refine ⟨by simp [List.mem_eraseDups], ih _ ?_ _ rfl⟩
      have := List.length_filter_le (fun b => !b == a) l
      simp only [List.length_cons] at h
      omega

/-- What is there is changed in its place. -/
theorem filterMap_id_map {α β : Type} (f : α → β) (l : List (Option α)) :
    (l.map (·.map f)).filterMap id = (l.filterMap id).map f := by
  rw [List.filterMap_map, List.map_filterMap]
  rfl

/-- Values made of others with keys of their own have keys of their own. -/
theorem nodup_map_filterMap {α β κ : Type} (f : α → Option β) (key : α → κ) (key' : β → κ) (l : List α)
    (h : ∀ a ∈ l, ∀ b, f a = some b → key' b = key a) (hd : (l.map key).Nodup) : ((l.filterMap f).map key').Nodup := by
  induction l with
  | nil => exact .nil
  | cons a l ih =>
    obtain ⟨ha, hl⟩ := List.forall_mem_cons.mp h
    rw [List.map_cons, List.nodup_cons] at hd
    rw [List.filterMap_cons]
    cases hf : f a with
    | none => exact ih hl hd.2
    | some b =>
      rw [List.map_cons, List.nodup_cons]
      refine ⟨?_, ih hl hd.2⟩
      intro hm
      obtain ⟨b', hb', he⟩ := List.mem_map.mp hm
      obtain ⟨a', ha', hfa'⟩ := List.mem_filterMap.mp hb'
      apply hd.1
      rw [← ha b hf, ← he, hl a' ha' b' hfa']
      exact List.mem_map.mpr ⟨a', ha', rfl⟩

/-- Every value on the right has a match on the left. -/
theorem exists_mem_of_forall₂ {α β : Type} {R : α → β → Prop} {l : List α} {l' : List β} (h : List.Forall₂ R l l')
    (b : β) (hb : b ∈ l') : ∃ a ∈ l, R a b := by
  induction h with
  | nil => cases hb
  | @cons a _ l _ hfirst _ ih =>
    rcases List.mem_cons.mp hb with rfl | hb
    · exact ⟨a, List.mem_cons_self, hfirst⟩
    · obtain ⟨a', ha', hab⟩ := ih hb
      exact ⟨a', List.mem_cons_of_mem _ ha', hab⟩

theorem exists_of_forall₂ {α β : Type} {R : α → β → Prop} {l : List α} {l' : List β} (h : List.Forall₂ R l l') (b : β)
    (hb : b ∈ l') : ∃ a, R a b := (exists_mem_of_forall₂ h b hb).imp fun _ => And.right

/-- Nothing follows any of the values if the list is that of the values alone. -/
theorem flatMap_cons_eq_map_iff {α β : Type} {f : α → β} {g : α → List β} (l : List α) :
    (l.flatMap fun a => f a :: g a) = l.map f ↔ ∀ a ∈ l, g a = [] := by
  have hle : ∀ l : List α, l.length ≤ (l.flatMap fun a => f a :: g a).length := by
    intro l
    induction l with
    | nil => exact Nat.le_refl 0
    | cons a l ih =>
      rw [List.flatMap_cons, List.length_append, List.length_cons, List.length_cons]
      omega
  induction l with
  | nil => simp
  | cons a l ih =>
    rw [List.flatMap_cons, List.map_cons, List.cons_append, List.forall_mem_cons]
    constructor
    · intro h
      have htail := (List.cons.inj h).2
      have hlength := congrArg List.length htail
      rw [List.length_append, List.length_map] at hlength
      have hnil : g a = [] := List.eq_nil_of_length_eq_zero (by have := hle l; omega)
      rw [hnil] at htail
      exact ⟨hnil, ih.mp htail⟩
    · rintro ⟨hnil, htail⟩
      rw [hnil, ih.mpr htail]
      rfl

/-- Every value matches what is made of it. -/
theorem forall₂_map {α : Type} {R : α → α → Prop} {f : α → α} (h : ∀ a, R a (f a)) (l : List α) :
    List.Forall₂ R l (l.map f) :=
  List.forall₂_map_right_iff.mpr (List.forall₂_same.mpr fun a _ => h a)

theorem pairwise_of_forall₂ {α β : Type} {P : α → β → Prop} {R : α → α → Prop} {S : β → β → Prop} {l : List α}
    {l' : List β} (h : List.Forall₂ P l l') (hl : l.Pairwise R)
    (hS : ∀ a a' b b', R a a' → P a b → P a' b' → S b b') : l'.Pairwise S := by
  induction h with
  | nil => exact .nil
  | @cons a b l l' hfirst hrest ih =>
    obtain ⟨ha, hl⟩ := List.pairwise_cons.mp hl
    refine List.pairwise_cons.mpr ⟨fun b' hb' => ?_, ih hl⟩
    obtain ⟨a', ha', hab⟩ := exists_mem_of_forall₂ hrest b' hb'
    exact hS a a' b b' (ha a' ha') hfirst hab

theorem exists_of_bind_ok {α β ε : Type} {x : Except ε α} {f : α → Except ε β} {b : β} (h : x >>= f = .ok b) :
    ∃ a, x = .ok a ∧ f a = .ok b := by
  cases x with
  | error e => cases h
  | ok a => exact ⟨a, rfl, h⟩

theorem bind_eq_ok_iff {α β ε : Type} {x : Except ε α} {f : α → Except ε β} {b : β} :
    x >>= f = .ok b ↔ ∃ a, x = .ok a ∧ f a = .ok b := by
  constructor
  · exact exists_of_bind_ok
  · rintro ⟨a, rfl, h⟩
    exact h

theorem exists_of_map_ok {α β ε : Type} {x : Except ε α} {f : α → β} {b : β} (h : x.map f = .ok b) :
    ∃ a, x = .ok a ∧ f a = b := by
  cases x with
  | error e => cases h
  | ok a => exact ⟨a, rfl, Except.ok.inj h⟩

/-- A value of a list that is made value by value is made of one. -/
theorem exists_of_mem_mapM {α β ε : Type} {f : α → Except ε β} {l : List α} {bs : List β} (h : l.mapM f = .ok bs)
    {b : β} (hb : b ∈ bs) : ∃ a ∈ l, f a = .ok b := by
  induction l generalizing bs with
  | nil =>
    cases h
    cases hb
  | cons a l ih =>
    rw [List.mapM_cons] at h
    obtain ⟨b', hb', h⟩ := exists_of_bind_ok h
    obtain ⟨rest, hrest, h⟩ := exists_of_bind_ok h
    cases h
    rcases List.mem_cons.mp hb with rfl | hb
    · exact ⟨a, List.mem_cons_self, hb'⟩
    · obtain ⟨a', ha', hab⟩ := ih hrest hb
      exact ⟨a', List.mem_cons_of_mem _ ha', hab⟩

theorem exists_of_mapM_ok {α β ε : Type} {f : α → Except ε β} {l : List α} {bs : List β} (h : l.mapM f = .ok bs)
    {a : α} (ha : a ∈ l) : ∃ b ∈ bs, f a = .ok b := by
  induction l generalizing bs with
  | nil => cases ha
  | cons a' l ih =>
    rw [List.mapM_cons] at h
    obtain ⟨b, hb, h⟩ := exists_of_bind_ok h
    obtain ⟨rest, hrest, h⟩ := exists_of_bind_ok h
    cases h
    rcases List.mem_cons.mp ha with rfl | ha
    · exact ⟨b, List.mem_cons_self, hb⟩
    · obtain ⟨b', hb', hab⟩ := ih hrest ha
      exact ⟨b', List.mem_cons_of_mem _ hb', hab⟩

theorem mapM_ok_of_forall {α β ε : Type} {f : α → Except ε β} {P : α → β → Prop} (l : List α)
    (h : ∀ a ∈ l, ∃ b, f a = .ok b ∧ P a b) : ∃ l', l.mapM f = .ok l' ∧ List.Forall₂ P l l' := by
  induction l with
  | nil => exact ⟨[], rfl, .nil⟩
  | cons a l ih =>
    obtain ⟨⟨b, hb, hab⟩, hl⟩ := List.forall_mem_cons.mp h
    obtain ⟨l', hl', hforall⟩ := ih hl
    refine ⟨b :: l', ?_, .cons hab hforall⟩
    rw [List.mapM_cons, hb, hl']
    rfl

/-- What each result has of its argument, the results have of the arguments. -/
theorem map_of_mapM_ok {α β γ ε : Type} {f : α → Except ε β} {g : β → γ} {k : α → γ}
    (hf : ∀ a b, f a = .ok b → g b = k a) {l : List α} {bs : List β} (h : l.mapM f = .ok bs) : bs.map g = l.map k := by
  induction l generalizing bs with
  | nil =>
    cases h
    rfl
  | cons a l ih =>
    rw [List.mapM_cons] at h
    obtain ⟨b, hb, h⟩ := exists_of_bind_ok h
    obtain ⟨bs', hbs, h⟩ := exists_of_bind_ok h
    cases h
    rw [List.map_cons, List.map_cons, hf a b hb, ih hbs]

theorem mapM_congr_of_mem {α β ε : Type} {f g : α → Except ε β} {l : List α} (h : ∀ a ∈ l, f a = g a) :
    l.mapM f = l.mapM g := by
  induction l with
  | nil => rfl
  | cons a l ih =>
    obtain ⟨ha, hl⟩ := List.forall_mem_cons.mp h
    rw [List.mapM_cons, List.mapM_cons, ha, ih hl]

theorem mapM_ok_const {α β ε : Type} (b : β) (l : List α) :
    l.mapM (fun _ => (.ok b : Except ε β)) = .ok (l.map fun _ => b) := by
  induction l with
  | nil => rfl
  | cons a l ih =>
    rw [List.mapM_cons, ih]
    rfl

theorem mapM_except_map {α β γ ε : Type} {f : α → Except ε γ} {g : α → Except ε β} (k : β → γ) (l : List α)
    (h : ∀ a, f a = (g a).map k) : l.mapM f = (l.mapM g).map (List.map k) := by
  induction l with
  | nil => rfl
  | cons a l ih =>
    rw [List.mapM_cons, List.mapM_cons, h, ih]
    cases g a with
    | error e => rfl
    | ok b => cases l.mapM g <;> rfl

/-! ## Values in the order of a number -/

section

variable {α : Type} (key : α → Int)

theorem pairwise_mergeSort_key (l : List α) :
    (l.mergeSort fun a b => key a ≤ key b).Pairwise fun a b => key a ≤ key b := by
  have htrans : ∀ a b c, decide (key a ≤ key b) = true → decide (key b ≤ key c) = true →
      decide (key a ≤ key c) = true := by
    intro a b c hab hbc
    simp only [decide_eq_true_eq] at hab hbc ⊢
    omega
  have htotal : ∀ a b, (decide (key a ≤ key b) || decide (key b ≤ key a)) = true := by
    intro a b
    simp only [Bool.or_eq_true, decide_eq_true_eq]
    omega
  exact (List.pairwise_mergeSort htrans htotal l).imp of_decide_eq_true

theorem increasing_of_nodup {l : List α} (h : l.Pairwise fun a b => key a ≤ key b) (hd : (l.map key).Nodup) :
    l.Pairwise fun a b => key a < key b := by
  have hne : l.Pairwise fun a b => key a ≠ key b := List.pairwise_map.mp hd
  exact h.imp₂ (fun a b hle hne => by omega) hne

theorem nodup_of_increasing {l : List α} (h : l.Pairwise fun a b => key a < key b) : (l.map key).Nodup :=
  List.pairwise_map.mpr (h.imp Int.ne_of_lt)

theorem eq_of_perm_of_increasing {l l' : List α} (hp : l.Perm l') (h : l.Pairwise fun a b => key a < key b)
    (h' : l'.Pairwise fun a b => key a < key b) : l = l' :=
  List.Perm.eq_of_pairwise (fun _ _ _ _ hab hba => absurd hab (Int.lt_asymm hba)) h h' hp

/-- A value is the only one of those of a sort if they all have its number. -/
theorem filter_eq_singleton {l : List α} (h : l.Pairwise fun a b => key a < key b) {a : α} (ha : a ∈ l) {p : α → Bool}
    (hp : p a = true) (honly : ∀ b ∈ l, p b = true → key b = key a) : l.filter p = [a] := by
  obtain ⟨before, after, rfl⟩ := List.append_of_mem ha
  obtain ⟨-, hafter, hbefore⟩ := List.pairwise_append.mp h
  have hnone : before.filter p = [] := List.filter_eq_nil_iff.mpr fun b hb hpb => by
    have hlt := hbefore b hb a List.mem_cons_self
    have := honly b (List.mem_append_left _ hb) hpb
    omega
  have hnone' : after.filter p = [] := List.filter_eq_nil_iff.mpr fun b hb hpb => by
    have hlt := (List.pairwise_cons.mp hafter).1 b hb
    have := honly b (List.mem_append_right _ (List.mem_cons_of_mem _ hb)) hpb
    omega
  rw [List.filter_append, List.filter_cons_of_pos hp, hnone, hnone', List.nil_append]

end

end SourceDoc
