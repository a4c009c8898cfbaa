import SourceDoc.Outline.Json
import SourceDoc.Proofs.Json.RoundTrip

/-!
# Records

A record is written as an object with its members under distinct names, and read by looking members up.  What a reader
gives depends on the members that it asks for and on nothing else (`Has`), so the object for a record may have more
members, before and after those of the record.
-/

namespace SourceDoc.Json

/-! ## Members of records -/

/-- Names that are distinct are so as texts. -/
theorem nodup_names (members : List (String × Json)) (hnd : (members.map Prod.fst).Nodup) :
    ((members.map fun (name, value) => (name.toList, value)).map Prod.fst).Nodup := by
  rw [List.map_map, show Prod.fst ∘ (fun x : String × Json => (x.1.toList, x.2)) = String.toList ∘ Prod.fst from rfl,
    ← List.map_map]
  exact List.Pairwise.map String.toList (fun a b hab h => hab (String.toList_inj.mp h)) hnd

theorem intsOfMembers_eq (members : Members) : intsOfMembers members = members.flatMap fun m => m.2.ints := by
  induction members with
  | nil => rfl
  | cons m members ih =>
    obtain ⟨k, v⟩ := m
    rw [intsOfMembers_cons, ih, List.flatMap_cons]

/-- The whole numbers in a record are those in its members. -/
theorem ints_record (members : List (String × Json)) :
    (record members).ints = members.flatMap fun m => m.2.ints := by
  simp [record, intsOfMembers_eq, List.flatMap_map]

/-- The whole numbers in a list are those in its items. -/
theorem intsOfItems_map {α : Type} (write : α → Json) (as : List α) :
    intsOfItems (as.map write) = as.flatMap fun a => (write a).ints := by
  induction as with
  | nil => rfl
  | cons a as ih => rw [List.map_cons, intsOfItems_cons, ih, List.flatMap_cons]

@[simp] theorem ints_ofOption (t : Option Text) : (ofOption t).ints = [] := by
  cases t <;> simp [ofOption]

@[simp] theorem isPlain_ofOption (t : Option Text) : (ofOption t).IsPlain := by
  cases t <;> simp [ofOption]

/-- What may be missing is written as null. -/
theorem isPlain_getD_map {α : Type} (write : α → Json) {o : Option α} (h : ∀ a ∈ o, (write a).IsPlain) :
    ((o.map write).getD .null).IsPlain := by
  cases o with
  | none => exact isPlain_null
  | some a => exact h a rfl

theorem ints_getD_map {α : Type} (write : α → Json) (o : Option α) :
    ((o.map write).getD .null).ints = o.toList.flatMap fun a => (write a).ints := by
  cases o <;> simp

/-- A record is plain if its members have distinct names and are plain. -/
theorem isPlain_record (members : List (String × Json)) (hnd : (members.map Prod.fst).Nodup)
    (h : ∀ m ∈ members, m.2.IsPlain) : (record members).IsPlain := by
  rw [record, isPlain_object_iff]
  refine ⟨nodup_names members hnd, fun m hm => ?_⟩
  obtain ⟨x, hx, rfl⟩ := List.mem_map.mp hm
  exact h x hx

/-! ## Looking members up -/

/-- The value is an object that has some members, each under its name. -/
def Has (v : Json) (members : List (String × Json)) : Prop :=
  ∃ ms, v = .object ms ∧ ∀ m ∈ members, Table.get? m.1.toList ms = some m.2

/-- A record has all its members, if no two have one name. -/
theorem has_record {members part : List (String × Json)} (hnd : (members.map Prod.fst).Nodup)
    (hsub : part ⊆ members) : (record members).Has part := by
  refine ⟨_, rfl, fun m hm => ?_⟩
  apply Table.get_of_mem
  · exact nodup_names members hnd
  · exact List.mem_map.mpr ⟨m, hsub hm, rfl⟩

theorem Has.required {v : Json} {members : List (String × Json)} (h : v.Has members) :
    ∀ m ∈ members, Json.required m.1 v = .ok m.2 := by
  obtain ⟨ms, rfl, hms⟩ := h
  intro m hm
  simp only [Json.required, hms m hm]

theorem Has.optional {v : Json} {members : List (String × Json)} (h : v.Has members) :
    ∀ m ∈ members, Json.optional m.1 v = .ok (some m.2) := by
  obtain ⟨ms, rfl, hms⟩ := h
  intro m hm
  simp only [Json.optional, hms m hm]

/-- A record with members counts as true. -/
theorem isTruthy_record (m : String × Json) (members : List (String × Json)) :
    (record (m :: members)).isTruthy = true := rfl

/-! ## Readers of members -/

section
variable {v : Json} {name : String}

theorem textAt_of {t : Text} (h : required name v = .ok (.text t)) : textAt name v = .ok t := by
  unfold textAt
  rw [h]
  rfl

theorem textAtD_of {t : Text} (word : Text) (h : optional name v = .ok (some (.text t))) :
    textAtD name word v = .ok t := by
  unfold textAtD optionalD
  rw [h]
  rfl

theorem optionalTextAt_of {t : Option Text} (h : optional name v = .ok (some (.ofOption t))) :
    optionalTextAt name v = .ok t := by
  unfold optionalTextAt optionalD
  rw [h]
  cases t <;> rfl

theorem flagAt_of {b : Bool} (h : optional name v = .ok (some (.bool b))) : flagAt name v = .ok b := by
  unfold flagAt optionalD
  rw [h]
  rfl

theorem intAt_of {i : Int} (h : optional name v = .ok (some (.int i))) : intAt name v = .ok i := by
  unfold intAt optionalD
  rw [h]
  rfl

/-- Items that are read one by one give what they were written for. -/
theorem itemsAt_of {α : Type} {write : α → Json} {read : Json → Except ShapeError α} {as : List α}
    (h : optional name v = .ok (some (.list (as.map write)))) (hread : ∀ a ∈ as, read (write a) = .ok a) :
    itemsAt name read v = .ok as := by
  have hmap : ∀ bs : List α, (∀ b ∈ bs, read (write b) = .ok b) → (bs.map write).mapM read = .ok bs := by
    intro bs
    induction bs with
    | nil => exact fun _ => rfl
    | cons b bs ih =>
      intro hbs
      rw [List.map_cons, List.mapM_cons, hbs b List.mem_cons_self, ih fun c hc => hbs c (List.mem_cons_of_mem b hc)]
      rfl
  unfold itemsAt optionalD
  rw [h]
  exact hmap as hread

/-- A record that may be missing gives what it was written for. -/
theorem recordAt_of {α : Type} {write : α → Json} {read : Json → Except ShapeError α} {a? : Option α}
    (h : optional name v = .ok (some ((a?.map write).getD .null))) (htrue : ∀ a, (write a).isTruthy = true)
    (hread : ∀ a ∈ a?, read (write a) = .ok a) : recordAt? name read v = .ok a? := by
  unfold recordAt? optionalD
  rw [h]
  cases a? with
  | none => rfl
  | some a =>
    show (if (write a).isTruthy then (read (write a)).bind fun b => pure (some b) else pure none) = _
    rw [if_pos (htrue a), hread a rfl]
    rfl

end

end SourceDoc.Json
