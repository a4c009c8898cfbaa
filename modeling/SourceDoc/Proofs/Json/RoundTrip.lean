import SourceDoc.Proofs.Json.Token
import SourceDoc.Proofs.Table

/-!
# Written values read back

A value without real numbers, none of whose objects names a member twice, is read back from what is written, in any
style, exactly if its whole numbers have no more digits than are read:

    IsPlain v → (parse (write s v) = .ok v ↔ ∀ i ∈ v.ints, IsReadable i)               (parse_write_iff)

The reader works under a bound that each level of a value lowers; the induction (`parseValue_writeAt`) is on the value,
with the text after it free, and twice the length of what is written bounds it.
-/

namespace SourceDoc.Json

/-! ## Values -/

mutual

/-- The whole numbers in a value. -/
def ints : Json → List Int
  | .int i => [i]
  | .list items => intsOfItems items
  | .object members => intsOfMembers members
  | _ => []

/-- The whole numbers in the items of a list. -/
def intsOfItems : List Json → List Int
  | [] => []
  | item :: items => item.ints ++ intsOfItems items

/-- The whole numbers in the members of an object. -/
def intsOfMembers : Members → List Int
  | [] => []
  | (_, value) :: members => value.ints ++ intsOfMembers members

end

mutual

/-- The value holds no real number, and no object that names a member twice. -/
def IsPlain : Json → Prop
  | .real _ => False
  | .list items => ItemsPlain items
  | .object members => (members.map Prod.fst).Nodup ∧ MembersPlain members
  | _ => True

def ItemsPlain : List Json → Prop
  | [] => True
  | item :: items => item.IsPlain ∧ ItemsPlain items

def MembersPlain : Members → Prop
  | [] => True
  | (_, value) :: members => value.IsPlain ∧ MembersPlain members

end

@[simp] theorem ints_null : null.ints = [] := rfl

@[simp] theorem ints_bool (b : Bool) : (bool b).ints = [] := rfl

@[simp] theorem ints_int (i : Int) : (int i).ints = [i] := rfl

@[simp] theorem ints_text (t : Text) : (text t).ints = [] := rfl

@[simp] theorem ints_list (items : List Json) : (list items).ints = intsOfItems items := rfl

@[simp] theorem ints_object (members : Members) : (object members).ints = intsOfMembers members := rfl

@[simp] theorem intsOfItems_nil : intsOfItems [] = [] := rfl

@[simp] theorem intsOfItems_cons (item : Json) (items : List Json) :
    intsOfItems (item :: items) = item.ints ++ intsOfItems items := rfl

@[simp] theorem intsOfMembers_nil : intsOfMembers [] = [] := rfl

@[simp] theorem intsOfMembers_cons (name : Text) (value : Json) (members : Members) :
    intsOfMembers ((name, value) :: members) = value.ints ++ intsOfMembers members := rfl

@[simp] theorem isPlain_null : IsPlain .null := trivial

@[simp] theorem isPlain_bool (b : Bool) : (bool b).IsPlain := trivial

@[simp] theorem isPlain_int (i : Int) : (int i).IsPlain := trivial

@[simp] theorem isPlain_text (t : Text) : (text t).IsPlain := trivial

@[simp] theorem isPlain_list_iff (items : List Json) : (list items).IsPlain ↔ ∀ v ∈ items, v.IsPlain := by
  show ItemsPlain items ↔ _
  induction items with
  | nil => exact iff_of_true trivial (List.forall_mem_nil _)
  | cons v items ih =>
    rw [List.forall_mem_cons, ← ih]
    rfl

@[simp] theorem isPlain_object_iff (members : Members) :
    (object members).IsPlain ↔ (members.map Prod.fst).Nodup ∧ ∀ m ∈ members, m.2.IsPlain := by
  refine and_congr Iff.rfl ?_
  induction members with
  | nil => exact iff_of_true trivial (List.forall_mem_nil _)
  | cons m members ih =>
    rw [List.forall_mem_cons, ← ih]
    rfl

/-- Induction on a value: what holds of a list or an object may be shown from what holds of everything in it. -/
@[elab_as_elim]
theorem inductionOn {P : Json → Prop} (v : Json) (null : P .null) (bool : ∀ b, P (.bool b)) (int : ∀ i, P (.int i))
    (real : ∀ x, P (.real x)) (text : ∀ t, P (.text t)) (list : ∀ items, (∀ item ∈ items, P item) → P (.list items))
    (object : ∀ members, (∀ m ∈ members, P m.2) → P (.object members)) : P v :=
  match v with
  | .null => null
  | .bool b => bool b
  | .int i => int i
  | .real x => real x
  | .text t => text t
  | .list items => list items fun item _ => inductionOn item null bool int real text list object
  | .object members => object members fun m _ => inductionOn m.2 null bool int real text list object
termination_by sizeOf v
decreasing_by
  · have := List.sizeOf_lt_of_mem ‹_ ∈ _›
    simp only [Json.list.sizeOf_spec]
    omega
  · have := List.sizeOf_lt_of_mem ‹_ ∈ _›
    obtain ⟨k, w⟩ := m
    simp only [Prod.mk.sizeOf_spec, Json.object.sizeOf_spec] at this ⊢
    omega

/-- Reading something with these whole numbers gives a result if they are readable, and an error if not. -/
def Reads {α : Type} (is : List Int) (x : Except ParseError α) (a : α) : Prop :=
  if ∀ i ∈ is, IsReadable i then x = .ok a else ∃ e, x = .error e

theorem reads_nil {α : Type} {x : Except ParseError α} {a : α} (h : x = .ok a) : Reads [] x a := by
  unfold Reads
  rw [if_pos (by simp)]
  exact h

theorem Reads.iff {α : Type} {is : List Int} {x : Except ParseError α} {a : α} (h : Reads is x a) :
    x = .ok a ↔ ∀ i ∈ is, IsReadable i := by
  unfold Reads at h
  split at h
  · next hi => exact ⟨fun _ => hi, fun _ => h⟩
  · next hi =>
    obtain ⟨e, he⟩ := h
    rw [he]
    exact ⟨fun h => (by cases h), fun h => absurd h hi⟩

theorem Reads.eq_of_ok {α : Type} {is : List Int} {x : Except ParseError α} {a b : α} (h : Reads is x a)
    (hb : x = .ok b) : b = a := by
  unfold Reads at h
  split at h
  · exact Except.ok.inj (hb.symm.trans h)
  · obtain ⟨e, he⟩ := h
    rw [he] at hb
    cases hb

/-- Reading goes on after a part that was read, and stops with an error in the part. -/
theorem Reads.bind {α β : Type} {is js : List Int} {x : Except ParseError α} {a : α} {y : Except ParseError β} {b : β}
    (hx : Reads is x a) (hok : x = .ok a → Reads js y b) (herr : ∀ e, x = .error e → y = .error e) :
    Reads (is ++ js) y b := by
  unfold Reads at hx ⊢
  split at hx
  · next his =>
    have hy := hok hx
    unfold Reads at hy
    split at hy
    · next hjs =>
      rw [if_pos fun i hi => (List.mem_append.mp hi).elim (his i) (hjs i)]
      exact hy
    · next hjs =>
      rw [if_neg fun h => hjs fun i hi => h i (List.mem_append.mpr (Or.inr hi))]
      exact hy
  · next his =>
    obtain ⟨e, he⟩ := hx
    rw [if_neg fun h => his fun i hi => h i (List.mem_append.mpr (Or.inl hi))]
    exact ⟨e, herr e he⟩

/-! ## What is written -/

section Written

variable (s : Style) (depth : Nat)

@[simp] theorem writeAt_null : writeAt s depth .null = ['n', 'u', 'l', 'l'] := rfl

@[simp] theorem writeAt_true : writeAt s depth (.bool true) = ['t', 'r', 'u', 'e'] := rfl

@[simp] theorem writeAt_false : writeAt s depth (.bool false) = ['f', 'a', 'l', 's', 'e'] := rfl

@[simp] theorem writeAt_int (i : Int) : writeAt s depth (.int i) = Text.ofInt i := rfl

@[simp] theorem writeAt_text (t : Text) : writeAt s depth (.text t) = writeText s.isAscii t := rfl

@[simp] theorem writeItems_nil : writeItems s depth [] = [] := rfl

@[simp] theorem writeItems_cons (item : Json) (items : List Json) :
    writeItems s depth (item :: items) =
      itemSeparator s depth ++ writeAt s depth item ++ writeItems s depth items := rfl

@[simp] theorem writeAt_list_nil : writeAt s depth (.list []) = ['[', ']'] := rfl

@[simp] theorem writeAt_list_cons (item : Json) (items : List Json) :
    writeAt s depth (.list (item :: items)) =
      '[' :: (lineBreak s (depth + 1) ++ writeAt s (depth + 1) item ++ writeItems s (depth + 1) items ++
        lineBreak s depth ++ [']']) := rfl

@[simp] theorem writeMembers_nil : writeMembers s depth [] = [] := rfl

@[simp] theorem writeMembers_cons (name : Text) (value : Json) (members : Members) :
    writeMembers s depth ((name, value) :: members) =
      itemSeparator s depth ++ writeText s.isAscii name ++ [':', ' '] ++ writeAt s depth value ++
        writeMembers s depth members := rfl

@[simp] theorem writeAt_object_nil : writeAt s depth (.object []) = ['\x7b', '\x7d'] := rfl

@[simp] theorem writeAt_object_cons (name : Text) (value : Json) (members : Members) :
    writeAt s depth (.object ((name, value) :: members)) =
      '\x7b' :: (lineBreak s (depth + 1) ++ writeText s.isAscii name ++ [':', ' '] ++
        writeAt s (depth + 1) value ++ writeMembers s (depth + 1) members ++ lineBreak s depth ++ ['\x7d']) := rfl

end Written

/-! ## Gaps between tokens -/

theorem skip_gap (gap t : Text) (hg : ∀ c ∈ gap, isSpace c = true) (ht : ∀ c, t.head? = some c → isSpace c = false)
    (o : Nat) : Input.skip ⟨gap ++ t, o⟩ = ⟨t, o + gap.length⟩ := by
  have htake : (gap ++ t).takeWhile isSpace = gap := by
    rw [List.takeWhile_append_of_pos hg]
    cases t with
    | nil => simp
    | cons c t => simp [ht c rfl]
  unfold Input.skip
  simp only [htake, Input.drop]
  rw [List.drop_left]

theorem skip_cons (c : Char) (t : Text) (h : isSpace c = false) (o : Nat) : Input.skip ⟨c :: t, o⟩ = ⟨c :: t, o⟩ :=
  skip_gap [] (c :: t) (by simp) (by simp [h]) o

theorem lineBreak_space (s : Style) (depth : Nat) : ∀ c ∈ lineBreak s depth, isSpace c = true := by
  unfold lineBreak
  intro c hc
  split at hc
  · cases hc
  · rcases List.mem_cons.mp hc with rfl | hc
    · rfl
    · rw [List.eq_of_mem_replicate hc]
      rfl

/-- The blanks that follow a comma. -/
def itemGap (s : Style) (depth : Nat) : Text := (itemSeparator s depth).tail

theorem itemSeparator_eq (s : Style) (depth : Nat) : itemSeparator s depth = ',' :: itemGap s depth := by
  unfold itemGap itemSeparator
  split <;> rfl

theorem itemGap_space (s : Style) (depth : Nat) : ∀ c ∈ itemGap s depth, isSpace c = true := by
  unfold itemGap itemSeparator
  split
  · simp [isSpace]
  · exact lineBreak_space s depth

theorem endsNumber_lineBreak (s : Style) (depth : Nat) (r : Text) (hr : EndsNumber r) :
    EndsNumber (lineBreak s depth ++ r) := by
  unfold lineBreak
  split
  · exact hr
  · exact endsNumber_cons _ _ (by decide)

/-- What is written starts with an ASCII character that is neither a blank nor a closing bracket. -/
theorem head_writeAt (s : Style) (depth : Nat) (v : Json) (hv : v.IsPlain) :
    ∃ c t, writeAt s depth v = c :: t ∧ isSpace c = false ∧ c ≠ ']' ∧ c.toNat < 128 := by
  cases v with
  | null => exact ⟨'n', _, writeAt_null s depth, rfl, by decide, by decide⟩
  | bool b =>
    cases b with
    | true => exact ⟨'t', _, writeAt_true s depth, rfl, by decide, by decide⟩
    | false => exact ⟨'f', _, writeAt_false s depth, rfl, by decide, by decide⟩
  | int i =>
    obtain ⟨c, t, he, hc⟩ := Text.ofInt_cons i
    have hne : ∀ d : Char, ¬ (Text.IsDigit d ∨ d = '-') → c ≠ d := fun d hd h => hd (h ▸ hc)
    refine ⟨c, t, by rw [writeAt_int, he], ?_, hne ']' (by decide), ?_⟩
    · simp [isSpace, hne ' ' (by decide), hne '\t' (by decide), hne '\n' (by decide), hne '\r' (by decide)]
    · rcases hc with hc | rfl
      · exact Nat.lt_of_le_of_lt hc.2 (by decide)
      · decide
  | real x => exact hv.elim
  | text t => exact ⟨'"', _, writeAt_text s depth t, rfl, by decide, by decide⟩
  | list items =>
    cases items with
    | nil => exact ⟨'[', _, writeAt_list_nil s depth, rfl, by decide, by decide⟩
    | cons item items => exact ⟨'[', _, writeAt_list_cons s depth item items, rfl, by decide, by decide⟩
  | object members =>
    cases members with
    | nil => exact ⟨'\x7b', _, writeAt_object_nil s depth, rfl, by decide, by decide⟩
    | cons m members =>
      obtain ⟨k, v⟩ := m
      exact ⟨'\x7b', _, writeAt_object_cons s depth k v members, rfl, by decide, by decide⟩

/-! ## The induction -/

theorem parseValue_quote (bound : Nat) (t : Text) (o : Nat) : parseValue (bound + 1) ⟨'"' :: t, o⟩ =
    match parseText ⟨'"' :: t, o⟩ with
    | .error e => .error e
    | .ok (read, after) => .ok (.text read, after) := rfl

theorem parseValue_bracket (bound : Nat) (t : Text) (o : Nat) : parseValue (bound + 1) ⟨'[' :: t, o⟩ =
    match (Input.skip ⟨t, o + 1⟩).rest with
    | ']' :: _ => .ok (.list [], (Input.skip ⟨t, o + 1⟩).drop 1)
    | _ => parseItems bound [] (Input.skip ⟨t, o + 1⟩) := rfl

theorem parseValue_brace (bound : Nat) (t : Text) (o : Nat) : parseValue (bound + 1) ⟨'\x7b' :: t, o⟩ =
    match (Input.skip ⟨t, o + 1⟩).rest with
    | '\x7d' :: _ => .ok (.object [], (Input.skip ⟨t, o + 1⟩).drop 1)
    | _ => parseMembers bound [] (Input.skip ⟨t, o + 1⟩) := rfl

/-- Words and whole numbers are read as atoms. -/
theorem parseValue_atom (bound : Nat) (c : Char) (t : Text) (o : Nat) (hq : c ≠ '"') (hl : c ≠ '[') (ho : c ≠ '\x7b') :
    parseValue (bound + 1) ⟨c :: t, o⟩ = parseAtom ⟨c :: t, o⟩ := by
  rw [parseValue]
  simp [hq, hl, ho]

/-- After an opening bracket and blanks come the items, unless it is closed. -/
theorem parseValue_list (bound : Nat) (gap : Text) (hg : ∀ c ∈ gap, isSpace c = true) (c : Char)
    (hs : isSpace c = false) (hc : c ≠ ']') (t : Text) (o : Nat) :
    parseValue (bound + 1) ⟨'[' :: (gap ++ c :: t), o⟩ = parseItems bound [] ⟨c :: t, o + 1 + gap.length⟩ := by
  rw [parseValue_bracket, skip_gap gap (c :: t) hg (by simp [hs])]
  split
  · next heq =>
    simp only [List.cons.injEq] at heq
    exact absurd heq.1 hc
  · rfl

/-- After an opening brace and blanks come the members, where a name starts. -/
theorem parseValue_object (bound : Nat) (gap : Text) (hg : ∀ c ∈ gap, isSpace c = true) (t : Text) (o : Nat) :
    parseValue (bound + 1) ⟨'\x7b' :: (gap ++ '"' :: t), o⟩ =
      parseMembers bound [] ⟨'"' :: t, o + 1 + gap.length⟩ := by
  rw [parseValue_brace, skip_gap gap ('"' :: t) hg (by simp [isSpace])]
  rfl

/-- A value at the front is read up to its end, at every depth and whatever follows it. -/
def ReadsBack (s : Style) (v : Json) : Prop :=
  ∀ (depth bound : Nat) (r : Text) (o : Nat), EndsNumber r → 2 * (writeAt s depth v).length ≤ bound →
    Reads v.ints (parseValue bound ⟨writeAt s depth v ++ r, o⟩) (v, ⟨r, o + (writeAt s depth v).length⟩)

/-- The items of a list are read up to the closing bracket. -/
theorem parseItems_write (s : Style) (depth close : Nat) (items : List Json) : ∀ (item : Json) (bound : Nat)
    (read : List Json) (r : Text) (o : Nat), (∀ v ∈ item :: items, v.IsPlain ∧ ReadsBack s v) →
    2 * ((writeAt s depth item).length + (writeItems s depth items).length + (lineBreak s close).length + 1) ≤ bound →
    Reads (item.ints ++ intsOfItems items)
      (parseItems bound read
        ⟨writeAt s depth item ++ (writeItems s depth items ++ (lineBreak s close ++ ']' :: r)), o⟩)
      (.list (read.reverse ++ item :: items), ⟨r, o + (writeAt s depth item).length +
        (writeItems s depth items).length + (lineBreak s close).length + 1⟩) := by
  induction items with
  | nil =>
    intro item bound read r o hvs hb
    obtain ⟨b, rfl⟩ : ∃ b, bound = b + 1 := ⟨bound - 1, by omega⟩
    have hend : EndsNumber (lineBreak s close ++ ']' :: r) :=
      endsNumber_lineBreak s close _ (endsNumber_cons ']' r (by decide))
    have hitem := (hvs item List.mem_cons_self).2 depth b (lineBreak s close ++ ']' :: r) o hend (by omega)
    simp only [writeItems_nil, List.nil_append, intsOfItems_nil] at hb ⊢
    refine hitem.bind (fun hok => reads_nil ?_) (fun e herr => ?_)
    · rw [parseItems, hok]
      simp only [skip_gap _ (']' :: r) (lineBreak_space s close) (by simp [isSpace])]
      simp [Input.drop]
    · rw [parseItems, herr]
  | cons next items ih =>
    intro item bound read r o hvs hb
    obtain ⟨b, rfl⟩ : ∃ b, bound = b + 1 := ⟨bound - 1, by omega⟩
    have hend : EndsNumber (writeItems s depth (next :: items) ++ (lineBreak s close ++ ']' :: r)) := by
      rw [writeItems_cons, itemSeparator_eq]
      exact endsNumber_cons ',' _ (by decide)
    have hitem := (hvs item List.mem_cons_self).2 depth b _ o hend (by omega)
    have hnext := hvs next (List.mem_cons_of_mem _ List.mem_cons_self)
    obtain ⟨c, t, hhead, hspace, -⟩ := head_writeAt s depth next hnext.1
    have hitems := ih next b (item :: read) r (o + (writeAt s depth item).length + (itemSeparator s depth).length)
      (fun v hv => hvs v (List.mem_cons_of_mem _ hv)) (by
        simp only [writeItems_cons, itemSeparator_eq, List.length_append, List.length_cons] at hb
        omega)
    refine hitem.bind (fun hok => ?_) (fun e herr => ?_)
    · rw [parseItems, hok]
      simp only [writeItems_cons, itemSeparator_eq, List.cons_append, List.append_assoc, skip_cons ',' _ rfl, Input.drop,
        List.drop_succ_cons, List.drop_zero] at hitems ⊢
      rw [skip_gap _ _ (itemGap_space s depth) (by simp [hhead, hspace])]
      simp only [intsOfItems_cons, List.length_cons, List.length_append, List.reverse_cons, List.append_assoc,
        List.singleton_append] at hitems ⊢
      simpa only [Nat.add_assoc, Nat.add_comm, Nat.add_left_comm] using hitems
    · rw [parseItems, herr]

/-- The name of a member and the colon after it are read, then the value. -/
theorem parseMembers_name (isAscii : Bool) (name : Text) (bound : Nat) (read : Members) (t : Text)
    (ht : ∀ c, t.head? = some c → isSpace c = false) (o : Nat) :
    parseMembers (bound + 1) read ⟨writeText isAscii name ++ ':' :: ' ' :: t, o⟩ =
      match parseValue bound ⟨t, o + (writeText isAscii name).length + 1 + 1⟩ with
      | .error e => .error e
      | .ok (value, afterValue) =>
        let next := afterValue.skip
        match next.rest with
        | '\x7d' :: _ => .ok (.object (Table.ofPairs ((name, value) :: read).reverse), next.drop 1)
        | ',' :: _ => parseMembers bound ((name, value) :: read) (next.drop 1).skip
        | _ => .error ⟨.comma, next.offset⟩ := by
  have hname := parseText_writeText isAscii name (':' :: ' ' :: t) o
  have hskip : ∀ o, Input.skip ⟨' ' :: t, o⟩ = ⟨t, o + 1⟩ := fun o => skip_gap [' '] t (by simp [isSpace]) ht o
  simp only [writeText, List.cons_append] at hname ⊢
  rw [parseMembers, hname]
  simp only [skip_cons ':' _ rfl, Input.drop, List.drop_succ_cons, List.drop_zero, hskip] <;> rfl

/-- The members of an object are read up to the closing brace. -/
theorem parseMembers_write (s : Style) (depth close : Nat) (members : Members) : ∀ (name : Text) (value : Json)
    (bound : Nat) (read : Members) (r : Text) (o : Nat),
    ((read.reverse ++ (name, value) :: members).map Prod.fst).Nodup →
    (∀ m ∈ (name, value) :: members, m.2.IsPlain ∧ ReadsBack s m.2) →
    2 * ((writeText s.isAscii name).length + 1 + 1 + (writeAt s depth value).length +
      (writeMembers s depth members).length + (lineBreak s close).length + 1) ≤ bound →
    Reads (value.ints ++ intsOfMembers members)
      (parseMembers bound read
        ⟨writeText s.isAscii name ++ ':' :: ' ' :: (writeAt s depth value ++
          (writeMembers s depth members ++ (lineBreak s close ++ '\x7d' :: r))), o⟩)
      (.object (read.reverse ++ (name, value) :: members), ⟨r, o + (writeText s.isAscii name).length + 1 + 1 +
        (writeAt s depth value).length + (writeMembers s depth members).length + (lineBreak s close).length + 1⟩) := by
  induction members with
  | nil =>
    intro name value bound read r o hnd hvs hb
    obtain ⟨b, rfl⟩ : ∃ b, bound = b + 1 := ⟨bound - 1, by omega⟩
    obtain ⟨hplain, hreads⟩ := hvs (name, value) List.mem_cons_self
    obtain ⟨c, t, hhead, hspace, -⟩ := head_writeAt s depth value hplain
    have hend : EndsNumber (lineBreak s close ++ '\x7d' :: r) :=
      endsNumber_lineBreak s close _ (endsNumber_cons '\x7d' r (by decide))
    have hvalue := hreads depth b _ (o + (writeText s.isAscii name).length + 1 + 1) hend (by dsimp only; omega)
    simp only [writeMembers_nil, List.nil_append, intsOfMembers_nil]
    rw [parseMembers_name s.isAscii name b read _ (by simp [hhead, hspace]) o]
    refine hvalue.bind (fun hok => reads_nil ?_) (fun e herr => ?_)
    · rw [hok]
      simp only [skip_gap _ ('\x7d' :: r) (lineBreak_space s close) (by simp [isSpace])]
      rw [List.reverse_cons, Table.ofPairs_of_nodup _ hnd]
      simp [Input.drop]
    · rw [herr]
  | cons next members ih =>
    obtain ⟨nextName, nextValue⟩ := next
    intro name value bound read r o hnd hvs hb
    obtain ⟨b, rfl⟩ : ∃ b, bound = b + 1 := ⟨bound - 1, by omega⟩
    obtain ⟨hplain, hreads⟩ := hvs (name, value) List.mem_cons_self
    obtain ⟨c, t, hhead, hspace, -⟩ := head_writeAt s depth value hplain
    have hend : EndsNumber (writeMembers s depth ((nextName, nextValue) :: members) ++
        (lineBreak s close ++ '\x7d' :: r)) := by
      rw [writeMembers_cons, itemSeparator_eq]
      exact endsNumber_cons ',' _ (by decide)
    have hvalue := hreads depth b _ (o + (writeText s.isAscii name).length + 1 + 1) hend (by dsimp only; omega)
    have hmembers := ih nextName nextValue b ((name, value) :: read) r
      (o + (writeText s.isAscii name).length + 1 + 1 + (writeAt s depth value).length + (itemSeparator s depth).length)
      (by simpa using hnd) (fun m hm => hvs m (List.mem_cons_of_mem _ hm)) (by
        simp only [writeMembers_cons, itemSeparator_eq, List.length_append, List.length_cons] at hb
        omega)
    rw [parseMembers_name s.isAscii name b read _ (by simp [hhead, hspace]) o]
    refine hvalue.bind (fun hok => ?_) (fun e herr => ?_)
    · rw [hok]
      simp only [writeMembers_cons, itemSeparator_eq, List.cons_append, List.nil_append, List.append_assoc,
        skip_cons ',' _ rfl, Input.drop, List.drop_succ_cons, List.drop_zero] at hmembers ⊢
      rw [skip_gap _ _ (itemGap_space s depth) (by simp [writeText, isSpace])]
      simp only [intsOfMembers_cons, List.length_cons, List.length_append, List.reverse_cons, List.append_assoc,
        List.singleton_append] at hmembers ⊢
      simpa only [Nat.add_assoc, Nat.add_comm, Nat.add_left_comm] using hmembers
    · rw [herr]

/-- For reading a value the bound may be taken as positive, since something is written. -/
theorem readsBack_of (s : Style) (v : Json) (hv : v.IsPlain)
    (h : ∀ (depth b : Nat) (r : Text) (o : Nat), EndsNumber r → 2 * (writeAt s depth v).length ≤ b + 1 →
      Reads v.ints (parseValue (b + 1) ⟨writeAt s depth v ++ r, o⟩) (v, ⟨r, o + (writeAt s depth v).length⟩)) :
    ReadsBack s v := by
  intro depth bound r o hr hb
  obtain ⟨c, t, he, -⟩ := head_writeAt s depth v hv
  have hlen : 0 < (writeAt s depth v).length := by
    rw [he]
    exact Nat.succ_pos _
  obtain ⟨b, rfl⟩ : ∃ b, bound = b + 1 := ⟨bound - 1, by omega⟩
  exact h depth b r o hr hb

/-- A word that is a value reads back. -/
theorem readsBack_word (s : Style) (v : Json) (hv : v.IsPlain) (c : Char) (w : Text)
    (hc : c ≠ '"' ∧ c ≠ '[' ∧ c ≠ '\x7b') (hw : ∀ depth, writeAt s depth v = c :: w) (hi : v.ints = [])
    (hfind : ∀ r, (constants.find? fun (word, _) => word.isPrefixOf (c :: (w ++ r))) = some (c :: w, v)) :
    ReadsBack s v := by
  refine readsBack_of s v hv fun depth b r o _ _ => ?_
  rw [hi, hw]
  apply reads_nil
  rw [List.cons_append, parseValue_atom b c (w ++ r) o hc.1 hc.2.1 hc.2.2, parseAtom, hfind r]
  simp [Input.drop]

theorem readsBack_int (s : Style) (i : Int) : ReadsBack s (.int i) := by
  refine readsBack_of s (.int i) (isPlain_int i) fun depth b r o hr _ => ?_
  have hatom := parseAtom_ofInt i r hr o
  obtain ⟨c, t, he, hc⟩ := Text.ofInt_cons i
  have hne : ∀ d : Char, ¬ (Text.IsDigit d ∨ d = '-') → c ≠ d := fun d hd h => hd (h ▸ hc)
  simp only [ints_int, writeAt_int]
  rw [he, List.cons_append] at hatom ⊢
  rw [parseValue_atom b c (t ++ r) o (hne '"' (by decide)) (hne '[' (by decide)) (hne '\x7b' (by decide)), hatom]
  unfold Reads readInt
  simp only [List.mem_singleton, forall_eq, ← he]
  split
  · rfl
  · exact ⟨_, rfl⟩

theorem readsBack_text (s : Style) (t : Text) : ReadsBack s (.text t) := by
  refine readsBack_of s (.text t) (isPlain_text t) fun depth b r o _ _ => ?_
  have ht := parseText_writeText s.isAscii t r o
  simp only [ints_text, writeAt_text]
  apply reads_nil
  simp only [writeText, List.cons_append] at ht ⊢
  rw [parseValue_quote, ht]

theorem readsBack_list (s : Style) (items : List Json) (hv : ∀ v ∈ items, v.IsPlain ∧ ReadsBack s v) :
    ReadsBack s (.list items) := by
  have hplain : (Json.list items).IsPlain := (isPlain_list_iff items).mpr fun v h => (hv v h).1
  refine readsBack_of s (.list items) hplain fun depth b r o hr hb => ?_
  cases items with
  | nil =>
    simp only [ints_list, intsOfItems_nil, writeAt_list_nil]
    apply reads_nil
    simp only [List.cons_append, List.nil_append]
    rw [parseValue_bracket, skip_cons ']' r rfl]
    rfl
  | cons item items =>
    obtain ⟨c, t, hhead, hspace, hclose, -⟩ := head_writeAt s (depth + 1) item (hv item List.mem_cons_self).1
    have hitems := parseItems_write s (depth + 1) depth items item b [] r
      (o + 1 + (lineBreak s (depth + 1)).length) hv (by
        simp only [writeAt_list_cons, List.length_cons, List.length_append] at hb
        omega)
    simp only [ints_list, intsOfItems_cons, writeAt_list_cons, List.cons_append, List.append_assoc, List.nil_append]
    simp only [hhead, List.cons_append] at hitems ⊢
    rw [parseValue_list b _ (lineBreak_space s (depth + 1)) c hspace hclose]
    simpa [Nat.add_assoc, Nat.add_comm, Nat.add_left_comm] using hitems

theorem readsBack_object (s : Style) (members : Members) (hnd : (members.map Prod.fst).Nodup)
    (hv : ∀ m ∈ members, m.2.IsPlain ∧ ReadsBack s m.2) : ReadsBack s (.object members) := by
  have hplain : (Json.object members).IsPlain := (isPlain_object_iff members).mpr ⟨hnd, fun m h => (hv m h).1⟩
  refine readsBack_of s (.object members) hplain fun depth b r o hr hb => ?_
  cases members with
  | nil =>
    simp only [ints_object, intsOfMembers_nil, writeAt_object_nil]
    apply reads_nil
    simp only [List.cons_append, List.nil_append]
    rw [parseValue_brace, skip_cons '\x7d' r rfl]
    rfl
  | cons m members =>
    obtain ⟨name, value⟩ := m
    have hmembers := parseMembers_write s (depth + 1) depth members name value b [] r
      (o + 1 + (lineBreak s (depth + 1)).length) (by simpa using hnd) hv (by
        simp only [writeAt_object_cons, List.length_cons, List.length_append, List.length_nil] at hb
        omega)
    simp only [ints_object, intsOfMembers_cons, writeAt_object_cons, List.cons_append, List.append_assoc,
      List.nil_append]
    simp only [writeText, List.cons_append, List.append_assoc, List.nil_append] at hmembers ⊢
    rw [parseValue_object b _ (lineBreak_space s (depth + 1))]
    simpa [Nat.add_assoc, Nat.add_comm, Nat.add_left_comm] using hmembers

/-- **A value reads back, wherever it stands.** -/
theorem readsBack (s : Style) (v : Json) (hv : v.IsPlain) : ReadsBack s v := by
  induction v using inductionOn with
  | null =>
    exact readsBack_word s .null hv 'n' ['u', 'l', 'l'] (by decide) (writeAt_null s) ints_null
      (fun r => by simp [constants, List.isPrefixOf])
  | bool b =>
    cases b with
    | true =>
      exact readsBack_word s (.bool true) hv 't' ['r', 'u', 'e'] (by decide) (writeAt_true s)
        (ints_bool _) (fun r => by simp [constants, List.isPrefixOf])
    | false =>
      exact readsBack_word s (.bool false) hv 'f' ['a', 'l', 's', 'e'] (by decide) (writeAt_false s)
        (ints_bool _) (fun r => by simp [constants, List.isPrefixOf])
  | int i => exact readsBack_int s i
  | real x => exact hv.elim
  | text t => exact readsBack_text s t
  | list items ih =>
    rw [isPlain_list_iff] at hv
    exact readsBack_list s items fun v h => ⟨hv v h, ih v h (hv v h)⟩
  | object members ih =>
    rw [isPlain_object_iff] at hv
    exact readsBack_object s members hv.1 fun m h => ⟨hv.2 m h, ih m h (hv.2 m h)⟩

/-! ## Whole texts -/

/-- **Reading what is written, with blanks after it.** -/
theorem reads_write (s : Style) (v : Json) (hv : v.IsPlain) (gap : Text) (hg : ∀ c ∈ gap, isSpace c = true) :
    Reads v.ints (parse (write s v ++ gap)) v := by
  obtain ⟨c, t, he, hspace, -, hc⟩ := head_writeAt s 0 v hv
  have hend : EndsNumber gap := by
    intro d hd
    have hd : isSpace d = true := hg d (List.mem_of_mem_head? hd)
    simp only [isSpace, Bool.or_eq_true, decide_eq_true_eq] at hd
    rcases hd with ((rfl | rfl) | rfl) | rfl <;> decide
  have hread := readsBack s v hv 0 (2 * (writeAt s 0 v ++ gap).length + 2) gap 0 hend (by
    simp only [List.length_append]
    omega)
  have hbom : ¬ (writeAt s 0 v ++ gap).head? = some (Char.ofNat 0xFEFF) := by
    rw [he, List.cons_append, List.head?_cons, Option.some.injEq]
    rintro rfl
    exact absurd hc (by decide)
  have hskip : Input.skip ⟨writeAt s 0 v ++ gap, 0⟩ = ⟨writeAt s 0 v ++ gap, 0⟩ := by
    rw [he]
    exact skip_cons c _ hspace 0
  unfold parse write
  rw [if_neg hbom, hskip, ← List.append_nil v.ints]
  refine hread.bind (fun hok => reads_nil ?_) (fun e herr => ?_)
  · have hlast := skip_gap gap [] hg (by simp) (0 + (writeAt s 0 v).length)
    rw [List.append_nil] at hlast
    rw [hok]
    simp only [hlast, if_true]
  · rw [herr]

/-- **A value reads back exactly if its whole numbers are readable.** -/
theorem parse_write_iff (s : Style) (v : Json) (hv : v.IsPlain) (gap : Text) (hg : ∀ c ∈ gap, isSpace c = true) :
    parse (write s v ++ gap) = .ok v ↔ ∀ i ∈ v.ints, IsReadable i :=
  (reads_write s v hv gap hg).iff

end SourceDoc.Json
