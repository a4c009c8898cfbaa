import SourceDoc.Proofs.List
import SourceDoc.Proofs.Table
import SourceDoc.Yaml.Value

/-!
# Mappings of YAML values

No mapping in the value of a text has a key twice (`parse_hasDistinctKeys`).
-/

namespace SourceDoc.Yaml

/-- No mapping in a value has a key twice. -/
inductive Value.HasDistinctKeys : Value → Prop where
  | null : HasDistinctKeys .null
  | flag (b : Bool) : HasDistinctKeys (.flag b)
  | int (i : Int) : HasDistinctKeys (.int i)
  | real (x : Binary64) : HasDistinctKeys (.real x)
  | text (t : Text) : HasDistinctKeys (.text t)
  | list (items : List Value) (hitems : ∀ v ∈ items, v.HasDistinctKeys) : HasDistinctKeys (.list items)
  | mapping (members : List (Text × Value)) (hkeys : (members.map Prod.fst).Nodup)
      (hvalues : ∀ m ∈ members, m.2.HasDistinctKeys) : HasDistinctKeys (.mapping members)
  | other : HasDistinctKeys .other

namespace Value.HasDistinctKeys

theorem nodup_keys {members : List (Text × Value)} (h : HasDistinctKeys (.mapping members)) :
    (members.map Prod.fst).Nodup := by
  cases h
  assumption

theorem of_mem {members : List (Text × Value)} (h : HasDistinctKeys (.mapping members)) {m : Text × Value}
    (hm : m ∈ members) : m.2.HasDistinctKeys := by
  cases h with
  | mapping _ _ hvalues => exact hvalues m hm

theorem of_mem_list {items : List Value} (h : HasDistinctKeys (.list items)) {v : Value} (hv : v ∈ items) :
    v.HasDistinctKeys := by
  cases h with
  | list _ hitems => exact hitems v hv

end Value.HasDistinctKeys

/-! ## Scalars -/

theorem checkDate_hasDistinctKeys {y m d h min s : Nat} {v : Value} (hv : checkDate y m d h min s = .ok v) :
    v.HasDistinctKeys := by
  unfold checkDate at hv
  repeat' split at hv
  all_goals cases hv
  exact .other

theorem dateOf_hasDistinctKeys {t : Text} {r : Except Fault Value} {v : Value} (hr : dateOf? t = some r)
    (hv : r = .ok v) : v.HasDistinctKeys := by
  subst hv
  unfold dateOf? at hr
  split at hr
  · exact checkDate_hasDistinctKeys (Option.some.inj hr)
  · simp only [Option.bind_eq_bind, Option.bind_eq_some_iff] at hr
    obtain ⟨⟨y, m, d, rest⟩, -, t', -, ⟨h, min, s⟩, -, hdate⟩ := hr
    exact checkDate_hasDistinctKeys (Option.some.inj hdate)

theorem plainValue_hasDistinctKeys {t : Text} {v : Value} (hv : plainValue t = .ok v) : v.HasDistinctKeys := by
  unfold plainValue at hv
  split at hv
  · cases hv
    exact .flag _
  · cases hv
    exact .real _
  · cases hv
    exact .int _
  · repeat' split at hv
    · cases hv
      exact .null
    · cases hv
    · cases hdate : dateOf? t with
      | none =>
        rw [hdate] at hv
        cases hv
        exact .text t
      | some r =>
        rw [hdate] at hv
        exact dateOf_hasDistinctKeys hdate hv

theorem taggedInt_hasDistinctKeys {t : Text} {v : Value} (hv : taggedInt t = .ok v) : v.HasDistinctKeys := by
  unfold taggedInt at hv
  obtain ⟨⟨isNegative, body⟩, -, hv⟩ := exists_of_bind_ok hv
  dsimp only at hv
  repeat' split at hv
  all_goals
    obtain ⟨n, -, hv⟩ := exists_of_bind_ok hv
    cases hv
    exact .int _

theorem taggedReal_hasDistinctKeys {t : Text} {v : Value} (hv : taggedReal t = .ok v) : v.HasDistinctKeys := by
  unfold taggedReal at hv
  obtain ⟨⟨isNegative, body⟩, -, hv⟩ := exists_of_bind_ok hv
  dsimp only at hv
  split at hv
  · cases hv
    exact .real _
  · repeat' split at hv
    all_goals
      obtain ⟨x, -, hv⟩ := exists_of_bind_ok hv
      cases hv
      exact .real _

theorem taggedDate_hasDistinctKeys {t : Text} {v : Value} (hv : taggedDate t = .ok v) : v.HasDistinctKeys := by
  unfold taggedDate at hv
  cases hdate : dateOf? t with
  | none =>
    rw [hdate] at hv
    cases hv
  | some r =>
    rw [hdate] at hv
    exact dateOf_hasDistinctKeys hdate hv

theorem scalarValue_hasDistinctKeys {tag : Tag} {t : Text} {isPlain : Bool} {v : Value}
    (hv : scalarValue tag t isPlain = .ok v) : v.HasDistinctKeys := by
  unfold scalarValue at hv
  split at hv
  · split at hv
    · exact plainValue_hasDistinctKeys hv
    · cases hv
      exact .text t
  · exact plainValue_hasDistinctKeys hv
  · split at hv
    · cases hv
      exact .text t
    · cases hv
      exact .null
    · unfold taggedFlag at hv
      split at hv
      all_goals cases hv
      exact .flag _
    · exact taggedInt_hasDistinctKeys hv
    · exact taggedReal_hasDistinctKeys hv
    · exact taggedDate_hasDistinctKeys hv
    · cases hv

/-! ## Nodes -/

theorem mergedMembers_hasDistinctKeys {v : Value} (h : v.HasDistinctKeys) {members : List (Text × Value)}
    (hv : mergedMembers v = .ok members) : ∀ m ∈ members, m.2.HasDistinctKeys := by
  intro m hm
  unfold mergedMembers at hv
  split at hv
  · cases hv
    exact h.of_mem hm
  · obtain ⟨lists, hlists, hv⟩ := exists_of_bind_ok hv
    cases hv
    obtain ⟨l, hl, hm⟩ := List.mem_flatten.mp hm
    obtain ⟨v, hv, hmembers⟩ := exists_of_mem_mapM hlists hl
    have hdistinct := h.of_mem_list (List.mem_reverse.mp hv)
    split at hmembers
    · cases hmembers
      exact hdistinct.of_mem hm
    · cases hmembers
  · cases hv

/-- Whatever a key is read as, its member is put beside the others in the same way. -/
theorem exists_of_keyed {α : Type} {key : Node} {f : Value → Except Fault α} {a : α}
    (h : (match key with
      | .scalar .none ['='] true => Except.ok (Value.text ['=']) >>= f
      | _ => if isMerge key then Except.ok Value.null >>= f else key.value >>= f) = .ok a) : ∃ k, f k = .ok a := by
  split at h
  · exact ⟨_, h⟩
  · split at h
    · exact ⟨_, h⟩
    · obtain ⟨k, -, h⟩ := exists_of_bind_ok h
      exact ⟨k, h⟩

mutual

theorem Node.value_hasDistinctKeys : ∀ (n : Node) {v : Value}, n.value = .ok v → v.HasDistinctKeys
  | .scalar tag t isPlain, v, hv => scalarValue_hasDistinctKeys (by rwa [Node.value] at hv)
  | .list tag items, v, hv => by
    rw [Node.value] at hv
    split at hv
    · obtain ⟨vs, hvs, rfl⟩ := exists_of_map_ok hv
      exact .list vs (values_hasDistinctKeys items hvs)
    · cases hv
  | .mapping tag members, v, hv => by
    rw [Node.value] at hv
    split at hv
    · obtain ⟨⟨merged, own⟩, hmembers, rfl⟩ := exists_of_map_ok hv
      refine .mapping _ (Table.nodup_ofPairs _) ?_
      intro m hm
      obtain ⟨pair, hpair, hvalue⟩ := Table.exists_of_mem_ofPairs hm
      rw [← hvalue]
      exact memberValues_hasDistinctKeys members hmembers pair hpair
    · cases hv

theorem values_hasDistinctKeys : ∀ (ns : List Node) {vs : List Value}, values ns = .ok vs →
    ∀ v ∈ vs, v.HasDistinctKeys
  | [], vs, hvs => by
    rw [values] at hvs
    cases hvs
    exact List.forall_mem_nil _
  | n :: ns, vs, hvs => by
    rw [values] at hvs
    obtain ⟨v, hv, hvs⟩ := exists_of_bind_ok hvs
    obtain ⟨rest, hrest, hvs⟩ := exists_of_bind_ok hvs
    cases hvs
    exact List.forall_mem_cons.mpr ⟨n.value_hasDistinctKeys hv, values_hasDistinctKeys ns hrest⟩

theorem memberValues_hasDistinctKeys : ∀ (ms : List (Node × Node)) {merged own : List (Text × Value)},
    memberValues ms = .ok (merged, own) → ∀ m ∈ merged ++ own, m.2.HasDistinctKeys
  | [], merged, own, h => by
    rw [memberValues] at h
    cases h
    exact List.forall_mem_nil _
  | (key, n) :: ms, merged, own, h => by
    rw [memberValues] at h
    obtain ⟨v, hv, h⟩ := exists_of_bind_ok h
    obtain ⟨k, h⟩ := exists_of_keyed h
    obtain ⟨⟨merged', own'⟩, hrest, h⟩ := exists_of_bind_ok h
    have hn := n.value_hasDistinctKeys hv
    have hms := memberValues_hasDistinctKeys ms hrest
    dsimp only at h
    split at h
    · obtain ⟨more, hmore, h⟩ := exists_of_bind_ok h
      cases h
      rw [List.append_assoc, List.forall_mem_append]
      exact ⟨mergedMembers_hasDistinctKeys hn hmore, hms⟩
    · rw [List.forall_mem_append] at hms ⊢
      split at h
      all_goals cases h
      · exact ⟨hms.1, List.forall_mem_cons.mpr ⟨hn, hms.2⟩⟩
      · exact hms

end

/-- **No mapping in the value of a text has a key twice.** -/
theorem parse_hasDistinctKeys {t : Text} {v : Value} (h : parse t = .ok v) : v.HasDistinctKeys := by
  unfold parse at h
  obtain ⟨tokens, -, h⟩ := exists_of_bind_ok h
  obtain ⟨document?, -, h⟩ := exists_of_bind_ok h
  cases document? with
  | none =>
    cases h
    exact .null
  | some n => exact n.value_hasDistinctKeys h

end SourceDoc.Yaml
