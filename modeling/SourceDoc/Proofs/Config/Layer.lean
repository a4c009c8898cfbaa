import SourceDoc.Proofs.Config.Check
import SourceDoc.Proofs.Config.Setting
import SourceDoc.Proofs.Run.Failures
import SourceDoc.Proofs.Yaml.Value

/-!
# Layers of a configuration

A configuration is loaded from the layer of a file and a layer on top of it (`load_eq`).  What they say decides it part
by part (`Layered`):

    a setting      the last member on top, else the ai block on top, else the last member of the file, else its ai block
    the patterns   those of the file, then those on top
    the model      for each setting the value on top, else the one of the file; null says nothing

Neither the order of the members (`saysSame_of_reordered`) nor members without a meaning (`saysSame_of_known`) matter,
and a run can be made with what was loaded (`load_layered`).
-/

namespace SourceDoc.Config

open Yaml (Value)

/-! ## Layers that say the same -/

/-- Two layers do the same to every configuration. -/
structure SaysSame (layer layer' : Layer) : Prop where
  field : ∀ (f : Field) (root : Path) (old : f.Held),
    f.after old (f.given root layer) = f.after old (f.given root layer')
  patterns : patterns layer = patterns layer'
  model : ∀ s : ModelSettings, modelAfter s layer = modelAfter s layer'

theorem SaysSame.apply {layer layer' : Layer} (h : SaysSame layer layer') (hkeys : (layer.map Prod.fst).Nodup)
    (hkeys' : (layer'.map Prod.fst).Nodup) {root : Path} {c c' : Config} (hc : Config.apply c layer root = .ok c') :
    Config.apply c layer' root = .ok c' := by
  rw [apply_eq_ok_iff hkeys'] 
  rw [apply_eq_ok_iff hkeys] at hc
  simpa only [← h.field, ← h.patterns, ← h.model] using hc

/-! ### Keys without a meaning -/

/-- The keys that have a meaning in the block under a key. -/
def blockKeys? (key : Text) : Option (List Text) :=
  if key = "ai".toList then some ["provider".toList, "include_examples".toList, "style".toList]
  else if key = "llm".toList then
    some ["model".toList, "base_url".toList, "api_key".toList, "executable".toList, "temperature".toList,
      "request_timeout".toList, "max_tokens".toList]
  else none

/-- A key of a layer has a meaning. -/
def isKnown (key : Text) : Bool :=
  (Field.ofKey? key).isSome || key = "ignore".toList || (blockKeys? key).isSome

/-- The value under a key, without what has no meaning in it. -/
def knownIn (key : Text) (v : Value) : Value :=
  match blockKeys? key, v with
  | some keys, .mapping block => .mapping (block.filter fun m => keys.contains m.1)
  | _, _ => v

/-- A layer without what has no meaning. -/
def known (layer : Layer) : Layer := (layer.filter fun m => isKnown m.1).map fun m => (m.1, knownIn m.1 m.2)

theorem get_known {key : Text} (hkey : isKnown key = true) (layer : Layer) :
    Table.get? key (known layer) = (Table.get? key layer).map (knownIn key) := by
  unfold known
  rw [Table.get_map, Table.get_filter isKnown key hkey]

theorem blockKeys_of_field {key : Text} {f : Field} (h : Field.ofKey? key = some f) : blockKeys? key = none := by
  unfold blockKeys?
  rw [if_neg, if_neg]
  all_goals
    rintro rfl
    cases h

theorem known_cons (key : Text) (v : Value) (layer : Layer) :
    known ((key, v) :: layer) = if isKnown key then (key, knownIn key v) :: known layer else known layer := by
  unfold known
  by_cases h : isKnown key = true <;> simp [h]

theorem inLayer_known (f : Field) (root : Path) (layer : Layer) :
    f.inLayer root (known layer) = f.inLayer root layer := by
  induction layer with
  | nil => rfl
  | cons m layer ih =>
    obtain ⟨key, v⟩ := m
    rw [known_cons, inLayer_cons]
    by_cases hfield : Field.ofKey? key = some f
    · have hknown : isKnown key = true := by simp [isKnown, hfield]
      have hsame : knownIn key v = v := by
        unfold knownIn
        rw [blockKeys_of_field hfield]
      rw [if_pos hknown, inLayer_cons, ih, hsame]
    · rw [if_neg hfield]
      split
      · rw [inLayer_cons, if_neg hfield, ih]
      · exact ih

theorem inBlock_known (f : Field) (root : Path) (layer : Layer) :
    f.inBlock root (known layer) = f.inBlock root layer := by
  have hget : ∀ name : String, f.blockKey? = some name →
      Table.get? name.toList (aiBlock (known layer)) = Table.get? name.toList (aiBlock layer) := by
    intro name hname
    unfold aiBlock
    rw [get_known rfl]
    cases hai : Table.get? "ai".toList layer with
    | none => rfl
    | some v =>
      cases v with
      | mapping block =>
        refine Table.get_filter (fun key => List.contains _ key) name.toList ?_ block
        cases f <;> cases hname <;> rfl
      | _ => rfl
  unfold Field.inBlock
  split
  · rename_i name hname
    rw [hget name hname]
  · rfl

theorem given_known (f : Field) (root : Path) (layer : Layer) : f.given root (known layer) = f.given root layer := by
  unfold Field.given
  rw [inBlock_known, inLayer_known]

theorem patterns_known (layer : Layer) : patterns (known layer) = patterns layer := by
  unfold patterns
  rw [get_known rfl]
  cases Table.get? "ignore".toList layer <;> rfl

theorem modelAfter_known (s : ModelSettings) (layer : Layer) : modelAfter s (known layer) = modelAfter s layer := by
  unfold modelAfter
  rw [get_known rfl]
  cases hllm : Table.get? "llm".toList layer with
  | none => rfl
  | some v =>
    cases v with
    | mapping block =>
      refine applyModel_congr ?_ s
      intro m
      unfold ModelSettings.given?
      rw [Table.get_filter (fun key => List.contains _ key) m.key.toList]
      cases m <;> rfl
    | _ => rfl

theorem saysSame_of_known {layer layer' : Layer} (h : known layer = known layer') : SaysSame layer layer' := by
  refine ⟨?_, ?_, ?_⟩
  · intro f root old
    rw [← given_known f root layer, ← given_known f root layer', h]
  · rw [← patterns_known layer, ← patterns_known layer', h]
  · intro s
    rw [← modelAfter_known s layer, ← modelAfter_known s layer', h]

/-! ### Another order -/

/-- The same value, or the same members in another order. -/
def Alike (v v' : Value) : Prop :=
  v = v' ∨ ∃ block block', v = .mapping block ∧ v' = .mapping block' ∧ block.Perm block'

/-- The same members in another order, those of its blocks too. -/
def Reordered (layer layer' : Layer) : Prop :=
  ∃ between, layer.Perm between ∧ List.Forall₂ (fun m m' => m.1 = m'.1 ∧ Alike m.2 m'.2) between layer'

/-- A layer gives the provider under both of its keys. -/
def NamesProviderTwice (layer : Layer) : Prop :=
  "provider".toList ∈ layer.map Prod.fst ∧ "ai_provider".toList ∈ layer.map Prod.fst

theorem keys_of_forall₂ {layer layer' : Layer}
    (h : List.Forall₂ (fun m m' => m.1 = m'.1 ∧ Alike m.2 m'.2) layer layer') :
    layer.map Prod.fst = layer'.map Prod.fst := by
  induction h with
  | nil => rfl
  | cons hm _ ih => rw [List.map_cons, List.map_cons, hm.1, ih]

theorem Reordered.keys {layer layer' : Layer} (h : Reordered layer layer') :
    (layer.map Prod.fst).Perm (layer'.map Prod.fst) := by
  obtain ⟨between, hperm, halike⟩ := h
  rw [← keys_of_forall₂ halike]
  exact hperm.map Prod.fst

theorem Reordered.get {layer layer' : Layer} (h : Reordered layer layer') (hkeys : (layer.map Prod.fst).Nodup)
    (key : Text) : Option.Rel Alike (Table.get? key layer) (Table.get? key layer') := by
  obtain ⟨between, hperm, halike⟩ := h
  rw [Table.get_perm hperm hkeys]
  exact Table.rel_get (R := fun _ => Alike) halike key

theorem Alike.asTexts {v v' : Value} (h : Alike v v') (key : Text) : v.asTexts key = v'.asTexts key := by
  obtain rfl | ⟨block, block', rfl, rfl, -⟩ := h <;> rfl

/-- A block is no value of a setting, in whatever order. -/
theorem Alike.read {v v' : Value} (h : Alike v v') (root : Path) (key : Text) (f : Field) :
    f.read ⟨root, key, v⟩ = f.read ⟨root, key, v'⟩ := by
  obtain rfl | ⟨block, block', rfl, rfl, -⟩ := h
  · rfl
  · cases f <;> rfl

theorem patterns_reordered {layer layer' : Layer} (h : Reordered layer layer') (hkeys : (layer.map Prod.fst).Nodup) :
    patterns layer = patterns layer' := by
  have hignore := h.get hkeys "ignore".toList
  unfold patterns
  generalize Table.get? "ignore".toList layer = v?, Table.get? "ignore".toList layer' = v'? at hignore ⊢
  cases hignore with
  | none => rfl
  | some hv => exact hv.asTexts _

theorem modelAfter_reordered {layer layer' : Layer} (h : Reordered layer layer')
    (hkeys : Value.HasDistinctKeys (.mapping layer)) (s : ModelSettings) :
    modelAfter s layer = modelAfter s layer' := by
  have hllm := h.get hkeys.nodup_keys "llm".toList
  have hblock := fun v hv => hkeys.of_mem (Table.mem_of_get layer "llm".toList v hv)
  unfold modelAfter
  generalize Table.get? "llm".toList layer = v?, Table.get? "llm".toList layer' = v'? at hllm hblock ⊢
  cases hllm with
  | none => rfl
  | some hv =>
    obtain rfl | ⟨block, block', rfl, rfl, hperm⟩ := hv
    · rfl
    · refine applyModel_congr ?_ s
      intro m
      unfold ModelSettings.given?
      rw [Table.get_perm hperm (hblock _ rfl).nodup_keys]

theorem inBlock_reordered {layer layer' : Layer} (h : Reordered layer layer')
    (hkeys : Value.HasDistinctKeys (.mapping layer)) (f : Field) (root : Path) :
    f.inBlock root layer = f.inBlock root layer' := by
  have hai := h.get hkeys.nodup_keys "ai".toList
  have hblock := fun v hv => hkeys.of_mem (Table.mem_of_get layer "ai".toList v hv)
  have hget : ∀ key, Table.get? key (aiBlock layer) = Table.get? key (aiBlock layer') := by
    intro key
    unfold aiBlock
    generalize Table.get? "ai".toList layer = v?, Table.get? "ai".toList layer' = v'? at hai hblock ⊢
    cases hai with
    | none => rfl
    | some hv =>
      obtain rfl | ⟨block, block', rfl, rfl, hperm⟩ := hv
      · rfl
      · exact Table.get_perm hperm (hblock _ rfl).nodup_keys key
  unfold Field.inBlock
  simp only [hget]

/-- One key gives a setting, and for the provider two. -/
theorem key_of_field {key : Text} {f : Field} (h : Field.ofKey? key = some f) :
    key = f.key.toList ∨ f = .provider ∧ key = "ai_provider".toList := by
  unfold Field.ofKey? at h
  split at h
  all_goals cases h
  all_goals
    rename_i hkey
    first
    | exact .inl (eq_toList_of_ofList hkey)
    | exact .inr ⟨rfl, eq_toList_of_ofList hkey⟩

/-- Unless the provider is named twice, one member of a layer gives a setting. -/
theorem own_length_le {layer : Layer} (hkeys : (layer.map Prod.fst).Nodup) (hone : ¬ NamesProviderTwice layer)
    (f : Field) : (layer.filter fun m => Field.ofKey? m.1 = some f).length ≤ 1 := by
  match hown : layer.filter fun m => Field.ofKey? m.1 = some f with
  | [] =>
    rw [hown]
    exact Nat.zero_le 1
  | [_] =>
    rw [hown]
    exact Nat.le_refl 1
  | m :: m' :: rest =>
    exfalso
    have hmem : ∀ m'' ∈ m :: m' :: rest, m''.1 ∈ layer.map Prod.fst ∧ Field.ofKey? m''.1 = some f := by
      intro m'' hm''
      rw [← hown, List.mem_filter, decide_eq_true_eq] at hm''
      exact ⟨List.mem_map_of_mem hm''.1, hm''.2⟩
    have hne : m.1 ≠ m'.1 := by
      have hsub : ((layer.filter fun m => Field.ofKey? m.1 = some f).map Prod.fst).Nodup :=
        hkeys.sublist (List.filter_sublist.map _)
      rw [hown, List.map_cons, List.nodup_cons] at hsub
      intro heq
      exact hsub.1 (heq ▸ List.mem_cons_self)
    obtain ⟨hm, hf⟩ := hmem m List.mem_cons_self
    obtain ⟨hm', hf'⟩ := hmem m' (List.mem_cons_of_mem _ List.mem_cons_self)
    rcases key_of_field hf with hkey | ⟨rfl, hkey⟩
    · rcases key_of_field hf' with hkey' | ⟨rfl, hkey'⟩
      · exact hne (hkey.trans hkey'.symm)
      · exact hone ⟨hkey ▸ hm, hkey' ▸ hm'⟩
    · rcases key_of_field hf' with hkey' | ⟨-, hkey'⟩
      · exact hone ⟨hkey' ▸ hm', hkey ▸ hm⟩
      · exact hne (hkey.trans hkey'.symm)

theorem eq_of_perm_of_length_le {α : Type} {l l' : List α} (h : l.Perm l') (hl : l.length ≤ 1) : l = l' := by
  match l with
  | [] => exact h.nil_eq
  | [a] => exact (List.perm_singleton.mp h.symm).symm
  | _ :: _ :: _ => simp at hl

theorem after_congr {f : Field} {gs gs' : List Given} (h : List.Forall₂ (fun g g' => f.read g = f.read g') gs gs')
    (old : f.Held) : f.after old gs = f.after old gs' := by
  unfold Field.after
  induction h generalizing old with
  | nil => rfl
  | cons hg _ ih =>
    rw [List.foldlM_cons, List.foldlM_cons, hg]
    exact bind_congr ih

/-- **The order of the members does not matter,** unless the provider is named twice. -/
theorem saysSame_of_reordered {layer layer' : Layer} (h : Reordered layer layer')
    (hkeys : Value.HasDistinctKeys (.mapping layer)) (hone : ¬ NamesProviderTwice layer) : SaysSame layer layer' := by
  refine ⟨?_, patterns_reordered h hkeys.nodup_keys, modelAfter_reordered h hkeys⟩
  intro f root old
  obtain ⟨between, hperm, halike⟩ := h
  have hown : layer.filter (fun m => Field.ofKey? m.1 = some f) = between.filter fun m => Field.ofKey? m.1 = some f :=
    eq_of_perm_of_length_le (hperm.filter _) (own_length_le hkeys.nodup_keys hone f)
  have hlayer : List.Forall₂ (fun g g' => f.read g = f.read g') (f.inLayer root layer) (f.inLayer root layer') := by
    unfold Field.inLayer
    rw [hown, List.forall₂_map_left_iff, List.forall₂_map_right_iff]
    have hfilter : List.Forall₂ (fun m m' : Text × Value => m.1 = m'.1 ∧ Alike m.2 m'.2)
        (between.filter fun m => Field.ofKey? m.1 = some f) (layer'.filter fun m => Field.ofKey? m.1 = some f) := by
      refine List.rel_filter ?_ halike
      rintro m m' ⟨hkey, -⟩
      dsimp only
      rw [hkey]
    refine hfilter.imp ?_
    rintro m m' ⟨hkey, hvalue⟩
    rw [hkey]
    exact hvalue.read root m'.1 f
  unfold Field.given
  rw [inBlock_reordered ⟨between, hperm, halike⟩ hkeys]
  have hblock : List.Forall₂ (fun g g' => f.read g = f.read g') (f.inBlock root layer') (f.inBlock root layer') :=
    List.forall₂_same.mpr fun _ _ => rfl
  exact after_congr (List.rel_append hblock hlayer) old

/-! ## Two layers -/

/-- The members of a layer that say something on top of another. -/
def stated (top : Layer) : Layer := top.filter fun m => !m.2.isNull

/-- The configuration of two layers, each seen from a directory. -/
def ofLayers (file : Layer) (root : Path) (top : Layer) (current : Path) : Except ConfigError Config := do
  let c ← apply {} file root
  let c ← c.apply (stated top) current
  c.check

/-- The layer of a file, and the directory it is seen from; a file that is not there says nothing. -/
def fileLayer (t : FileTree) (current : Path) (p? : Option Path) : Except ConfigError (Layer × Path) :=
  match p? with
  | none => .ok ([], current)
  | some p => do
    let file := filePath t current p
    if (t.find? file).isNone then return ([], file.parent)
    let text ← (t.readText file file.toText).mapError .unreadable
    return (← readLayer file.name text, file.parent)

theorem load_eq (t : FileTree) (current : Path) (p? : Option Path) (top : Layer) :
    load t current p? top = fileLayer t current p? >>= fun (file, root) => ofLayers file root top current := by
  unfold load fileLayer
  cases p? with
  | none => rfl
  | some p =>
    dsimp only
    split
    · rfl
    · cases (t.readText (filePath t current p) (filePath t current p).toText).mapError ConfigError.unreadable with
      | error e => rfl
      | ok text =>
        cases hlayer : readLayer (filePath t current p).name text with
        | error e => simp [hlayer, bind, Except.bind]
        | ok layer => simp [hlayer, bind, Except.bind, ofLayers, stated, pure, Except.pure]

theorem readLayer_hasDistinctKeys {file text : Text} {layer : Layer} (h : readLayer file text = .ok layer) :
    Value.HasDistinctKeys (.mapping layer) := by
  have hnil : Value.HasDistinctKeys (.mapping []) := .mapping [] List.nodup_nil (List.forall_mem_nil _)
  unfold readLayer at h
  split at h
  · cases h
    exact hnil
  · split at h
    · cases h
    · cases h
      exact hnil
    · cases h
      rename_i hparse
      exact Yaml.parse_hasDistinctKeys hparse
    · cases h

/-- No file gives a key twice. -/
theorem fileLayer_hasDistinctKeys {t : FileTree} {current : Path} {p? : Option Path} {file : Layer} {root : Path}
    (h : fileLayer t current p? = .ok (file, root)) : Value.HasDistinctKeys (.mapping file) := by
  have hnil : Value.HasDistinctKeys (.mapping []) := .mapping [] List.nodup_nil (List.forall_mem_nil _)
  unfold fileLayer at h
  cases p? with
  | none =>
    cases h
    exact hnil
  | some p =>
    dsimp only at h
    split at h
    · cases h
      exact hnil
    · obtain ⟨text, -, h⟩ := exists_of_bind_ok h
      obtain ⟨layer, hlayer, h⟩ := exists_of_bind_ok h
      cases h
      exact readLayer_hasDistinctKeys hlayer

/-- What two layers say about each part of a configuration. -/
structure Layered (file : Layer) (root : Path) (top : Layer) (current : Path) (c : Config) : Prop where
  /-- The last member on top decides a setting, or else the ai block on top, or else the same of the file; and if none
  of them is there the setting is the usual one. -/
  field : ∀ f : Field,
    f.Decided (((f.inLayer current top).getLast?.or (f.inBlock current top).getLast?).or
      ((f.inLayer root file).getLast?.or (f.inBlock root file).getLast?)) (f.get {}) (f.get c)
  ignore : ∃ ofFile onTop, patterns file = .ok ofFile ∧ patterns top = .ok onTop ∧ c.ignore = ofFile ++ onTop
  model : ∀ m : ModelField, m.Decided ((givenModel? m top).or (givenModel? m file)) none (m.get c.llm)

section

variable {file file' : Layer} {root : Path} {top top' : Layer} {current : Path} {c : Config}

theorem keys_stated : ((stated top).map Prod.fst).Sublist (top.map Prod.fst) := List.filter_sublist.map Prod.fst

theorem stated_hasDistinctKeys (h : Value.HasDistinctKeys (.mapping top)) :
    Value.HasDistinctKeys (.mapping (stated top)) :=
  .mapping _ (h.nodup_keys.sublist keys_stated) fun _ hm => h.of_mem (List.mem_filter.mp hm).1

theorem Alike.isNull {v v' : Value} (h : Alike v v') : v.isNull = v'.isNull := by
  obtain rfl | ⟨block, block', rfl, rfl, -⟩ := h <;> rfl

theorem Reordered.stated (h : Reordered top top') : Reordered (Config.stated top) (Config.stated top') := by
  obtain ⟨between, hperm, halike⟩ := h
  refine ⟨Config.stated between, hperm.filter _, List.rel_filter ?_ halike⟩
  rintro m m' ⟨-, hvalue⟩
  dsimp only
  rw [hvalue.isNull]

theorem isNull_knownIn (key : Text) (v : Value) : (knownIn key v).isNull = v.isNull := by
  unfold knownIn
  split <;> rfl

theorem known_stated (top : Layer) : known (stated top) = stated (known top) := by
  unfold known stated
  rw [List.filter_map, List.filter_filter, List.filter_filter]
  congr 1
  refine List.filter_congr fun m _ => ?_
  simp only [Function.comp_apply, isNull_knownIn, Bool.and_comm]

theorem ofLayers_eq_ok (h : ofLayers file root top current = .ok c) :
    ∃ mid, apply {} file root = .ok mid ∧ apply mid (stated top) current = .ok c ∧ c.Usable := by
  obtain ⟨mid, hfile, h⟩ := exists_of_bind_ok h
  obtain ⟨whole, htop, h⟩ := exists_of_bind_ok h
  obtain ⟨rfl, husable⟩ := check_ok h
  exact ⟨mid, hfile, htop, husable⟩

/-- Layers that say the same are loaded as the same. -/
theorem ofLayers_congr (hfile : SaysSame file file') (htop : SaysSame (stated top) (stated top'))
    (hkeys : (file.map Prod.fst).Nodup ∧ (file'.map Prod.fst).Nodup)
    (hkeys' : (top.map Prod.fst).Nodup ∧ (top'.map Prod.fst).Nodup) (h : ofLayers file root top current = .ok c) :
    ofLayers file' root top' current = .ok c := by
  obtain ⟨mid, hmid, h⟩ := exists_of_bind_ok h
  obtain ⟨whole, hwhole, hcheck⟩ := exists_of_bind_ok h
  unfold ofLayers
  rw [hfile.apply hkeys.1 hkeys.2 hmid]
  show apply mid (stated top') current >>= check = .ok c
  rw [htop.apply (hkeys'.1.sublist keys_stated) (hkeys'.2.sublist keys_stated) hwhole]
  exact hcheck

theorem layered (hfile : (file.map Prod.fst).Nodup) (htop : (top.map Prod.fst).Nodup)
    (h : ofLayers file root top current = .ok c) : Layered file root (stated top) current c := by
  obtain ⟨mid, hmid, hwhole, -⟩ := ofLayers_eq_ok h
  obtain ⟨hfields, ⟨ofFile, hofFile, hignore⟩, hmodel⟩ := (apply_eq_ok_iff hfile).mp hmid
  obtain ⟨hfields', ⟨onTop, honTop, hignore'⟩, hmodel'⟩ := (apply_eq_ok_iff (htop.sublist keys_stated)).mp hwhole
  refine ⟨?_, ⟨ofFile, onTop, hofFile, honTop, ?_⟩, ?_⟩
  · intro f
    have hboth := decided_of_after ((after_append f _ _ _ _).mpr ⟨_, hfields f, hfields' f⟩)
    unfold Field.given at hboth
    rwa [List.getLast?_append, List.getLast?_append, List.getLast?_append] at hboth
  · rw [hignore', hignore]
    rfl
  · intro m
    have hfirst := m.decided_of_after (modelAfter_eq_ok hmodel m)
    have hlast := m.decided_of_after (modelAfter_eq_ok hmodel' m)
    have husual : m.get ({} : Config).llm = none := by cases m <;> rfl
    rw [husual] at hfirst
    cases hv : givenModel? m (stated top) with
    | some v =>
      rw [hv] at hlast
      exact hlast
    | none =>
      rw [hv] at hlast
      have hsame : m.get c.llm = m.get mid.llm := hlast
      rw [Option.none_or, hsame]
      exact hfirst

end

namespace Sample

def here : Path := { root := ['/'], parts := ["w".toList] }

def text : Text :=
  ("provider: ollama\nai:\n  provider: offline\n  style: concise\nformat: [md, json]\nignore: [a]\noutput: o\n" ++
    "extra: 1\nllm:\n  model: m\n  max_tokens: 9\n").toList

def tree : FileTree := .directory [("w".toList, .directory [(fileName, .file (.text text))])]

def top : Layer :=
  [("format".toList, .text "html".toList), ("style".toList, .null), ("ignore".toList, .list [.text "b".toList]),
    ("template".toList, .text "t".toList),
    ("llm".toList, .mapping [("model".toList, .null), ("max_tokens".toList, .int 7)])]

def whole : Config where
  format := "html".toList
  style := "concise".toList
  output := here.child "o".toList
  ignore := ["a".toList, "b".toList]
  provider := "ollama".toList
  template? := some (here.child "t".toList)
  llm := { model? := some "m".toList, maxTokens? := some 7 }

end Sample

end SourceDoc.Config
