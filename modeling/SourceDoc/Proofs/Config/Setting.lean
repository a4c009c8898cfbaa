import SourceDoc.Config.Basic
import SourceDoc.Proofs.List
import SourceDoc.Proofs.Table

/-!
# Settings and layers

A layer acts on each part of a configuration by itself (`apply_eq_ok_iff`): on each setting, by the members that give it
(`Field.given`), of which the last one counts (`decided_of_after`), on the patterns, and on each setting of the model
(`modelAfter_eq_ok`).
-/

namespace SourceDoc.Config

open Yaml (Value)

/-! ## Settings -/

/-- A setting that one member of a layer decides. -/
inductive Field where
  | format
  | style
  | output
  | provider
  | template
  | examples
  | combined
  | workers
  deriving DecidableEq, Repr

/-- A member of a layer that gives a setting: where the paths of the layer are seen from, the name of the member in
messages, and its value. -/
structure Given where
  root : Path
  key : Text
  value : Value

namespace Field

/-- What a setting is. -/
def Held : Field → Type
  | format | style | provider => Text
  | output => Path
  | template => Option Path
  | examples | combined => Bool
  | workers => Option Int

def get (c : Config) : (f : Field) → f.Held
  | format => c.format
  | style => c.style
  | output => c.output
  | provider => c.provider
  | template => c.template?
  | examples => c.includesExamples
  | combined => c.combined
  | workers => c.workers?

/-- The configuration with another setting. -/
def put (c : Config) : (f : Field) → f.Held → Config
  | format, t => { c with format := t }
  | style, t => { c with style := t }
  | output, p => { c with output := p }
  | provider, t => { c with provider := t }
  | template, p? => { c with template? := p? }
  | examples, b => { c with includesExamples := b }
  | combined, b => { c with combined := b }
  | workers, n? => { c with workers? := n? }

theorem get_put (c : Config) (f : Field) (a : f.Held) : f.get (f.put c a) = a := by
  cases f <;> rfl

theorem get_put_of_ne (c : Config) {f h : Field} (hne : f ≠ h) (a : f.Held) : h.get (f.put c a) = h.get c := by
  cases f <;> cases h <;> first | rfl | exact absurd rfl hne

theorem ignore_put (c : Config) (f : Field) (a : f.Held) : (f.put c a).ignore = c.ignore := by
  cases f <;> rfl

theorem llm_put (c : Config) (f : Field) (a : f.Held) : (f.put c a).llm = c.llm := by
  cases f <;> rfl

/-- The setting that a member gives. -/
def read (g : Given) : (f : Field) → Except ConfigError f.Held
  | format => g.value.asFormat g.key
  | style => g.value.asText g.key
  | output => (g.value.asText g.key).map fun t => g.root.join (Path.ofText t)
  | provider => g.value.asText g.key
  | template => (g.value.asText g.key).map fun t => some (g.root.join (Path.ofText t))
  | examples => g.value.asFlag g.key
  | combined => g.value.asFlag g.key
  | workers => (g.value.asInt g.key).map some

/-- The setting that a key of a layer is about. -/
def ofKey? (key : Text) : Option Field :=
  match String.ofList key with
  | "format" => some format
  | "style" => some style
  | "provider" => some provider
  | "ai_provider" => some provider
  | "output" => some output
  | "template" => some template
  | "include_examples" => some examples
  | "combined" => some combined
  | "workers" => some workers
  | _ => none

/-- The key of a setting in a layer; the provider has another one too. -/
def key : Field → String
  | format => "format"
  | style => "style"
  | output => "output"
  | provider => "provider"
  | template => "template"
  | examples => "include_examples"
  | combined => "combined"
  | workers => "workers"

/-- The key of a setting in the ai block. -/
def blockKey? : Field → Option String
  | provider => some "provider"
  | examples => some "include_examples"
  | style => some "style"
  | _ => none

end Field

/-- The ai block of a layer. -/
def aiBlock (layer : Layer) : Layer :=
  match Table.get? "ai".toList layer with
  | some (.mapping block) => block
  | _ => []

namespace Field

/-- The member of the ai block of a layer that gives a setting. -/
def inBlock (f : Field) (root : Path) (layer : Layer) : List Given :=
  match f.blockKey? with
  | some name => (Table.get? name.toList (aiBlock layer)).toList.map fun v => ⟨root, "ai.".toList ++ name.toList, v⟩
  | none => []

/-- The members of a layer itself that give a setting. -/
def inLayer (f : Field) (root : Path) (layer : Layer) : List Given :=
  (layer.filter fun m => ofKey? m.1 = some f).map fun m => ⟨root, m.1, m.2⟩

/-- All members that give a setting, in the order in which they count. -/
def given (f : Field) (root : Path) (layer : Layer) : List Given := f.inBlock root layer ++ f.inLayer root layer

/-- A setting after some members that give it: each has to give one, and the last one counts. -/
def after (f : Field) (old : f.Held) (gs : List Given) : Except ConfigError f.Held :=
  gs.foldlM (fun _ g => f.read g) old

end Field

/-- The patterns of a layer. -/
def patterns (layer : Layer) : Except ConfigError (List Text) :=
  match Table.get? "ignore".toList layer with
  | some v => v.asTexts "ignore".toList
  | none => .ok []

/-- The settings of the model after a layer. -/
def modelAfter (s : ModelSettings) (layer : Layer) : Except ConfigError ModelSettings :=
  match Table.get? "llm".toList layer with
  | none => .ok s
  | some .null => .ok s
  | some (.mapping block) => s.apply block
  | some _ => .error .modelNoMapping

/-! ## A layer, part by part -/

/-- The configuration made of some settings. -/
def ofFields (held : (f : Field) → f.Held) (ignore : List Text) (llm : ModelSettings) : Config where
  format := held .format
  style := held .style
  output := held .output
  ignore := ignore
  provider := held .provider
  template? := held .template
  includesExamples := held .examples
  combined := held .combined
  workers? := held .workers
  llm := llm

theorem get_ofFields (held : (f : Field) → f.Held) (ignore : List Text) (llm : ModelSettings) (f : Field) :
    f.get (ofFields held ignore llm) = held f := by
  cases f <;> rfl

theorem ofFields_get (c : Config) : ofFields (fun f => f.get c) c.ignore c.llm = c := rfl

theorem ext_fields {c c' : Config} (hfields : ∀ f : Field, f.get c = f.get c') (hignore : c.ignore = c'.ignore)
    (hllm : c.llm = c'.llm) : c = c' := by
  rw [← ofFields_get c, ← ofFields_get c', hignore, hllm]
  congr 1
  funext f
  exact hfields f

/-- A configuration becomes another by some members for each setting and some patterns. -/
structure Becomes (c : Config) (given : Field → List Given) (more : List Text) (c' : Config) : Prop where
  field : ∀ f : Field, f.after (f.get c) (given f) = .ok (f.get c')
  ignore : c'.ignore = c.ignore ++ more
  llm : c'.llm = c.llm

theorem becomes_nil_iff {c c' : Config} : Becomes c (fun _ => []) [] c' ↔ c' = c := by
  constructor
  · intro h
    refine ext_fields ?_ (h.ignore.trans (List.append_nil _)) h.llm
    intro f
    exact (Except.ok.inj (h.field f)).symm
  · rintro rfl
    exact ⟨fun _ => rfl, (List.append_nil _).symm, rfl⟩

theorem after_append (f : Field) (old new : f.Held) (gs gs' : List Given) :
    f.after old (gs ++ gs') = .ok new ↔ ∃ mid, f.after old gs = .ok mid ∧ f.after mid gs' = .ok new := by
  unfold Field.after
  rw [List.foldlM_append, bind_eq_ok_iff]

theorem becomes_append_iff {c c'' : Config} {given given' : Field → List Given} {more more' : List Text} :
    Becomes c (fun f => given f ++ given' f) (more ++ more') c'' ↔
      ∃ c', Becomes c given more c' ∧ Becomes c' given' more' c'' := by
  constructor
  · intro h
    have hmid := fun f => (after_append f _ _ _ _).mp (h.field f)
    choose held hheld hnew using hmid
    refine ⟨ofFields held (c.ignore ++ more) c.llm, ⟨?_, rfl, rfl⟩, ⟨?_, ?_, h.llm⟩⟩
    · intro f
      rw [get_ofFields]
      exact hheld f
    · intro f
      rw [get_ofFields]
      exact hnew f
    · exact h.ignore.trans (List.append_assoc _ _ _).symm
  · rintro ⟨c', h, h'⟩
    refine ⟨?_, ?_, h'.llm.trans h.llm⟩
    · intro f
      exact (after_append f _ _ _ _).mpr ⟨_, h.field f, h'.field f⟩
    · rw [h'.ignore, h.ignore, List.append_assoc]

theorem becomes_append_nil_iff {c c'' : Config} {given given' : Field → List Given} :
    Becomes c (fun f => given f ++ given' f) [] c'' ↔ ∃ c', Becomes c given [] c' ∧ Becomes c' given' [] c'' :=
  @becomes_append_iff c c'' given given' [] []

/-- One member for one setting. -/
theorem becomes_single_iff {c c' : Config} (f : Field) (g : Given) :
    Becomes c (fun h => if f = h then [g] else []) [] c' ↔ (f.read g).map (f.put c) = .ok c' := by
  constructor
  · intro h
    have hf := h.field f
    rw [if_pos rfl, Field.after, List.foldlM_cons] at hf
    obtain ⟨a, ha, hnew⟩ := exists_of_bind_ok hf
    rw [ha]
    refine congrArg Except.ok (ext_fields ?_ ?_ ?_)
    · intro h'
      by_cases hne : f = h'
      · subst hne
        rw [Field.get_put]
        exact Except.ok.inj hnew
      · have hsame := h.field h'
        rw [if_neg hne] at hsame
        rw [Field.get_put_of_ne c hne]
        exact Except.ok.inj hsame
    · rw [Field.ignore_put, h.ignore, List.append_nil]
    · rw [Field.llm_put, h.llm]
  · intro h
    obtain ⟨a, ha, rfl⟩ := exists_of_map_ok h
    refine ⟨?_, by rw [Field.ignore_put, List.append_nil], Field.llm_put c f a⟩
    intro h'
    by_cases hne : f = h'
    · subst hne
      rw [if_pos rfl, Field.get_put, Field.after, List.foldlM_cons, ha]
      rfl
    · rw [if_neg hne, Field.get_put_of_ne c hne]
      rfl

theorem becomes_patterns_iff {c c' : Config} (more : List Text) :
    Becomes c (fun _ => []) more c' ↔ { c with ignore := c.ignore ++ more } = c' := by
  constructor
  · intro h
    exact ext_fields (fun f => Except.ok.inj (h.field f)) h.ignore.symm h.llm.symm
  · rintro rfl
    exact ⟨fun _ => rfl, rfl, rfl⟩

/-! ### One member -/

theorem eq_toList_of_ofList {key : Text} {name : String} (h : String.ofList key = name) : key = name.toList := by
  rw [← h, String.toList_ofList]

/-- What a member of a layer does: it gives a setting, or it gives patterns, or it does nothing. -/
theorem set_eq (root : Path) (c : Config) (key : Text) (v : Value) :
    c.set root key v =
      match Field.ofKey? key with
      | some f => (f.read ⟨root, key, v⟩).map (f.put c)
      | none =>
        if key = "ignore".toList then (v.asTexts key).map fun ts => { c with ignore := c.ignore ++ ts } else .ok c := by
  unfold set
  split
  case h_5 hkey | h_6 hkey =>
    rw [Field.ofKey?, hkey]
    cases h : v.asText key <;> simp [h, Field.read, Except.map, Field.put]
  case h_7 hkey =>
    rw [Field.ofKey?, hkey]
    exact (if_pos (eq_toList_of_ofList hkey)).symm
  case h_10 hkey =>
    rw [Field.ofKey?, hkey]
    cases h : v.asInt key <;> simp [h, Field.read, Except.map, Field.put]
  case h_11 hignore _ _ _ =>
    have hnone : Field.ofKey? key = none := by
      unfold Field.ofKey?
      split
      all_goals first | contradiction | rfl
    have hkey : key ≠ "ignore".toList := by
      rintro rfl
      exact hignore String.ofList_toList
    rw [hnone]
    exact (if_neg hkey).symm
  all_goals
    rename_i hkey
    rw [Field.ofKey?, hkey]
    rfl

/-- The patterns that a member gives. -/
def patternsAt (key : Text) (v : Value) : Except ConfigError (List Text) :=
  if key = "ignore".toList then v.asTexts key else .ok []

theorem ofKey_ignore : Field.ofKey? "ignore".toList = none := rfl

theorem set_eq_ok_iff {root : Path} {c c' : Config} {key : Text} {v : Value} :
    c.set root key v = .ok c' ↔ ∃ more, patternsAt key v = .ok more ∧
      Becomes c (fun f => if Field.ofKey? key = some f then [⟨root, key, v⟩] else []) more c' := by
  rw [set_eq]
  cases hfield : Field.ofKey? key with
  | some f =>
    have hkey : key ≠ "ignore".toList := by
      rintro rfl
      rw [ofKey_ignore] at hfield
      cases hfield
    simp only [patternsAt, if_neg hkey, Except.ok.injEq, exists_eq_left', Option.some.injEq]
    exact (becomes_single_iff f ⟨root, key, v⟩).symm
  | none =>
    simp only [reduceCtorEq, if_false, becomes_patterns_iff]
    by_cases hkey : key = "ignore".toList
    · rw [if_pos hkey, patternsAt, if_pos hkey]
      constructor
      · exact exists_of_map_ok
      · rintro ⟨more, hmore, rfl⟩
        rw [hmore]
        rfl
    · rw [if_neg hkey, patternsAt, if_neg hkey]
      simp only [Except.ok.injEq, exists_eq_left', List.append_nil]

/-! ### All members -/

theorem inLayer_cons (f : Field) (root : Path) (m : Text × Value) (layer : Layer) :
    f.inLayer root (m :: layer) =
      (if Field.ofKey? m.1 = some f then [⟨root, m.1, m.2⟩] else []) ++ f.inLayer root layer := by
  unfold Field.inLayer
  by_cases h : Field.ofKey? m.1 = some f
  · rw [List.filter_cons_of_pos (by simpa using h), if_pos h]
    rfl
  · rw [List.filter_cons_of_neg (by simpa using h), if_neg h]
    rfl

/-- Only one member gives patterns. -/
theorem patterns_cons_iff {key : Text} {v : Value} {layer : Layer} (hkeys : key ∉ layer.map Prod.fst)
    (ps : List Text) :
    patterns ((key, v) :: layer) = .ok ps ↔
      ∃ more rest, patternsAt key v = .ok more ∧ patterns layer = .ok rest ∧ ps = more ++ rest := by
  unfold patterns patternsAt
  rw [Table.get_cons]
  by_cases hkey : key = "ignore".toList
  · subst hkey
    have hnone : Table.get? "ignore".toList layer = none := by
      rw [← Option.not_isSome_iff_eq_none, Table.get_isSome]
      exact hkeys
    simp only [if_true, hnone, Except.ok.injEq]
    constructor
    · intro h
      exact ⟨ps, [], h, rfl, (List.append_nil ps).symm⟩
    · rintro ⟨more, rest, hmore, rfl, rfl⟩
      rwa [List.append_nil]
  · simp only [if_neg hkey, Except.ok.injEq]
    constructor
    · intro h
      exact ⟨[], ps, rfl, h, rfl⟩
    · rintro ⟨more, rest, rfl, hrest, rfl⟩
      exact hrest

theorem foldlM_set_eq_ok_iff {root : Path} {layer : Layer} (hkeys : (layer.map Prod.fst).Nodup) {c c' : Config} :
    layer.foldlM (fun c (m : Text × Value) => c.set root m.1 m.2) c = .ok c' ↔
      ∃ more, patterns layer = .ok more ∧ Becomes c (fun f => f.inLayer root layer) more c' := by
  induction layer generalizing c with
  | nil =>
    have hnone : patterns [] = .ok [] := rfl
    simp only [hnone, Except.ok.injEq, exists_eq_left']
    rw [List.foldlM_nil]
    refine Iff.trans ?_ becomes_nil_iff.symm
    exact ⟨fun h => (Except.ok.inj h).symm, fun h => congrArg Except.ok h.symm⟩
  | cons m layer ih =>
    obtain ⟨key, v⟩ := m
    rw [List.map_cons, List.nodup_cons] at hkeys
    have hgiven : (fun f : Field => f.inLayer root ((key, v) :: layer)) =
        fun f => (if Field.ofKey? key = some f then [⟨root, key, v⟩] else []) ++ f.inLayer root layer :=
      funext fun f => inLayer_cons f root (key, v) layer
    rw [List.foldlM_cons, hgiven]
    constructor
    · intro h
      obtain ⟨mid, hset, hrest⟩ := exists_of_bind_ok h
      obtain ⟨more, hmore, hfirst⟩ := set_eq_ok_iff.mp hset
      obtain ⟨rest, hpatterns, hlast⟩ := (ih hkeys.2).mp hrest
      exact ⟨more ++ rest, (patterns_cons_iff hkeys.1 _).mpr ⟨more, rest, hmore, hpatterns, rfl⟩,
        becomes_append_iff.mpr ⟨mid, hfirst, hlast⟩⟩
    · rintro ⟨ps, hps, h⟩
      obtain ⟨more, rest, hmore, hpatterns, rfl⟩ := (patterns_cons_iff hkeys.1 _).mp hps
      obtain ⟨mid, hfirst, hlast⟩ := becomes_append_iff.mp h
      rw [set_eq_ok_iff.mpr ⟨more, hmore, hfirst⟩]
      exact (ih hkeys.2).mpr ⟨rest, hpatterns, hlast⟩

/-! ### The ai block -/

/-- The member of the ai block under the name of a setting, for this setting. -/
def named (root : Path) (layer : Layer) (f : Field) (name : String) (h : Field) : List Given :=
  if f = h then
    (Table.get? name.toList (aiBlock layer)).toList.map fun v => ⟨root, "ai.".toList ++ name.toList, v⟩
  else []

theorem setAi_eq_ok_iff {f : Field} {name : String} (hname : f.blockKey? = some name) (root : Path) {layer : Layer}
    {c c' : Config} :
    setAi (aiBlock layer) c name = .ok c' ↔ Becomes c (named root layer f name) [] c' := by
  unfold named
  cases hv : Table.get? name.toList (aiBlock layer) with
  | none =>
    simp only [Option.toList_none, List.map_nil, ite_self]
    refine Iff.trans ?_ becomes_nil_iff.symm
    have hsame : setAi (aiBlock layer) c name = .ok c := by
      cases f <;> cases hname
      all_goals
        unfold setAi
        rw [hv]
        rfl
    rw [hsame, Except.ok.injEq]
    exact eq_comm
  | some v =>
    refine Iff.trans ?_ (becomes_single_iff f ⟨root, "ai.".toList ++ name.toList, v⟩).symm
    cases f <;> cases hname
    all_goals
      unfold setAi
      rw [hv]
      rfl

theorem inBlock_eq (root : Path) (layer : Layer) (f : Field) :
    f.inBlock root layer = named root layer .provider "provider" f ++
      (named root layer .examples "include_examples" f ++ named root layer .style "style" f) := by
  cases f <;> simp [Field.inBlock, Field.blockKey?, named]

theorem foldlM_setAi_eq_ok_iff (root : Path) {layer : Layer} {c c' : Config} :
    ["provider", "include_examples", "style"].foldlM (setAi (aiBlock layer)) c = .ok c' ↔
      Becomes c (fun f => f.inBlock root layer) [] c' := by
  simp only [inBlock_eq, becomes_append_nil_iff]
  rw [List.foldlM_cons, bind_eq_ok_iff]
  refine exists_congr fun c₁ => and_congr (setAi_eq_ok_iff rfl root) ?_
  rw [List.foldlM_cons, bind_eq_ok_iff]
  refine exists_congr fun c₂ => and_congr (setAi_eq_ok_iff rfl root) ?_
  rw [← setAi_eq_ok_iff (f := Field.style) rfl root, List.foldlM_cons, bind_eq_ok_iff]
  simp only [List.foldlM_nil, pure, Except.pure, Except.ok.injEq, exists_eq_right]

/-! ## Layers and parts -/

theorem apply_eq (c : Config) (layer : Layer) (root : Path) :
    apply c layer root = do
      let c ← ["provider", "include_examples", "style"].foldlM (setAi (aiBlock layer)) c
      let c ← layer.foldlM (fun c m => c.set root m.1 m.2) c
      let s ← modelAfter c.llm layer
      return { c with llm := s } := by
  unfold apply aiBlock modelAfter
  generalize Table.get? "ai".toList layer = ai?
  generalize Table.get? "llm".toList layer = llm?
  rcases ai? with _ | _ | _ | _ | _ | _ | _ | _ | _
  all_goals
    rcases llm? with _ | _ | _ | _ | _ | _ | _ | _ | _
    all_goals rfl

/-- **A layer acts on each part of a configuration by itself.** -/
theorem apply_eq_ok_iff {c c' : Config} {layer : Layer} (hkeys : (layer.map Prod.fst).Nodup) {root : Path} :
    apply c layer root = .ok c' ↔
      (∀ f : Field, f.after (f.get c) (f.given root layer) = .ok (f.get c')) ∧
        (∃ more, patterns layer = .ok more ∧ c'.ignore = c.ignore ++ more) ∧ modelAfter c.llm layer = .ok c'.llm := by
  rw [apply_eq]
  simp only [bind_eq_ok_iff, foldlM_setAi_eq_ok_iff root, foldlM_set_eq_ok_iff hkeys]
  constructor
  · rintro ⟨c₁, hblock, c₂, ⟨more, hmore, hlayer⟩, s, hs, hc⟩
    cases hc
    have hwhole : Becomes c (fun f => f.given root layer) more c₂ := by
      rw [← List.nil_append more]
      exact becomes_append_iff.mpr ⟨c₁, hblock, hlayer⟩
    refine ⟨?_, ⟨more, hmore, hwhole.ignore⟩, ?_⟩
    · intro f
      have hf := hwhole.field f
      cases f <;> exact hf
    · rwa [← hwhole.llm]
  · rintro ⟨hfields, ⟨more, hmore, hignore⟩, hllm⟩
    have hwhole : Becomes c (fun f => f.given root layer) more { c' with llm := c.llm } := by
      refine ⟨?_, hignore, rfl⟩
      intro f
      have hf := hfields f
      cases f <;> exact hf
    rw [← List.nil_append more] at hwhole
    obtain ⟨c₁, hblock, hlayer⟩ := becomes_append_iff.mp hwhole
    exact ⟨c₁, hblock, _, ⟨more, hmore, hlayer⟩, c'.llm, hllm, rfl⟩

/-! ## The last member counts -/

/-- A setting is decided by a member that gives it, and stays if there is none. -/
def Field.Decided (f : Field) (g? : Option Given) (old new : f.Held) : Prop :=
  match g? with
  | some g => f.read g = .ok new
  | none => new = old

/-- **The last member that gives a setting decides it.** -/
theorem decided_of_after {f : Field} {old new : f.Held} {gs : List Given} (h : f.after old gs = .ok new) :
    f.Decided gs.getLast? old new := by
  obtain rfl | ⟨init, g, rfl⟩ := List.eq_nil_or_concat gs
  · exact (Except.ok.inj h).symm
  · rw [List.concat_eq_append] at h ⊢
    obtain ⟨mid, -, hnew⟩ := (after_append f _ _ _ _).mp h
    obtain ⟨a, ha, hlast⟩ := exists_of_bind_ok hnew
    cases hlast
    rw [List.getLast?_concat]
    exact ha

/-! ## The settings of the model -/

/-- A setting of the model. -/
inductive ModelField where
  | model
  | baseUrl
  | apiKey
  | executable
  | temperature
  | timeout
  | maxTokens
  deriving DecidableEq, Repr

namespace ModelField

/-- What a setting of the model is. -/
def Held : ModelField → Type
  | model | baseUrl | apiKey | executable => Text
  | temperature | timeout => Binary64
  | maxTokens => Int

def get (s : ModelSettings) : (m : ModelField) → Option m.Held
  | model => s.model?
  | baseUrl => s.baseUrl?
  | apiKey => s.apiKey?
  | executable => s.executable?
  | temperature => s.temperature?
  | timeout => s.timeout?
  | maxTokens => s.maxTokens?

/-- The key of a setting in the llm block. -/
def key : ModelField → String
  | model => "model"
  | baseUrl => "base_url"
  | apiKey => "api_key"
  | executable => "executable"
  | temperature => "temperature"
  | timeout => "request_timeout"
  | maxTokens => "max_tokens"

/-- The setting that a value gives. -/
def read (name : Text) (v : Value) : (m : ModelField) → Except ConfigError m.Held
  | model => v.asText name
  | baseUrl => v.asText name
  | apiKey => v.asText name
  | executable => v.asText name
  | temperature => v.asReal name
  | timeout => v.asReal name
  | maxTokens => v.asInt name

/-- A setting after a value that is given for it, if any. -/
def after (m : ModelField) (old : Option m.Held) (v? : Option Value) : Except ConfigError (Option m.Held) :=
  match v? with
  | none => .ok old
  | some v => (m.read ("llm.".toList ++ m.key.toList) v).map some

/-- A setting is decided by a value that is given for it, and stays if there is none. -/
def Decided (m : ModelField) (v? : Option Value) (old new : Option m.Held) : Prop :=
  match v? with
  | some v => ∃ a, m.read ("llm.".toList ++ m.key.toList) v = .ok a ∧ new = some a
  | none => new = old

theorem decided_of_after {m : ModelField} {old new : Option m.Held} {v? : Option Value}
    (h : m.after old v? = .ok new) : m.Decided v? old new := by
  cases v? with
  | none => exact (Except.ok.inj h).symm
  | some v =>
    obtain ⟨a, ha, rfl⟩ := exists_of_map_ok h
    exact ⟨a, ha, rfl⟩

end ModelField

/-- The value for a setting of the model in a layer; null says nothing. -/
def givenModel? (m : ModelField) (layer : Layer) : Option Value :=
  match Table.get? "llm".toList layer with
  | some (.mapping block) => ModelSettings.given? m.key block
  | _ => none

/-- A block sets each of the settings by itself. -/
theorem applyModel_eq_ok {s s' : ModelSettings} {block : Layer} (h : s.apply block = .ok s') (m : ModelField) :
    m.after (m.get s) (ModelSettings.given? m.key block) = .ok (m.get s') := by
  unfold ModelSettings.apply at h
  obtain ⟨model?, hmodel, h⟩ := exists_of_bind_ok h
  obtain ⟨baseUrl?, hbaseUrl, h⟩ := exists_of_bind_ok h
  obtain ⟨apiKey?, hapiKey, h⟩ := exists_of_bind_ok h
  obtain ⟨executable?, hexecutable, h⟩ := exists_of_bind_ok h
  obtain ⟨temperature?, htemperature, h⟩ := exists_of_bind_ok h
  obtain ⟨timeout?, htimeout, h⟩ := exists_of_bind_ok h
  obtain ⟨maxTokens?, hmaxTokens, h⟩ := exists_of_bind_ok h
  cases h
  cases m
  · exact hmodel
  · exact hbaseUrl
  · exact hapiKey
  · exact hexecutable
  · exact htemperature
  · exact htimeout
  · exact hmaxTokens

/-- A block is read only for the settings. -/
theorem applyModel_congr {block block' : Layer}
    (h : ∀ m : ModelField, ModelSettings.given? m.key block = ModelSettings.given? m.key block') (s : ModelSettings) :
    s.apply block = s.apply block' := by
  have hsetting : ∀ (m : ModelField) (old : Option m.Held) (read : Text → Value → Except ConfigError m.Held),
      ModelSettings.setting m.key read block old = ModelSettings.setting m.key read block' old := by
    intro m old read
    unfold ModelSettings.setting
    rw [h m]
  have hmodel := hsetting .model
  have hbaseUrl := hsetting .baseUrl
  have hapiKey := hsetting .apiKey
  have hexecutable := hsetting .executable
  have htemperature := hsetting .temperature
  have htimeout := hsetting .timeout
  have hmaxTokens := hsetting .maxTokens
  simp only [ModelField.key, ModelField.Held] at hmodel hbaseUrl hapiKey hexecutable htemperature htimeout hmaxTokens
  unfold ModelSettings.apply
  simp only [hmodel, hbaseUrl, hapiKey, hexecutable, htemperature, htimeout, hmaxTokens]

theorem modelAfter_eq_ok {s s' : ModelSettings} {layer : Layer} (h : modelAfter s layer = .ok s') (m : ModelField) :
    m.after (m.get s) (givenModel? m layer) = .ok (m.get s') := by
  unfold modelAfter at h
  unfold givenModel?
  generalize Table.get? "llm".toList layer = llm? at h ⊢
  split at h
  · cases h
    rfl
  · cases h
    rfl
  · exact applyModel_eq_ok h m
  · cases h

end SourceDoc.Config
