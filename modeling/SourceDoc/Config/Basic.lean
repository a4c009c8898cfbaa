import SourceDoc.Files.Tree
import SourceDoc.Page.Basic
import SourceDoc.Prose.Prompt
import SourceDoc.Yaml.Value

/-!
# Configurations

A configuration is made of layers: what holds by default, what the configuration file says, and what is asked for on
top of it.  A layer is a table of values; `Config.apply` puts one layer on a configuration, and `Config.check` looks at
the whole.
-/

namespace SourceDoc

/-- What is configured about a language model. -/
structure ModelSettings where
  model? : Option Text := none
  baseUrl? : Option Text := none
  apiKey? : Option Text := none
  temperature? : Option Binary64 := none
  maxTokens? : Option Int := none
  timeout? : Option Binary64 := none
  executable? : Option Text := none
  deriving DecidableEq, Repr

/-- A configuration. -/
structure Config where
  /-- The names of formats, with commas between them, or a word for all. -/
  format : Text := "markdown".toList
  style : Text := "detailed".toList
  output : Path := Path.ofText "docs".toList
  ignore : List Text := []
  provider : Text := "openai".toList
  template? : Option Path := none
  includesExamples : Bool := true
  combined : Bool := true
  workers? : Option Int := none
  llm : ModelSettings := {}
  deriving DecidableEq, Repr

/-- What a value has to be. -/
inductive Kind where
  | text
  | flag
  | int
  | number
  | texts
  deriving DecidableEq, Repr

def Kind.words : Kind → Text
  | text => "a string".toList
  | flag => "a boolean".toList
  | int => "an integer".toList
  | number => "a number".toList
  | texts => "a list of strings".toList

/-- Why there is no configuration. -/
inductive ConfigError where
  | unreadable (e : FileError)
  | unparsable (file : Text) (fault : Yaml.Fault)
  | noMapping (file : Text)
  | mustBe (key : Text) (kind : Kind)
  /-- A whole number is too large for a real one. -/
  | tooLarge
  | modelNoMapping
  | noFormat
  | badFormat (name : Text)
  | badStyle (style : Text)
  | badProvider (provider : Text)
  | badWorkers
  /-- A path starts in a home directory that is unknown. -/
  | noHome
  deriving DecidableEq, Repr

namespace Config

/-- The styles that may be configured. -/
def styles : List Text := ["concise".toList, "detailed".toList]

/-- The providers that may be configured. -/
def providers : List Text := ["openai".toList, "ollama".toList, "offline".toList]

end Config

/-- The wording of a value that is none of some words. -/
def oneOfMessage (what : String) (words : List Text) (value : Text) : Text :=
  what.toList ++ " must be one of ".toList ++ Text.joinWith ", ".toList words ++ " (got '".toList ++ value ++
    "')".toList

def ConfigError.message : ConfigError → Text
  | unreadable e => e.message
  | unparsable _ (.misfit m) => m.message
  | unparsable file _ => "Failed to parse ".toList ++ file
  | noMapping file => file ++ " must contain a mapping at the root".toList
  | mustBe key kind => key ++ " must be ".toList ++ kind.words
  | tooLarge => "int too large to convert to float".toList
  | modelNoMapping => "llm must be a mapping".toList
  | noFormat => "format must name at least one output format".toList
  | badFormat name => Format.unsupportedMessage name ++ "; use 'all' for every format".toList
  | badStyle style => oneOfMessage "style" Config.styles style
  | badProvider provider => oneOfMessage "ai provider" Config.providers provider
  | badWorkers => "workers must be a positive integer".toList
  | noHome => "Could not determine home directory.".toList

/-- The reason is a mistake in the configuration; other reasons are reported by nobody. -/
def ConfigError.isReported : ConfigError → Bool
  | unreadable _ => false
  | unparsable _ (.misfit _) => false
  | tooLarge => false
  | noHome => false
  | _ => true

/-! ## Values -/

namespace Yaml.Value

/-- A text or a number as a text. -/
def asText (key : Text) : Value → Except ConfigError Text
  | .text t => .ok (Text.strip t)
  | .int i => .ok (Text.ofInt i)
  | .real x => .ok x.toText
  | _ => .error (.mustBe key .text)

/-- A truth value, or a word for one. -/
def asFlag (key : Text) : Value → Except ConfigError Bool
  | .flag b => .ok b
  | .text t =>
    let word := Text.lower (Text.strip t)
    if ["true".toList, "yes".toList, "1".toList].contains word then .ok true
    else if ["false".toList, "no".toList, "0".toList].contains word then .ok false
    else .error (.mustBe key .flag)
  | _ => .error (.mustBe key .flag)

/-- A whole number, or a text of one. -/
def asInt (key : Text) : Value → Except ConfigError Int
  | .int i => .ok i
  | .text t => (Number.parseInt t).mapError fun _ => .mustBe key .int
  | _ => .error (.mustBe key .int)

/-- A number, or a text of one. -/
def asReal (key : Text) : Value → Except ConfigError Binary64
  | .real x => .ok x
  | .int i =>
    match Binary64.ofInt i with
    | .infinite _ => .error .tooLarge
    | x => .ok x
  | .text t =>
    match Number.parseReal? t with
    | some x => .ok x
    | none => .error (.mustBe key .number)
  | _ => .error (.mustBe key .number)

/-- A list of texts, or one text. -/
def asTexts (key : Text) : Value → Except ConfigError (List Text)
  | .text t => .ok [t]
  | .list items => items.mapM (asText key)
  | _ => .error (.mustBe key .texts)

/-- The names of formats. -/
def asFormat (key : Text) : Value → Except ConfigError Text
  | .list items => (items.mapM (asText key)).map (Text.joinWith [','])
  | v => v.asText key

mutual

/-- A JSON value as a value. -/
def ofJson : Json → Value
  | .null => .null
  | .bool b => .flag b
  | .int i => .int i
  | .real x => .real x
  | .text t => .text t
  | .list items => .list (ofItems items)
  | .object members => .mapping (ofMembers members)

def ofItems : List Json → List Value
  | [] => []
  | v :: rest => ofJson v :: ofItems rest

def ofMembers : Json.Members → List (Text × Value)
  | [] => []
  | (k, v) :: rest => (k, ofJson v) :: ofMembers rest

end

def isNull : Value → Bool
  | .null => true
  | _ => false

end Yaml.Value

/-! ## Layers -/

/-- A layer: values by name. -/
abbrev Layer := List (Text × Yaml.Value)

namespace ModelSettings

/-- The value of a setting that is there and not null. -/
def given? (name : String) (layer : Layer) : Option Yaml.Value :=
  (Table.get? name.toList layer).filter fun v => !v.isNull

/-- A setting after a layer. -/
def setting {α : Type} (name : String) (read : Text → Yaml.Value → Except ConfigError α) (layer : Layer)
    (old : Option α) : Except ConfigError (Option α) :=
  match given? name layer with
  | none => .ok old
  | some v => (read ("llm.".toList ++ name.toList) v).map some

/-- The settings after a layer. -/
def apply (s : ModelSettings) (layer : Layer) : Except ConfigError ModelSettings := do
  let model? ← setting "model" Yaml.Value.asText layer s.model?
  let baseUrl? ← setting "base_url" Yaml.Value.asText layer s.baseUrl?
  let apiKey? ← setting "api_key" Yaml.Value.asText layer s.apiKey?
  let executable? ← setting "executable" Yaml.Value.asText layer s.executable?
  let temperature? ← setting "temperature" Yaml.Value.asReal layer s.temperature?
  let timeout? ← setting "request_timeout" Yaml.Value.asReal layer s.timeout?
  let maxTokens? ← setting "max_tokens" Yaml.Value.asInt layer s.maxTokens?
  return { model?, baseUrl?, apiKey?, temperature?, maxTokens?, timeout?, executable? }

end ModelSettings

namespace Config

/-- The names of the formats. -/
def formats (c : Config) : List Text :=
  if c.format = "all".toList then Format.all.map Format.name
  else ((Text.splitOn ',' c.format).map Text.strip).filter (· ≠ [])

/-- One member of the `ai` block. -/
def setAi (block : Layer) (c : Config) (name : String) : Except ConfigError Config :=
  let key := "ai.".toList ++ name.toList
  match name, Table.get? name.toList block with
  | "provider", some v => (v.asText key).map fun t => { c with provider := t }
  | "include_examples", some v => (v.asFlag key).map fun b => { c with includesExamples := b }
  | "style", some v => (v.asText key).map fun t => { c with style := t }
  | _, _ => .ok c

/-- One member of a layer, but for the blocks; names that are not known have no meaning. -/
def set (root : Path) (c : Config) (key : Text) (v : Yaml.Value) : Except ConfigError Config :=
  match String.ofList key with
  | "format" => (v.asFormat key).map fun t => { c with format := t }
  | "style" => (v.asText key).map fun t => { c with style := t }
  | "provider" => (v.asText key).map fun t => { c with provider := t }
  | "ai_provider" => (v.asText key).map fun t => { c with provider := t }
  | "output" => (v.asText key).map fun t => { c with output := root.join (Path.ofText t) }
  | "template" => (v.asText key).map fun t => { c with template? := some (root.join (Path.ofText t)) }
  | "ignore" => (v.asTexts key).map fun ts => { c with ignore := c.ignore ++ ts }
  | "include_examples" => (v.asFlag key).map fun b => { c with includesExamples := b }
  | "combined" => (v.asFlag key).map fun b => { c with combined := b }
  | "workers" => (v.asInt key).map fun i => { c with workers? := some i }
  | _ => .ok c

/-- The configuration after a layer, whose paths are seen from a directory.  The `ai` block comes first, so that the
members beside it win over it. -/
def apply (c : Config) (layer : Layer) (root : Path) : Except ConfigError Config := do
  let c ←
    match Table.get? "ai".toList layer with
    | some (.mapping block) => ["provider", "include_examples", "style"].foldlM (setAi block) c
    | _ => pure c
  let c ← layer.foldlM (fun c (key, v) => c.set root key v) c
  match Table.get? "llm".toList layer with
  | none => return c
  | some .null => return c
  | some (.mapping block) => return { c with llm := ← c.llm.apply block }
  | some _ => .error .modelNoMapping

/-- A name in a list of formats is one of a format. -/
def checkFormats : List Text → Except ConfigError Unit
  | [] => .ok ()
  | name :: rest => if (Format.ofName? name).isSome then checkFormats rest else .error (.badFormat name)

/-- The configuration, if it can be used. -/
def check (c : Config) : Except ConfigError Config := do
  if c.format ≠ "all".toList then
    if c.formats = [] then .error .noFormat
    checkFormats c.formats
  if !styles.contains c.style then .error (.badStyle c.style)
  if !providers.contains c.provider then .error (.badProvider c.provider)
  if c.workers?.any (· < 1) then .error .badWorkers
  return c

/-! ## Files -/

/-- The name of a configuration file. -/
def fileName : Text := ".autodocs.yml".toList

/-- The configuration file at a path: the path itself, or the file of the usual name in it. -/
def filePath (t : FileTree) (current p : Path) : Path :=
  let file := current.resolve p
  if (t.find? (current.join p)).any FileTree.isDirectory then file.child fileName else file

/-- The layer in the text of a configuration file. -/
def readLayer (file text : Text) : Except ConfigError Layer :=
  if Text.strip text = [] then .ok []
  else
    match Yaml.parse text with
    | .error e => .error (.unparsable file e)
    | .ok .null => .ok []
    | .ok (.mapping layer) => .ok layer
    | .ok _ => .error (.noMapping file)

/-- The configuration of a file and of a layer on top of it, in a directory.  A file that is not there says nothing,
and null on top of it says nothing either. -/
def load (t : FileTree) (current : Path) (p? : Option Path) (top : Layer) : Except ConfigError Config := do
  let c : Config ←
    match p? with
    | none => pure {}
    | some p =>
      let file := filePath t current p
      if (t.find? file).isNone then pure {}
      else
        let text ← (t.readText file file.toText).mapError .unreadable
        apply {} (← readLayer file.name text) file.parent
  let c ← c.apply (top.filter fun m => !m.2.isNull) current
  c.check

end Config

end SourceDoc
