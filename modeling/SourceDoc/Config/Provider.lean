import SourceDoc.Config.Basic
import SourceDoc.Prose.Reply

/-!
# Providers of prose

Where the prose of a run comes from: from nowhere, or from a language model.
-/

namespace SourceDoc

/-- A provider of prose. -/
inductive Provider where
  | offline
  | model (runner : Chat.Runner) (options : PromptOptions)
  deriving DecidableEq, Repr

namespace Provider

/-- The model that a local program runs unless another is configured. -/
def localModel : Text := "llama3.1".toList

/-- What a configuration says about the runner. -/
def runnerOptions (c : Config) : Chat.RunnerOptions :=
  let usual : Chat.RunnerOptions := {}
  let common : Chat.RunnerOptions := { usual with
    temperature? := (c.llm.temperature?.map Quantity.real).orElse fun _ => usual.temperature?
    maxTokens? := (c.llm.maxTokens?.map Quantity.whole).orElse fun _ => usual.maxTokens?
    timeout? := (c.llm.timeout?.map Quantity.real).orElse fun _ => usual.timeout?
    apiKey := if c.llm.apiKey?.isSome then .given c.llm.apiKey? else .fromEnvironment }
  if c.provider = "ollama".toList then
    { common with
      model? := some ((c.llm.model?.filter (· ≠ [])).getD localModel)
      baseUrl := .given c.llm.baseUrl?
      executable? := some ((c.llm.executable?.filter (· ≠ [])).getD "ollama".toList) }
  else
    { common with
      model? := c.llm.model?
      baseUrl := if c.llm.baseUrl?.isSome then .given c.llm.baseUrl? else .fromEnvironment }

/-- The provider of a configuration in an environment. -/
def ofConfig (c : Config) (e : Chat.Environment) : Provider :=
  if c.provider = "offline".toList then offline
  else
    model (.ofOptions (runnerOptions c) e)
      { style := Style.ofName c.style, includesExamples := c.includesExamples }

/-- The prose about a source file, asked for over a line. -/
def generate (p : Provider) (o : Outline) (l : Chat.Line) : ProseAnswer × Chat.Line :=
  match p with
  | offline => ({ prose := .ok {} }, l)
  | model runner options =>
    let prompt := Prompt.build options o
    let (reply, l) := runner.ask prompt true l
    let prose := Prose.ofReply reply
    let received : Log.Entry := ⟨.debug, "prose", "Received prose for ".toList ++ o.path⟩
    let log := runner.dispatchEntry prompt :: if prose.isOk then [received] else []
    ({ prose, log }, l)

end Provider

end SourceDoc
