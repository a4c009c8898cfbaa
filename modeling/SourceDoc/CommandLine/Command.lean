import SourceDoc.CommandLine.Reader
import SourceDoc.Config.Basic

/-!
# Commands

The commands of the program, with what they may be told on the command line.
-/

namespace SourceDoc.CommandLine

/-- What the command that writes documentation is told. -/
structure GenerateOptions where
  source : Text
  output? : Option Text := none
  format? : Option Text := none
  config? : Option Text := none
  style? : Option Text := none
  provider? : Option Text := none
  template? : Option Text := none
  workers? : Option Int := none
  noExamples : Bool := false
  deriving DecidableEq, Repr

/-- A command. -/
inductive Command where
  | generate (o : GenerateOptions)
  | serve (host : Text) (port : Int)
  deriving DecidableEq, Repr

/-- What a command line asks for. -/
structure Invocation where
  isVerbose : Bool
  logFile? : Option Text
  command : Command
  deriving DecidableEq, Repr

/-! ## Forms -/

/-- An option with its names. -/
def optionForm (names : List String) (key : String) (takes : Taking) : OptionForm := ⟨names.map String.toList, key, takes⟩

/-- The options that every command has. -/
def commonOptions : List OptionForm :=
  [optionForm ["-h", "--help"] "help" .help, optionForm ["-v", "--verbose"] "verbose" .nothing]

/-- The form of the whole command line. -/
def mainForm : Form where
  program := "autodocs".toList
  options := commonOptions
  positional := .command "command".toList ["generate".toList, "serve".toList]

def generateForm : Form where
  program := "autodocs generate".toList
  options := commonOptions ++
    [optionForm ["-o", "--output"] "output" .text, optionForm ["-f", "--format"] "format" .text,
      optionForm ["-c", "--config"] "config" .text, optionForm ["--style"] "style" (.oneOf Config.styles),
      optionForm ["--ai"] "ai" (.oneOf Config.providers), optionForm ["--template"] "template" .text,
      optionForm ["--workers"] "workers" .int, optionForm ["--no-examples"] "no-examples" .nothing,
      optionForm ["--log-file"] "log-file" .text]
  positional := .one "source".toList

def serveForm : Form where
  program := "autodocs serve".toList
  options := commonOptions ++
    [optionForm ["--host"] "host" .text, optionForm ["--port"] "port" .int]
  positional := .nothing

/-! ## Reading -/

/-- What was read for the command that writes documentation. -/
def GenerateOptions.ofRead (r : Read) : GenerateOptions where
  source := r.positional.headD []
  output? := r.text? "output"
  format? := r.text? "format"
  config? := r.text? "config"
  style? := r.text? "style"
  provider? := r.text? "ai"
  template? := r.text? "template"
  workers? := r.int? "workers"
  noExamples := r.has "no-examples"

/-- What a command line asks for. -/
def Invocation.ofArguments (arguments : List Text) : Except Stop Invocation := do
  let outer ← mainForm.read arguments
  let isGenerate := outer.positional.head? = some "generate".toList
  let inner ← (if isGenerate then generateForm else serveForm).read (outer.positional.drop 1)
  let unknown := outer.unknown ++ inner.unknown
  if unknown ≠ [] then .error (.mistake mainForm.program (.unrecognized unknown))
  else
    return {
      isVerbose := outer.has "verbose" || inner.has "verbose"
      logFile? := (inner.text? "log-file").filter (· ≠ [])
      command :=
        if isGenerate then .generate (.ofRead inner)
        else .serve ((inner.text? "host").getD "127.0.0.1".toList) ((inner.int? "port").getD 8000) }

/-- The layer on top of the configuration file. -/
def GenerateOptions.layer (o : GenerateOptions) : Layer :=
  let texts : List (String × Option Text) :=
    [("format", o.format?), ("style", o.style?), ("output", o.output?), ("ai_provider", o.provider?),
      ("template", o.template?)]
  (texts.filterMap fun (key, t?) => t?.map fun t => (key.toList, .text t)) ++
    (o.workers?.map fun i => ("workers".toList, .int i)).toList ++
    (if o.noExamples then [("include_examples".toList, .flag false)] else [])

end SourceDoc.CommandLine
