import SourceDoc.CommandLine.Help
import SourceDoc.Config.Provider
import SourceDoc.Files.Output
import SourceDoc.Run.Report
import SourceDoc.Scan

/-!
# Sessions

A session carries out what a command line asks for, in a place with files, an environment, a line to a language model
and a clock.  It ends with an exit code, with what was written to the output and to the error output, and with the
files as they are then; or it crashes.
-/

namespace SourceDoc.CommandLine

/-- Where a session takes place. -/
structure Place where
  files : FileTree
  current : Path
  environment : Chat.Environment
  line : Chat.Line
  clock : Clock
  /-- What stands in front of each line of a log file. -/
  stamp : Text := []
  /-- The home directory of a user; no name stands for whoever gives the command. -/
  home? : Text → Option Path := fun _ => none

/-- Why a session crashes. -/
inductive Crash where
  | file (e : FileError)
  | config (e : ConfigError)
  | run (e : RunError)
  deriving DecidableEq, Repr

def Crash.message : Crash → Text
  | file e => e.message
  | config e => e.message
  | run e => e.message

/-- Something on the error output. -/
inductive Said where
  | log (e : Log.Entry)
  | complaint (t : Text)
  deriving DecidableEq, Repr

/-- What a command comes to. -/
structure Work where
  code : Nat
  out : List Text := []
  said : List Said := []
  files : FileTree
  requests : List Chat.Request := []
  /-- The interface and the port that the service listens on. -/
  served? : Option (Text × Int) := none

/-- The end of a session. -/
structure Result where
  code : Nat
  out : List Text
  err : List Text
  files : FileTree
  requests : List Chat.Request
  served? : Option (Text × Int)

/-- The exit codes. -/
def exitOk : Nat := 0

def exitFailure : Nat := 1

def exitUsage : Nat := 2

/-! ## Commands -/

/-- A path as it is shown to somebody in a directory. -/
def shownFrom (current p : Path) : Text := ((p.relativeTo? current).getD p).toText

/-- What is printed about a report. -/
def summary (current output : Path) (report : Report) (written : Nat) : List Text :=
  ["Attempted: ".toList ++ Text.ofNat report.attempted ++ "  Succeeded: ".toList ++ Text.ofNat report.succeeded ++
    "  Skipped: ".toList ++ Text.ofNat report.skipped.length] ++
  report.skipped.map (fun (path, reason) => "  skipped ".toList ++ path ++ ": ".toList ++ reason) ++
  report.renderErrors.map (fun (d, f, e) =>
    "  ".toList ++ f.name ++ " artifact for ".toList ++ d.path ++ " not written: ".toList ++ e.message) ++
  report.formatErrors.map (fun (f, e) => "  ".toList ++ f.name ++ " output failed: ".toList ++ e.message) ++
  ["Wrote ".toList ++ Text.ofNat written ++ " file(s) to ".toList ++ shownFrom current output]

/-- A command that ends with a complaint. -/
def complain (files : FileTree) (said : List Said) (reason : Text) : Work :=
  { code := exitUsage, said := said ++ [.complaint ("autodocs: ".toList ++ reason)], files }

/-- The text of the template, if one is configured. -/
def readTemplate (files : FileTree) (current : Path) (c : Config) : Except FileError (Option Text) :=
  match c.template? with
  | none => .ok none
  | some p => (files.readText (current.join p) p.toText).map some

/-- Documents some source files and writes their pages. -/
def generatePages (p : Place) (c : Config) (template? : Option Text) (said : List Said) (sources : List SourceFile) :
    Except Crash Work :=
  let workshop : Workshop Chat.Line := { provide := (Provider.ofConfig c p.environment).generate }
  let options : RunOptions := { formats := c.formats, template?, isCombined := c.combined, clock := p.clock }
  match workshop.run options sources p.line with
  | (.error (.noIndex e), _) => .error (.run (.noIndex e))
  | (.error e, line) => .ok { complain p.files said e.message with requests := line.requests }
  | (.ok (report, notes), line) =>
    let written := writeArtifacts p.files p.current c.output report.allArtifacts
    match written.error? with
    | some e => .error (.file e)
    | none =>
      .ok {
        code := if report.succeeded = 0 || report.formatErrors ≠ [] then exitFailure else exitOk
        out := summary p.current c.output report written.paths.length
        said := said ++ notes.map (fun n => .log (n.logged "cli")) ++ written.log.map .log
        files := written.files
        requests := line.requests }

/-- A written path with the home directory that it may start in. -/
def Place.expand (p : Place) (path : Text) : Except ConfigError Text :=
  match Path.expandHome? p.home? path with
  | some expanded => .ok expanded
  | none => .error .noHome

/-- The configuration file of the command, or the directory that may hold it. -/
def GenerateOptions.configPath (o : GenerateOptions) (p : Place) : Except ConfigError Path :=
  match o.config?.filter (· ≠ []) with
  | some path => (p.expand path).map Path.ofText
  | none => .ok p.current

/-- The configuration of the command. -/
def GenerateOptions.configuration (o : GenerateOptions) (p : Place) : Except ConfigError Config := do
  Config.load p.files p.current (some (← o.configPath p)) o.layer

/-- Writes documentation about the source files that a scan found. -/
def generateFrom (found : Scan) (o : GenerateOptions) (p : Place) (c : Config) : Except Crash Work :=
  let said := found.log.map Said.log
  if found.sources = [] then
    .ok (complain p.files said ("no supported source files found in ".toList ++ o.source))
  else
    match readTemplate p.files p.current c with
    | .error (.undecodable e) => .error (.file (.undecodable e))
    | .error e => .ok (complain p.files said ("cannot read template: ".toList ++ e.message))
    | .ok template? => generatePages p c template? said found.sources

/-- Writes documentation. -/
def generate (o : GenerateOptions) (p : Place) : Except Crash Work :=
  match o.configuration p with
  | .error e =>
    if e.isReported then .ok (complain p.files [] ("configuration error: ".toList ++ e.message))
    else .error (.config e)
  | .ok c =>
    match p.expand o.source with
    | .error e => .error (.config e)
    | .ok source =>
      match ({ patterns := c.ignore } : Scanner).scan p.files p.current source with
      | .error (.notFound _) => .ok (complain p.files [] (ScanError.notFound o.source).message)
      | .error (.badIgnoreFile e) => .error (.file e)
      | .ok found => generateFrom found o p c

/-- Starts the service. -/
def serve (host : Text) (port : Int) (p : Place) : Except Crash Work :=
  match Config.load p.files p.current (some p.current) [] with
  | .error e => .error (.config e)
  | .ok _ =>
    let message := "Serving autodocs on ".toList ++ host ++ ':' :: Text.ofInt port
    .ok { code := exitOk, said := [.log ⟨.info, "service", message⟩], files := p.files, served? := some (host, port) }

/-- Carries out a command. -/
def Command.run : Command → Place → Except Crash Work
  | .generate o, p => CommandLine.generate o p
  | .serve host port, p => CommandLine.serve host port p

/-! ## Log files -/

/-- Makes sure that a log file is there. -/
def openLog (files : FileTree) (path : Path) : Except Crash FileTree :=
  match files.find? path with
  | some (.file _) => .ok files
  | _ => (files.writeFile path path.toText []).mapError .file

/-- Writes some entries at the end of a log file. -/
def appendLog (files : FileTree) (path : Path) (stamp : Text) (entries : List Log.Entry) : FileTree :=
  let more := entries.flatMap fun e => stamp ++ e.fileLine ++ ['\n']
  match files.find? path with
  | some (.file c) => FileTree.insert (.file (c.append more)) path.parts files
  | _ => files

/-! ## Sessions -/

/-- The entries among what was said that are shown. -/
def shownEntries (isVerbose : Bool) (said : List Said) : List Log.Entry :=
  Log.shown isVerbose (said.filterMap fun s =>
    match s with
    | .log e => some e
    | .complaint _ => none)

/-- The lines on the error output. -/
def errorLines (isVerbose : Bool) (said : List Said) : List Text :=
  said.flatMap fun s =>
    match s with
    | .log e => (Log.shown isVerbose [e]).map (·.consoleLine)
    | .complaint t => [t]

/-- Carries out what a command line asks for. -/
def Invocation.run (i : Invocation) (p : Place) : Except Crash Result := do
  let log? := i.logFile?.map fun t => p.current.resolve (Path.ofText t)
  let files ←
    match log? with
    | none => .ok p.files
    | some path => openLog p.files path
  let work ← i.command.run { p with files }
  return {
    code := work.code
    out := work.out
    err := errorLines i.isVerbose work.said
    files :=
      match log? with
      | none => work.files
      | some path => appendLog work.files path p.stamp (shownEntries i.isVerbose work.said)
    requests := work.requests
    served? := work.served? }

/-- Reads a command line and carries it out.  A call for help is answered on the output, a mistake on the error
output. -/
def run (arguments : List Text) (p : Place) : Except Crash Result :=
  let ending := fun code out err =>
    ({ code, out, err, files := p.files, requests := [], served? := none } : Result)
  match Invocation.ofArguments arguments with
  | .ok i => i.run p
  | .error (.help program) => .ok (ending exitOk (helpOf program) [])
  | .error (.mistake program m) =>
    .ok (ending exitUsage [] (usageOf program ++ [program ++ ": error: ".toList ++ m.message]))

end SourceDoc.CommandLine
