import SourceDoc.CommandLine.Command

/-!
# Help

What the program writes when it is asked for help.
-/

namespace SourceDoc.CommandLine

/-- The help for the whole command line. -/
def mainHelp : List String :=
  ["usage: autodocs [-h] [-v] \x7bgenerate,serve\x7d ...",
    "",
    "Generate documentation for JavaScript, TypeScript, Python and Go sources.",
    "",
    "positional arguments:",
    "  \x7bgenerate,serve\x7d",
    "    generate        Generate documentation for a source file or directory.",
    "    serve           Run the HTTP documentation service.",
    "",
    "options:",
    "  -h, --help        show this help message and exit",
    "  -v, --verbose     Increase log verbosity for troubleshooting."]

def generateHelp : List String :=
  ["usage: autodocs generate [-h] [-v] [-o OUTPUT] [-f FORMAT] [-c CONFIG]",
    "                         [--style \x7bconcise,detailed\x7d]",
    "                         [--ai \x7bopenai,ollama,offline\x7d] [--template TEMPLATE]",
    "                         [--workers WORKERS] [--no-examples]",
    "                         [--log-file LOG_FILE]",
    "                         source",
    "",
    "positional arguments:",
    "  source                Source directory or file to document.",
    "",
    "options:",
    "  -h, --help            show this help message and exit",
    "  -v, --verbose         Increase log verbosity for troubleshooting.",
    "  -o OUTPUT, --output OUTPUT",
    "                        Output directory (default: ./docs).",
    "  -f FORMAT, --format FORMAT",
    "                        Output format: markdown, html, json, a comma-separated",
    "                        list or 'all'.",
    "  -c CONFIG, --config CONFIG",
    "                        Path to a .autodocs.yml file.",
    "  --style \x7bconcise,detailed\x7d",
    "                        Documentation style.",
    "  --ai \x7bopenai,ollama,offline\x7d",
    "                        Prose provider.",
    "  --template TEMPLATE   Custom HTML template file.",
    "  --workers WORKERS     Number of files processed in parallel.",
    "  --no-examples         Do not ask the prose service for usage examples.",
    "  --log-file LOG_FILE   Also write logs to this file."]

def serveHelp : List String :=
  ["usage: autodocs serve [-h] [-v] [--host HOST] [--port PORT]",
    "",
    "options:",
    "  -h, --help     show this help message and exit",
    "  -v, --verbose  Increase log verbosity for troubleshooting.",
    "  --host HOST    Interface to bind.",
    "  --port PORT    Port to listen on."]

/-- The help for a form of the command line, by the program that it is for. -/
def helpOf (program : Text) : List Text :=
  (if program = generateForm.program then generateHelp
    else if program = serveForm.program then serveHelp
    else mainHelp).map String.toList

/-- How the mistakes in a command line are told: how the line is written, and the mistake. -/
def usageOf (program : Text) : List Text := (helpOf program).takeWhile (· ≠ [])

end SourceDoc.CommandLine
