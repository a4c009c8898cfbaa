import SourceDoc.Extractor.Registry
import SourceDoc.Files.Tree
import SourceDoc.Ignore.Rule
import SourceDoc.Log
import SourceDoc.Outline.Basic

/-!
# Scans

A scan finds the source files at a path: the file itself, or all files below a directory that some extractor reads and
no rule ignores.  Files that are too large or cannot be read are left out with a warning.
-/

namespace SourceDoc

/-- What came of reading a file. -/
inductive Reading where
  | source (f : SourceFile)
  | tooLarge (path : Text) (size : Nat)
  | undecodable (path : Text) (e : Text.DecodeError)
  deriving DecidableEq, Repr

namespace Reading

/-- Reads a file that is no larger than a limit. -/
def ofContent (limit : Int) (path : Text) (c : Content) : Reading :=
  if limit < c.size then tooLarge path c.size
  else
    match c.read with
    | .ok text => source ⟨path, text⟩
    | .error e => undecodable path e

def source? : Reading → Option SourceFile
  | source f => some f
  | _ => none

/-- The warning about a file that is left out. -/
def warning? : Reading → Option Log.Entry
  | source _ => none
  | tooLarge path size =>
    some ⟨.warning, "scanner",
      "Skipping large file (".toList ++ Text.ofNat size ++ " bytes): ".toList ++ path⟩
  | undecodable path e =>
    some ⟨.warning, "scanner", "Skipping unreadable file ".toList ++ path ++ ": ".toList ++ e.message⟩

end Reading

/-- What a scan looked at, in order, and the directory that it went through. -/
structure Scan where
  readings : List Reading
  directory? : Option Text := none
  deriving Repr

namespace Scan

/-- The source files that were found. -/
def sources (s : Scan) : List SourceFile := s.readings.filterMap Reading.source?

/-- What the scan tells. -/
def log (s : Scan) : List Log.Entry :=
  s.readings.filterMap Reading.warning? ++
    match s.directory? with
    | none => []
    | some directory =>
      [⟨.debug, "scanner", "Found ".toList ++ Text.ofNat s.sources.length ++
        " file(s) to document under ".toList ++ directory⟩]

end Scan

/-- Why a scan cannot be made. -/
inductive ScanError where
  | notFound (source : Text)
  /-- The ignore file of the directory cannot be read. -/
  | badIgnoreFile (e : FileError)
  deriving DecidableEq, Repr

def ScanError.message : ScanError → Text
  | notFound source => "Source path not found: ".toList ++ source
  | badIgnoreFile e => e.message

/-- What a scan looks for. -/
structure Scanner where
  registry : Registry := .builtIn
  patterns : List Text := []
  usesDefaults : Bool := true
  /-- The most octets that a file may have. -/
  sizeLimit : Int := 10 * 1024 * 1024

namespace Scanner

/-- The rules that do not depend on the directory. -/
def rules (s : Scanner) : List IgnoreRule :=
  ((if s.usesDefaults then IgnoreRule.defaultPatterns else []) ++ s.patterns).filterMap
    (IgnoreRule.ofPattern? · false)

mutual

/-- The file at some parts, where it is wanted, or the wanted files below the directory there.  An ignored directory
is not entered. -/
def wantedAt (r : Registry) (rules : List IgnoreRule) (parts : List Text) : FileTree → List (List Text × Content)
  | .file content =>
    if r.supports (parts.getLast?.getD []) && !IgnoreRule.ignores rules parts false then [(parts, content)] else []
  | .directory entries =>
    if IgnoreRule.ignores rules parts true then [] else wantedIn r rules parts entries

/-- The wanted files of some entries of the directory at some parts. -/
def wantedIn (r : Registry) (rules : List IgnoreRule) (parts : List Text) :
    List (Text × FileTree) → List (List Text × Content)
  | [] => []
  | (name, tree) :: rest => wantedAt r rules (parts ++ [name]) tree ++ wantedIn r rules parts rest

end

/-- The rules of the ignore file among the entries of a directory. -/
def ignoreFileRules (directory : Path) (entries : List (Text × FileTree)) : Except ScanError (List IgnoreRule) :=
  let name := ".gitignore".toList
  match Table.get? name entries with
  | none => .ok []
  | some (.directory _) => .error (.badIgnoreFile (.isDirectory (directory.child name).toText))
  | some (.file content) =>
    match content.read with
    | .ok text => .ok (IgnoreRule.ofLines text)
    | .error e => .error (.badIgnoreFile (.undecodable e))

/-- Scans a directory; the files come in the order of their parts. -/
def scanDirectory (s : Scanner) (directory : Path) (entries : List (Text × FileTree)) : Except ScanError Scan :=
  (ignoreFileRules directory entries).map fun more =>
    let wanted := (wantedIn s.registry (s.rules ++ more) [] entries).mergeSort fun a b => Path.isBefore a.1 b.1
    { readings := wanted.map fun (parts, content) =>
        .ofContent s.sizeLimit (directory.join ⟨[], parts⟩).toText content
      directory? := some directory.toText }

/-- Scans a path that is seen from a directory.  A single file is not held against the rules. -/
def scan (s : Scanner) (t : FileTree) (current : Path) (source : Text) : Except ScanError Scan :=
  let path := Path.ofText source
  match t.find? (current.join path) with
  | none => .error (.notFound source)
  | some (.file content) =>
    if s.registry.supports path.name then .ok { readings := [.ofContent s.sizeLimit path.toText content] }
    else .ok { readings := [] }
  | some (.directory entries) => s.scanDirectory (current.resolve path) entries

end Scanner

end SourceDoc
