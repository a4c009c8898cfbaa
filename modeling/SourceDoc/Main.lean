import Std.Time.DateTime.Timestamp
import SourceDoc.CommandLine.Session
import SourceDoc.Moment

/-!
# The command line

Reads the files around the current directory, the environment and the time, lets a session run, and writes what the
session has changed.  No language model is within reach from here, and no network to serve.
-/

namespace SourceDoc.CommandLine

/-- A file that is larger stands in the tree with its size alone; a scan reads none of that size. -/
def largestRead : Nat := 16 * 1024 * 1024

/-- What stands at an entry of a directory.  A link to a directory, and what is neither a directory nor a file, is left
out, and so is what cannot be read. -/
partial def readEntry (entry : IO.FS.DirEntry) : IO (Option FileTree) := do
  try
    match (← entry.path.symlinkMetadata).type with
    | .dir =>
      let names ← entry.path.readDir
      let inner ← names.toList.filterMapM fun e => do
        return (← readEntry e).map (e.fileName.toList, ·)
      return some (.directory inner)
    | _ =>
      let found ← entry.path.metadata
      match found.type with
      | .file =>
        if largestRead < found.byteSize.toNat then
          return some (.file (.copies ['.'] found.byteSize.toNat))
        else
          return some (.file (.octets (← IO.FS.readBinFile entry.path).toList))
      | _ => return none
  catch _ => return none

/-- The tree with what stands at a path from the root put into it. -/
def addPlace (t : FileTree) (p : Path) : IO FileTree := do
  if (t.find? p).isSome then return t
  match ← readEntry ⟨"", String.ofList (Text.joinWith ['/'] p.parts)⟩ with
  | some found => return FileTree.insert found p.parts t
  | none => return t

/-- The paths that some arguments may name, alone or after an equals sign. -/
def namedPaths (current : Path) (arguments : List Text) : List Path :=
  arguments.flatMap fun t =>
    [t, (t.dropWhile (· ≠ '=')).drop 1].filterMap fun named =>
      if named = [] then none else some (current.resolve (Path.ofText named))

/-- Where a session takes place that is started here and now. -/
def readPlace (arguments : List Text) : IO Place := do
  let current := Path.ofText (← IO.currentDir).toString.toList
  let files ← (current :: namedPaths current arguments).foldlM addPlace (.directory [])
  let environment ← Chat.environmentNames.filterMapM fun name => do
    return (← IO.getEnv name).map (name.toList, ·.toList)
  let now : Moment := ⟨(← Std.Time.Timestamp.now).toNanosecondsSinceUnixEpoch.val.toNat / 1000⟩
  return {
    files, current, environment
    line := {}
    clock := { reading := fun _ => some now.toText }
    stamp := now.logStamp }

/-- Writes a file where it belongs, with the directories above it. -/
def writeBack (parts : List Text) (c : Content) : IO Unit := do
  let path := fun (parts : List Text) => String.ofList ('/' :: Text.joinWith ['/'] parts)
  IO.FS.createDirAll (path parts.dropLast)
  match c with
  | .octets bytes => IO.FS.writeBinFile (path parts) ⟨bytes.toArray⟩
  | .text t => IO.FS.writeFile (path parts) (String.ofList t)
  | .copies t count => IO.FS.writeFile (path parts) (String.ofList (List.replicate count t).flatten)

end SourceDoc.CommandLine

open SourceDoc SourceDoc.CommandLine in
/-- Carries out a command line. -/
def main (arguments : List String) : IO UInt32 := do
  let place ← readPlace (arguments.map String.toList)
  match CommandLine.run (arguments.map String.toList) place with
  | .error crash =>
    IO.eprintln (String.ofList crash.message)
    return 1
  | .ok result =>
    for line in result.out do IO.println (String.ofList line)
    for line in result.err do IO.eprintln (String.ofList line)
    for (parts, c) in place.files.changesSince result.files do writeBack parts c
    if result.served?.isSome then
      IO.eprintln "autodocs: there is no network to serve on"
      return 1
    return UInt32.ofNat result.code
