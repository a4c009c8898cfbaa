import SourceDoc.Files.Tree
import SourceDoc.Log
import SourceDoc.Page.Basic

/-!
# Written pages

Artifacts go into one directory, which is made where it is missing.  Of two artifacts with one name the later stays.
-/

namespace SourceDoc

/-- The files after some artifacts were written, with the paths of those that were, and why the next one was not. -/
structure Written where
  files : FileTree
  paths : List Text := []
  error? : Option FileError := none

namespace Written

/-- What writing tells. -/
def log (w : Written) : List Log.Entry :=
  w.paths.map fun path => ⟨.debug, "output", "Wrote ".toList ++ path⟩

/-- Writes one more artifact, unless writing has failed. -/
def add (current output : Path) (w : Written) (a : Artifact) : Written :=
  if w.error?.isSome then w
  else
    let target := output.join (Path.ofText a.name)
    match w.files.writeFile (current.join target) target.toText a.content with
    | .ok files => { w with files := files, paths := w.paths ++ [target.toText] }
    | .error e => { w with error? := some e }

end Written

/-- Writes some artifacts into a directory that is seen from another. -/
def writeArtifacts (files : FileTree) (current output : Path) (artifacts : List Artifact) : Written :=
  match files.makeDirectory (current.join output) output.toText with
  | .error e => { files := files, error? := some e }
  | .ok files => artifacts.foldl (Written.add current output) { files := files }

end SourceDoc
