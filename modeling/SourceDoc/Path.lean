import SourceDoc.Text.Basic

/-!
# Paths

A path is written as parts between slashes.  `Path` is a path taken apart, with empty parts and points left out; two
points stay, since what they lead to depends on the files.  `Path.resolve` follows them by name.
-/

namespace SourceDoc

/-- A path: the slashes at its front and its parts. -/
structure Path where
  root : Text := []
  parts : List Text := []
  deriving DecidableEq, Repr

namespace Path

/-! ## Written paths -/

/-- The last part of a written path, empty after a slash. -/
def fileName (path : Text) : Text := Text.afterLast '/' path

/-- The path without the extension of its last part, and the extension with its point.  Points at the front of the
last part start no extension. -/
def splitExtension (path : Text) : Text × Text :=
  let name := fileName path
  let leading := name.takeWhile (· = '.')
  match Text.breakLast? '.' (name.drop leading.length) with
  | none => (path, [])
  | some (_, extension) => (path.take (path.length - extension.length - 1), '.' :: extension)

/-! ## Paths taken apart -/

/-- The slashes at the front that count: one, or exactly two. -/
def rootOf (t : Text) : Text :=
  match (t.takeWhile (· = '/')).length with
  | 0 => []
  | 2 => ['/', '/']
  | _ => ['/']

/-- A written path taken apart. -/
def ofText (t : Text) : Path := ⟨rootOf t, (Text.splitOn '/' t).filter fun part => part ≠ [] ∧ part ≠ ['.']⟩

/-- The path as it is written. -/
def toText (p : Path) : Text :=
  if p.root = [] ∧ p.parts = [] then ['.'] else p.root ++ Text.joinWith ['/'] p.parts

/-- A path seen from another; a path with a root stays as it is. -/
def join (p q : Path) : Path := if q.root = [] then ⟨p.root, p.parts ++ q.parts⟩ else q

/-- A written path with the home directory of the user whom a tilde in its first part names; no name stands for whoever
asks.  There is none where the home directory is unknown. -/
def expandHome? (home? : Text → Option Path) (path : Text) : Option Text :=
  match ofText path with
  | ⟨[], ('~' :: user) :: rest⟩ => (home? user).map fun home => (home.join ⟨[], rest⟩).toText
  | _ => some path

/-- The path to an entry of a directory. -/
def child (p : Path) (name : Text) : Path := ⟨p.root, p.parts ++ [name]⟩

/-- The path to the directory that holds an entry. -/
def parent (p : Path) : Path := ⟨p.root, p.parts.dropLast⟩

/-- The last part, empty where there is none. -/
def name (p : Path) : Text := (p.parts.getLast?).getD []

/-- Some parts with each pair of points taking the part before it away. -/
def collapse (parts : List Text) : List Text :=
  parts.foldl (fun done part => if part = ['.', '.'] then done.dropLast else done ++ [part]) []

/-- The path from the root, seen from a directory, without points. -/
def resolve (directory p : Path) : Path :=
  let full := directory.join p
  ⟨full.root, collapse full.parts⟩

/-- The path from a directory, where it lies below it. -/
def relativeTo? (p directory : Path) : Option Path :=
  if p.root = directory.root ∧ directory.parts.isPrefixOf p.parts then
    some ⟨[], p.parts.drop directory.parts.length⟩
  else none

/-- Lists of parts are ordered part by part. -/
def isBefore : List Text → List Text → Bool
  | [], _ => true
  | _ :: _, [] => false
  | a :: as, b :: bs => if a = b then isBefore as bs else Text.isBefore a b

end Path

end SourceDoc
