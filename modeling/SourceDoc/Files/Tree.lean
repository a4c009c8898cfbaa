import SourceDoc.Path
import SourceDoc.Table
import SourceDoc.Text.Blank
import SourceDoc.Text.Utf8

/-!
# File trees

A tree of directories and files, as far as the program reads and writes it.  A file holds a text, octets, or many
copies of a text; its size is known without its octets.
-/

namespace SourceDoc

/-- What a file holds. -/
inductive Content where
  | text (t : Text)
  | octets (bytes : List UInt8)
  | copies (t : Text) (count : Nat)
  deriving DecidableEq, Repr

namespace Content

/-- The number of octets. -/
def size : Content → Nat
  | text t => Text.size t
  | octets bytes => bytes.length
  | copies t count => Text.size t * count

/-- The text as it is stored. -/
def stored : Content → Except Text.DecodeError Text
  | text t => .ok t
  | octets bytes => Text.decode bytes
  | copies t count => .ok (List.replicate count t).flatten

/-- The text as it is read, with newlines only. -/
def read (c : Content) : Except Text.DecodeError Text := c.stored.map Text.unifyNewlines

/-- The content with a text after it. -/
def append (c : Content) (more : Text) : Content :=
  match c with
  | text t => text (t ++ more)
  | octets bytes => octets (bytes ++ Text.encode more)
  | copies t count => text ((List.replicate count t).flatten ++ more)

end Content

/-- A file, or a directory with its entries. -/
inductive FileTree where
  | file (content : Content)
  | directory (entries : List (Text × FileTree))
  deriving Repr, Inhabited

/-- Why a file cannot be read or written. -/
inductive FileError where
  | notFound (path : Text)
  | alreadyThere (path : Text)
  | notDirectory (path : Text)
  | isDirectory (path : Text)
  | undecodable (e : Text.DecodeError)
  deriving DecidableEq, Repr

/-- The wording of the reason. -/
def FileError.message : FileError → Text
  | notFound path => "[Errno 2] No such file or directory: ".toList ++ Text.quoted path
  | alreadyThere path => "[Errno 17] File exists: ".toList ++ Text.quoted path
  | notDirectory path => "[Errno 20] Not a directory: ".toList ++ Text.quoted path
  | isDirectory path => "[Errno 21] Is a directory: ".toList ++ Text.quoted path
  | undecodable e => e.message

namespace FileTree

/-- The entries of a directory; a file has none. -/
def entries : FileTree → List (Text × FileTree)
  | file _ => []
  | directory es => es

def isDirectory : FileTree → Bool
  | file _ => false
  | directory _ => true

/-! ## Looking up -/

/-- What stands at the end of some parts, `above` being the directories on the way, nearest first. -/
def findFrom? (above : List FileTree) (t : FileTree) : List Text → Option FileTree
  | [] => some t
  | part :: rest =>
    if !t.isDirectory then none
    else if part = ['.', '.'] then
      match above with
      | [] => findFrom? [] t rest
      | parent :: more => findFrom? more parent rest
    else
      match Table.get? part t.entries with
      | some next => findFrom? (t :: above) next rest
      | none => none

/-- What stands at a path from the root. -/
def find? (t : FileTree) (p : Path) : Option FileTree := findFrom? [] t p.parts

/-- The first parts of some parts, none at first and all of them in the end. -/
def fronts (parts : List Text) : List (List Text) := (List.range (parts.length + 1)).map fun n => parts.take n

/-- The first part of a path at which a file stands, as the parts up to it. -/
def fileOnWay? (t : FileTree) (parts : List Text) : Option (List Text) :=
  (fronts parts).find? fun front =>
    match t.find? ⟨[], front⟩ with
    | some (file _) => true
    | _ => false

/-- The text of the file at a path from the root; `shown` is the path in messages. -/
def readText (t : FileTree) (p : Path) (shown : Text) : Except FileError Text :=
  match t.find? p with
  | none => if (t.fileOnWay? p.parts).isSome then .error (.notDirectory shown) else .error (.notFound shown)
  | some (directory _) => .error (.isDirectory shown)
  | some (file c) => c.read.mapError .undecodable

/-! ## Listing -/

mutual

/-- The files with the parts that lead to them, in the order of the entries. -/
def files : FileTree → List (List Text × Content)
  | file c => [([], c)]
  | directory es => filesOf es

/-- The files of some entries. -/
def filesOf : List (Text × FileTree) → List (List Text × Content)
  | [] => []
  | (name, t) :: rest => t.files.map (fun (parts, c) => (name :: parts, c)) ++ filesOf rest

end

/-- The files that an older tree does not hold, or holds with another content. -/
def changesSince (old new : FileTree) : List (List Text × Content) :=
  new.files.filter fun (parts, c) =>
    match old.find? ⟨[], parts⟩ with
    | some (file d) => c ≠ d
    | _ => true

/-! ## Changing -/

/-- Puts a file or a directory at the end of some parts, with the directories on the way; a file on the way is
replaced. -/
def insert (new : FileTree) : List Text → FileTree → FileTree
  | [], _ => new
  | part :: rest, t =>
    let next := (Table.get? part t.entries).getD (directory [])
    directory (Table.put part (insert new rest next) t.entries)

/-- Puts a directory at the end of some parts unless one is there. -/
def insertDirectory : List Text → FileTree → FileTree
  | [], t => if t.isDirectory then t else directory []
  | part :: rest, t =>
    let next := (Table.get? part t.entries).getD (directory [])
    directory (Table.put part (insertDirectory rest next) t.entries)

/-- Makes the directory at a path unless one is there; those above it are there. -/
def ensureDirectory (t : FileTree) (p : Path) : Except FileError FileTree :=
  match t.find? p with
  | some (file _) => .error (.alreadyThere p.toText)
  | some (directory _) => .ok t
  | none => .ok (insertDirectory (Path.collapse p.parts) t)

/-- Makes a directory and those on the way to it, the first one first; `shown` is the path in messages. -/
def makeDirectory (t : FileTree) (p : Path) (shown : Text) : Except FileError FileTree :=
  match t.fileOnWay? p.parts with
  | none => (fronts p.parts).foldlM (fun t front => t.ensureDirectory ⟨p.root, front⟩) t
  | some front => if front = p.parts then .error (.alreadyThere shown) else .error (.notDirectory shown)

/-- Writes a file, in a directory that is there; `shown` is the path in messages. -/
def writeFile (t : FileTree) (p : Path) (shown content : Text) : Except FileError FileTree :=
  match t.find? p, t.find? p.parent with
  | some (directory _), _ => .error (.isDirectory shown)
  | _, some (directory _) => .ok (insert (file (.text content)) (Path.collapse p.parts) t)
  | _, some (file _) => .error (.notDirectory shown)
  | _, none => if (t.fileOnWay? p.parts.dropLast).isSome then .error (.notDirectory shown) else .error (.notFound shown)

end FileTree

end SourceDoc
