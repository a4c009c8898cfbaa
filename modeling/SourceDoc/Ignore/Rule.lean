import SourceDoc.Text.Basic
import SourceDoc.Text.Blank
import SourceDoc.Text.Pattern

/-!
# Ignore rules

A glob is a pattern for a whole text: `*` stands for any characters, `?` for one, `[...]` for one of a set, and any other
character for itself.  A slash is a character like the others.

A rule says which paths below a directory are left out.  It is written as a glob.  A final slash or `/**` makes it one
for directories, a slash elsewhere one for whole paths rather than for any part of them, and a `!` in front takes paths
back in.  A front of `**/` has no meaning and is dropped.
-/

namespace SourceDoc

namespace Glob

/-- A part of a glob. -/
inductive Piece where
  /-- Any characters. -/
  | many
  /-- One character. -/
  | any
  /-- One character in some ranges, or, when negated, in none of them. -/
  | oneOf (negated : Bool) (ranges : List (Char × Char))
  /-- One character. -/
  | char (c : Char)
  deriving DecidableEq, Repr

/-! ## Sets

Between brackets a hyphen makes a range of the characters beside it.  A hyphen at either end, or right after the upper
end of a range, stands for itself.  A range whose ends stand the wrong way round is left out. -/

/-- The contents of a set cut at the hyphens that make ranges; `skip` is how many characters have to come before the
next such hyphen. -/
def chunksFrom (current : Text) (skip : Nat) : Text → List Text
  | [] => [current]
  | [c] => [current ++ [c]]
  | c :: d :: rest =>
    if skip = 0 ∧ c = '-' then current :: chunksFrom [] 2 (d :: rest)
    else chunksFrom (current ++ [c]) (skip - 1) (d :: rest)

/-- Some chunks without the ranges whose lower end is above the upper end. -/
def joinReversed : List Text → List Text
  | [] => []
  | chunk :: rest =>
    match joinReversed rest with
    | [] => [chunk]
    | next :: more =>
      match chunk.getLast?, next.head? with
      | some low, some high =>
        if high.toNat < low.toNat then (chunk.dropLast ++ next.drop 1) :: more else chunk :: next :: more
      | _, _ => chunk :: next :: more

def single (c : Char) : Char × Char := (c, c)

/-- The ranges of a chunk and of those after it. -/
def rangesFrom (chunk : Text) : List Text → List (Char × Char)
  | [] => chunk.map single
  | next :: rest =>
    match chunk.getLast?, next.head? with
    | some low, some high => chunk.dropLast.map single ++ (low, high) :: rangesFrom (next.drop 1) rest
    | _, _ => chunk.map single ++ single '-' :: rangesFrom next rest

/-- The set between two brackets.  A first `!` negates it. -/
def setOf (body : Text) : Piece :=
  match joinReversed (chunksFrom [] (if body.head? = some '!' then 2 else 1) body) with
  | ('!' :: chunk) :: rest => .oneOf true (rangesFrom chunk rest)
  | chunk :: rest => .oneOf false (rangesFrom chunk rest)
  | [] => .oneOf false []

/-- How many characters stand between an opening bracket and the bracket that closes it.  A closing bracket that
comes first, or first after `!`, is in the set. -/
def bodyLength? (t : Text) : Option Nat :=
  let front :=
    match t with
    | '!' :: ']' :: _ => 2
    | '!' :: _ => 1
    | ']' :: _ => 1
    | _ => 0
  ((t.drop front).findIdx? (· = ']')).map (front + ·)

/-! ## Reading -/

/-- The pieces of a glob, after the characters of a set that were read with its bracket. -/
def piecesFrom (skip : Nat) : Text → List Piece
  | [] => []
  | c :: rest =>
    match skip with
    | skip + 1 => piecesFrom skip rest
    | 0 =>
      if c = '*' then .many :: piecesFrom 0 rest
      else if c = '?' then .any :: piecesFrom 0 rest
      else if c = '[' then
        match bodyLength? rest with
        | some n => setOf (rest.take n) :: piecesFrom (n + 1) rest
        | none => .char c :: piecesFrom 0 rest
      else .char c :: piecesFrom 0 rest

/-- The pieces of a glob.  A bracket that is not closed stands for itself. -/
def ofText (t : Text) : List Piece := piecesFrom 0 t

/-! ## Matching -/

/-- A piece stands for a character. -/
def Piece.accepts : Piece → Char → Bool
  | many, _ => true
  | any, _ => true
  | oneOf negated ranges, c => (ranges.any fun r => r.1.toNat ≤ c.toNat && c.toNat ≤ r.2.toNat) != negated
  | char d, c => c = d

/-- Some pieces stand for a whole text. -/
def matchesAll : List Piece → Text → Bool
  | [], t => t.isEmpty
  | .many :: rest, t => (List.range (t.length + 1)).any fun n => matchesAll rest (t.drop n)
  | _ :: _, [] => false
  | piece :: rest, c :: t => piece.accepts c && matchesAll rest t

end Glob

/-! ## Rules -/

/-- A rule for paths below a directory. -/
structure IgnoreRule where
  pattern : Text
  onlyDirectories : Bool
  isAnchored : Bool
  isNegated : Bool
  hasSlash : Bool
  deriving DecidableEq, Repr

namespace IgnoreRule

/-- A pattern without each `**/` in front. -/
def dropAnyDepth : Text → Text
  | '*' :: '*' :: '/' :: rest => dropAnyDepth rest
  | t => t

/-- A pattern without one tail, and whether it was there. -/
def dropTail (tail t : Text) : Text × Bool :=
  if Text.endsWith t tail then (t.take (t.length - tail.length), true) else (t, false)

/-- The rule that a pattern writes; none where nothing is left of it. -/
def ofPattern? (pattern : Text) (isNegated : Bool) : Option IgnoreRule :=
  let t := Text.strip pattern
  let bang := Text.after? ['!'] t
  let (t, below) := dropTail ['/', '*', '*'] (dropAnyDepth (bang.getD t))
  let (t, slashed) := dropTail ['/'] t
  let anchor := Text.after? ['/'] t
  let t := anchor.getD t
  if t = [] then none
  else
    some {
      pattern := t
      onlyDirectories := below || slashed
      isAnchored := anchor.isSome
      isNegated := isNegated != bang.isSome
      hasSlash := Text.contains t ['/'] }

/-- The rules of an ignore file: one a line, but for blank lines and comments. -/
def ofLines (t : Text) : List IgnoreRule :=
  (Text.boundaryLines t).filterMap fun line =>
    if (Text.strip line).head? = some '#' then none else ofPattern? line false

/-- The rule is about a path, which is given by its parts. -/
def concerns (r : IgnoreRule) (parts : List Text) (isDirectory : Bool) : Bool :=
  let glob := Glob.ofText r.pattern
  (isDirectory || !r.onlyDirectories) &&
    if r.isAnchored || r.hasSlash then Glob.matchesAll glob (Text.joinWith ['/'] parts)
    else parts.any (Glob.matchesAll glob)

/-- A path is ignored: the last rule about it says so. -/
def ignores (rules : List IgnoreRule) (parts : List Text) (isDirectory : Bool) : Bool :=
  rules.foldl (fun ignored r => if r.concerns parts isDirectory then !r.isNegated else ignored) false

/-- The rules that hold unless they are turned off. -/
def defaultPatterns : List Text :=
  ["node_modules/", ".git/", "dist/", "build/", "__pycache__/", ".venv/", "vendor/", "__tests__/", "__mocks__/",
    "*.min.js", "*.d.ts", "*.test.*", "*.spec.*"].map String.toList

end IgnoreRule

end SourceDoc
