import SourceDoc.Text.Basic

/-!
# Syntax trees

A concrete syntax tree: every token and every comment of the source is a leaf, and a node knows its kind, the
field of its parent that it fills, and the two places between which it stands.  `κ` is the type of kinds and
`φ` that of fields.
-/

namespace SourceDoc.Grammar

/-- A place in a text: how many characters and how many newline characters stand before it. -/
structure Place where
  offset : Nat := 0
  row : Nat := 0
  deriving DecidableEq, Repr, Inhabited

/-- The place after a character. -/
def Place.next (p : Place) (c : Char) : Place :=
  ⟨p.offset + 1, if c = '\n' then p.row + 1 else p.row⟩

/-- The place after some characters. -/
def Place.after (p : Place) (t : Text) : Place := t.foldl Place.next p

/-- A node with its kind, its field in the parent, its extent and its children in source order. -/
inductive Tree (κ φ : Type) where
  | node (kind : κ) (field : Option φ) (start stop : Place) (children : List (Tree κ φ))
  deriving Repr

namespace Tree

variable {κ φ : Type}

def kind : Tree κ φ → κ
  | node k _ _ _ _ => k

def field : Tree κ φ → Option φ
  | node _ f _ _ _ => f

def start : Tree κ φ → Place
  | node _ _ s _ _ => s

def stop : Tree κ φ → Place
  | node _ _ _ e _ => e

def children : Tree κ φ → List (Tree κ φ)
  | node _ _ _ _ cs => cs

/-- The same node as the given field of its parent. -/
def withField (f : φ) : Tree κ φ → Tree κ φ
  | node k _ s e cs => node k (some f) s e cs

/-- The source text of a node. -/
def text (source : Text) (t : Tree κ φ) : Text :=
  (source.drop t.start.offset).take (t.stop.offset - t.start.offset)

/-- The first child that fills a field. -/
def child? [DecidableEq φ] (t : Tree κ φ) (f : φ) : Option (Tree κ φ) :=
  t.children.find? fun c => decide (c.field = some f)

/-- The first child of a kind. -/
def first? [DecidableEq κ] (t : Tree κ φ) (k : κ) : Option (Tree κ φ) :=
  t.children.find? fun c => decide (c.kind = k)

/-- Some child is of a kind. -/
def has [DecidableEq κ] (t : Tree κ φ) (k : κ) : Bool :=
  t.children.any fun c => decide (c.kind = k)

end Tree

end SourceDoc.Grammar
