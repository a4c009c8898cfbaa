import SourceDoc.Grammar.Tree

/-!
# Grammars as data

A grammar gives every symbol a `Rule`; `Rule.run` reads a text by ordered choice: the first alternative
that matches is taken and not reconsidered.  What is read comes back as syntax trees in source order.

Between tokens stands *filler*: blanks, which leave no trace, and comments, which become leaves.  A comment
belongs to the smallest node that has tokens on both sides of it, so a node that is closed hands the comments
at its two ends to its parent (`close`).

Three kinds of step read characters: `leaf` skips filler and then reads a token, `tight` reads a token right
here, and `gap` reads an empty token: right here if the text that follows is acceptable, else after the next
comment.  The extent of a node includes its gaps, and its children do not.

`run` recurses on a bound for the depth of the recursion, which `parse` takes from the length of the text.
-/

namespace SourceDoc.Grammar

/-- What may stand between tokens: a run of blanks, or a comment, with its length. -/
inductive Filler where
  | blank (length : Nat)
  | comment (length : Nat)

mutual

/-- One step of a grammar over symbols `ν`, kinds `κ` and fields `φ`. -/
inductive Rule (ν κ φ : Type) where
  /-- Reads nothing. -/
  | done
  /-- Never matches. -/
  | fail
  /-- Filler, then a token whose length the scanner gives. -/
  | leaf (kind : κ) (scan : Text → Option Nat)
  /-- A token without filler before it. -/
  | tight (kind : κ) (scan : Text → Option Nat)
  /-- An empty token, before or after comments, where the text that follows is acceptable. -/
  | gap (accept : Text → Bool)
  /-- Reads nothing, and matches where the text that follows is acceptable. -/
  | check (accept : Text → Bool)
  /-- The rule of a symbol. -/
  | call (symbol : ν)
  | seq (first second : Rule ν κ φ)
  /-- The second rule where the first does not match. -/
  | alt (first second : Rule ν κ φ)
  /-- As often as the rule matches. -/
  | many (body : Rule ν κ φ)
  /-- Reads nothing, and matches where the rule does not. -/
  | without (body : Rule ν κ φ)
  /-- What the rule reads, as the children of one node. -/
  | node (kind : κ) (body : Rule ν κ φ)
  /-- What the rule reads fills a field of the parent. -/
  | field (name : φ) (body : Rule ν κ φ)
  /-- What the first rule reads, then as often as a tail matches: a node of what was read so far and the tail. -/
  | chain (base : Rule ν κ φ) (tails : List (Tail ν κ φ))

/-- The right part of a left-nested node: the kinds it may follow, the kind of the node, the field that the
left part fills in it, and the rule for the rest. -/
inductive Tail (ν κ φ : Type) where
  | tail (follows : κ → Bool) (kind : κ) (left : Option φ) (rest : Rule ν κ φ)

end

/-- Where the reading stands. -/
structure Cursor where
  rest : Text
  place : Place

/-- The cursor after some characters of its text. -/
def Cursor.advance (c : Cursor) (n : Nat) : Cursor :=
  ⟨c.rest.drop n, c.place.after (c.rest.take n)⟩

/-- What a grammar needs besides its rules: the filler, and the kinds of comments and of empty tokens. -/
structure Table (ν κ φ : Type) where
  rule : ν → Rule ν κ φ
  filler : Text → Option Filler
  comment : κ
  empty : κ

variable {ν κ φ : Type} [DecidableEq κ]

/-- The filler at the cursor, comments as leaves; the bound limits the number of pieces. -/
def Table.skip (g : Table ν κ φ) : Nat → Cursor → Cursor × List (Tree κ φ)
  | 0, c => (c, [])
  | bound + 1, c =>
    match g.filler c.rest with
    | none => (c, [])
    | some (.blank n) => g.skip bound (c.advance n)
    | some (.comment n) =>
      let after := c.advance n
      let (last, comments) := g.skip bound after
      (last, .node g.comment none c.place after.place [] :: comments)

/-- The first place, at the cursor or after a comment, where the text is acceptable. -/
def Table.seek (g : Table ν κ φ) (accept : Text → Bool) : Nat → Cursor → Option (Cursor × List (Tree κ φ))
  | 0, _ => none
  | bound + 1, c =>
    if accept c.rest then some (c, [.node g.empty none c.place c.place []])
    else
      let body := match g.filler c.rest with
        | some (.blank n) => c.advance n
        | _ => c
      match g.filler body.rest with
      | some (.comment n) =>
        let after := body.advance n
        (g.seek accept bound after).map fun (last, found) =>
          (last, .node g.comment none body.place after.place [] :: found)
      | _ => none

/-- One node of what was read: comments at either end stay outside, empty tokens are dropped. -/
def Table.close (g : Table ν κ φ) (kind : κ) (read : List (Tree κ φ)) : List (Tree κ φ) :=
  let isComment := fun (t : Tree κ φ) => decide (t.kind = g.comment)
  let lead := read.takeWhile isComment
  let rest := read.dropWhile isComment
  let trail := (rest.reverse.takeWhile isComment).reverse
  let inner := rest.take (rest.length - trail.length)
  match inner.head?, inner.getLast? with
  | some first, some last =>
    lead ++ .node kind none first.start last.stop (inner.filter fun t => !decide (t.kind = g.empty)) :: trail
  | _, _ => read

/-- Everything read but comments and empty tokens fills a field. -/
def Table.label (g : Table ν κ φ) (f : φ) (read : List (Tree κ φ)) : List (Tree κ φ) :=
  read.map fun t => if t.kind = g.comment || t.kind = g.empty then t else t.withField f

/-- The kind of what was read, comments and empty tokens aside. -/
def Table.lastKind? (g : Table ν κ φ) (read : List (Tree κ φ)) : Option κ :=
  (read.filter fun t => !(decide (t.kind = g.comment) || decide (t.kind = g.empty))).getLast?.map Tree.kind

mutual

/-- Reads a rule at a cursor: the cursor after it and the trees read, or nothing where it does not match. -/
def Table.run (g : Table ν κ φ) : Nat → Rule ν κ φ → Cursor → Option (Cursor × List (Tree κ φ))
  | 0, _, _ => none
  | bound + 1, r, c =>
    match r with
    | .done => some (c, [])
    | .fail => none
    | .leaf kind scan =>
      let (start, comments) := g.skip (c.rest.length + 1) c
      (scan start.rest).map fun n =>
        let after := start.advance n
        (after, comments ++ [.node kind none start.place after.place []])
    | .tight kind scan =>
      (scan c.rest).map fun n =>
        let after := c.advance n
        (after, [.node kind none c.place after.place []])
    | .gap accept => g.seek accept (c.rest.length + 1) c
    | .check accept => if accept c.rest then some (c, []) else none
    | .call symbol => g.run bound (g.rule symbol) c
    | .seq first second =>
      match g.run bound first c with
      | none => none
      | some (mid, left) =>
        match g.run bound second mid with
        | none => none
        | some (last, right) => some (last, left ++ right)
    | .alt first second =>
      match g.run bound first c with
      | some found => some found
      | none => g.run bound second c
    | .many body =>
      match g.run bound body c with
      | none => some (c, [])
      | some (mid, left) =>
        if mid.place.offset = c.place.offset then some (c, [])
        else
          match g.run bound (.many body) mid with
          | none => none
          | some (last, right) => some (last, left ++ right)
    | .without body =>
      match g.run bound body c with
      | some _ => none
      | none => some (c, [])
    | .node kind body => (g.run bound body c).map fun (last, read) => (last, g.close kind read)
    | .field name body => (g.run bound body c).map fun (last, read) => (last, g.label name read)
    | .chain base tails =>
      match g.run bound base c with
      | none => none
      | some (mid, read) => g.extend bound tails tails mid read

/-- Extends what was read by tails, as often as one matches. -/
def Table.extend (g : Table ν κ φ) :
    Nat → List (Tail ν κ φ) → List (Tail ν κ φ) → Cursor → List (Tree κ φ) →
      Option (Cursor × List (Tree κ φ))
  | 0, _, _, _, _ => none
  | _ + 1, _, [], c, read => some (c, read)
  | bound + 1, tails, .tail follows kind left rest :: others, c, read =>
    match if (g.lastKind? read).any follows then g.run bound rest c else none with
    | none => g.extend bound tails others c read
    | some (mid, right) =>
      let leftPart := match left with
        | some f => g.label f read
        | none => read
      g.extend bound tails tails mid (g.close kind (leftPart ++ right))

end

/-- The trees of a whole text, read by the rule of a symbol. -/
def Table.parse? (g : Table ν κ φ) (start : ν) (source : Text) : Option (List (Tree κ φ)) :=
  (g.run (256 * source.length + 65536) (g.rule start) ⟨source, {}⟩).map Prod.snd

end SourceDoc.Grammar
