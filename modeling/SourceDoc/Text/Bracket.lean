import SourceDoc.Text.Blank

/-!
# Brackets and quotes

A separator counts only at the top: outside brackets and outside quotes.  `Nesting` is what has to be known of the
text so far to tell; `splitTopLevel` cuts a text at every separator at the top, `splitOnceTopLevel` at the first.

Brackets are counted and not matched by kind, and a closing bracket with none open counts as any other character.
-/

namespace SourceDoc.Text

def isQuote (c : Char) : Bool := c = '"' || c = '\'' || c = '\x60'

def isOpening (c : Char) : Bool := c = '(' || c = '[' || c = '\x7b'

def isClosing (c : Char) : Bool := c = ')' || c = ']' || c = '\x7d'

/-- How many brackets are open, which quote is, and whether a backslash stands directly before. -/
structure Nesting where
  depth : Nat := 0
  quote : Option Char := none
  isEscaped : Bool := false
  deriving DecidableEq, Repr

namespace Nesting

/-- Neither a bracket nor a quote is open. -/
def isTop (n : Nesting) : Bool := n.quote.isNone && n.depth = 0

/-- The nesting after a character outside quotes. -/
def nextPlain (n : Nesting) (c : Char) : Nesting :=
  if isQuote c then { n with quote := some c }
  else if isOpening c then { n with depth := n.depth + 1 }
  else if isClosing c then { n with depth := n.depth - 1 }
  else n

/-- The nesting after a character; in quotes, a backslash takes the meaning from the character after it. -/
def next (n : Nesting) (c : Char) : Nesting :=
  match n.quote with
  | some q =>
    if n.isEscaped then { n with isEscaped := false }
    else if c = '\\' then { n with isEscaped := true }
    else if c = q then { n with quote := none }
    else n
  | none => n.nextPlain c

/-- The nesting after a character, where a backslash is a character like any other. -/
def nextUnescaped (n : Nesting) (c : Char) : Nesting :=
  match n.quote with
  | some q => if c = q then { n with quote := none } else n
  | none => n.nextPlain c

/-- The character is a separator at the top. -/
def separates (n : Nesting) (sep c : Char) : Bool :=
  n.isTop && c = sep && !isQuote c && !isOpening c

end Nesting

/-- The pieces of a text between the separators at the top. -/
def piecesFrom (sep : Char) (n : Nesting) : Text → List Text
  | [] => [[]]
  | c :: rest =>
    if n.separates sep c then [] :: piecesFrom sep n rest
    else
      match piecesFrom sep (n.next c) rest with
      | [] => [[c]]
      | piece :: pieces => (c :: piece) :: pieces

/-- The pieces of a text between the separators at the top, without blanks around them and without empty ones. -/
def splitTopLevel (sep : Char) (t : Text) : List Text :=
  (piecesFrom sep {} t).filterMap stripped?

/-- The text before the first separator at the top and the text after it, where there is one. -/
def breakTopLevel? (sep : Char) (n : Nesting) : Text → Option (Text × Text)
  | [] => none
  | c :: rest =>
    if n.separates sep c then some ([], rest)
    else (breakTopLevel? sep (n.nextUnescaped c) rest).map fun (before, after) => (c :: before, after)

/-- The text before the first separator at the top, or all of it, and the text after it, if any. -/
def splitOnceTopLevel (sep : Char) (t : Text) : Text × Option Text :=
  match breakTopLevel? sep {} t with
  | some (before, after) => (before, some after)
  | none => (t, none)

/-- The text in front of the bracket that closes the first of `depth` open ones, and the text after it; characters
that `isQuoting` says hide brackets up to the same character. -/
def breakClosing? (isQuoting : Char → Bool) (depth : Nat) (quote : Option Char) : Text → Option (Text × Text)
  | [] => none
  | c :: rest =>
    let more := fun (depth : Nat) (quote : Option Char) =>
      (breakClosing? isQuoting depth quote rest).map fun (before, after) => (c :: before, after)
    match quote with
    | some q => more depth (if c = q then none else some q)
    | none =>
      if isQuoting c then more depth (some c)
      else if isOpening c then more (depth + 1) none
      else if isClosing c then if depth ≤ 1 then some ([], rest) else more (depth - 1) none
      else more depth none

end SourceDoc.Text
