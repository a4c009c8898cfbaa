import SourceDoc.Text.Quoted

/-!
# Places in a YAML text

A cursor is a place in a text, with what stands after it.  After the end there is a NUL, which stands nowhere else.
-/

namespace SourceDoc.Yaml

/-- Why a scalar does not fit what it is said to be. -/
inductive Misfit where
  /-- A date or a time that no calendar and no clock has. -/
  | noSuchTime (reason : String)
  /-- A text that is not written like a date. -/
  | notTime
  /-- A word that stands for no truth value. -/
  | notFlag (word : Text)
  | notInt (base : Nat) (t : Text)
  | notReal (t : Text)
  /-- No digits at all. -/
  | empty
  /-- The code of a character is above the last one, or does not even fit 31 bits. -/
  | noSuchChar (isHuge : Bool)
  deriving DecidableEq, Repr

/-- The wording of the reason. -/
def Misfit.message : Misfit → Text
  | noSuchTime reason => reason.toList
  | notTime => "'NoneType' object has no attribute 'groupdict'".toList
  | notFlag word => Text.quoted word
  | notInt base t => "invalid literal for int() with base ".toList ++ Text.ofNat base ++ ": ".toList ++ Text.quoted t
  | notReal t => "could not convert string to float: ".toList ++ Text.quoted t
  | empty => "string index out of range".toList
  | noSuchChar true => "Python int too large to convert to C int".toList
  | noSuchChar false => "chr() arg not in range(0x110000)".toList

/-- What can be wrong with a YAML text. -/
inductive Fault where
  /-- A character that a text may not hold. -/
  | unprintable
  /-- A character that starts nothing. -/
  | unexpected (c : Char)
  /-- A key without its colon. -/
  | lostKey
  /-- An entry, a key or a value where none may be. -/
  | misplaced
  /-- A quoted text, or a list or mapping between brackets, that does not end. -/
  | unterminated
  | badEscape
  | badHeader
  | badName
  | badDirective
  /-- No value where one has to be. -/
  | noValue
  | manyDocuments
  | unknownAlias
  | repeatedAnchor
  | unknownTag
  | badMerge
  | badKey
  | misfit (m : Misfit)
  deriving DecidableEq, Repr

/-- A place in a text. -/
structure Cursor where
  rest : Text
  index : Nat := 0
  line : Nat := 0
  column : Nat := 0
  deriving DecidableEq, Repr

/-- A character that ends a line. -/
def isBreak (c : Char) : Bool :=
  c = '\n' || c = '\r' || c = '\x85' || c = '\u2028' || c = '\u2029'

/-- The end of a line or of the text. -/
def isEnd (c : Char) : Bool := c = '\x00' || isBreak c

/-- What has to follow a mark for it to be one. -/
def isGap (c : Char) : Bool := c = ' ' || c = '\t' || isEnd c

/-- A character of the names of anchors. -/
def isNameChar (c : Char) : Bool := c.isAlphanum || c = '-' || c = '_'

namespace Cursor

/-- The character some places after the cursor. -/
def peek (c : Cursor) (n : Nat) : Char := (c.rest[n]?).getD '\x00'

/-- The character at the cursor. -/
def here (c : Cursor) : Char := c.peek 0

def isAtEnd (c : Cursor) : Bool := c.rest.isEmpty

/-- The next place. -/
def next (c : Cursor) : Cursor :=
  match c.rest with
  | [] => c
  | ch :: rest =>
    if isBreak ch && !(ch = '\r' && rest.head? = some '\n') then ⟨rest, c.index + 1, c.line + 1, 0⟩
    else ⟨rest, c.index + 1, c.line, if ch = '\ufeff' then c.column else c.column + 1⟩

/-- The place some characters further. -/
def advance (c : Cursor) : Nat → Cursor
  | 0 => c
  | n + 1 => c.next.advance n

/-- The characters from the cursor on that are of a kind, and the place after them. -/
def span (c : Cursor) (p : Char → Bool) : Text × Cursor :=
  let front := c.rest.takeWhile p
  (front, c.advance front.length)

/-- The place after some blanks. -/
def skipSpaces (c : Cursor) : Cursor := (c.span (· = ' ')).2

/-- The line break at the cursor as it counts, and the place after it; empty where there is none. -/
def lineBreak (c : Cursor) : Text × Cursor :=
  match c.rest with
  | '\r' :: '\n' :: _ => (['\n'], c.advance 2)
  | ch :: _ =>
    if ch = '\u2028' || ch = '\u2029' then ([ch], c.next)
    else if isBreak ch then (['\n'], c.next)
    else ([], c)
  | [] => ([], c)

/-- A line that marks the start or the end of a document is at the cursor. -/
def isAtMark (c : Cursor) (mark : String) : Bool := Text.startsWith c.rest mark.toList && isGap (c.peek 3)

def isAtDocumentMark (c : Cursor) : Bool := c.isAtMark "---" || c.isAtMark "..."

/-- The place after the blanks and the comment that may end a line, where nothing else does. -/
def restOfLine (c : Cursor) : Option Cursor :=
  let c := c.skipSpaces
  let c := if c.here = '#' then (c.span fun ch => !isEnd ch).2 else c
  if isEnd c.here then some c.lineBreak.2 else none

end Cursor

end SourceDoc.Yaml
