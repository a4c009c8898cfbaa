import SourceDoc.Text.Basic

/-!
# Blank characters and line boundaries

`isBlank` is the class of characters that separate words; `strip` removes them at both ends, `words` splits
at runs of them.  `isBoundary` is the smaller class of characters that end a line of text;
`boundaryLines` splits there and takes a carriage return with the newline after it as one boundary.
`unifyNewlines` makes every carriage return, alone or before a newline, one newline.
-/

namespace SourceDoc.Text

/-! ## Blank characters -/

/-- One of the four information separators, which stand between files, groups, records and units of data. -/
def isSeparator (c : Char) : Bool := 28 ≤ c.toNat && c.toNat ≤ 31

/-- White space of any script, and the four information separators. -/
def isBlank (c : Char) : Bool :=
  let n := c.toNat
  isSeparator c || (9 ≤ n && n ≤ 13) || n = 32 || n = 0x85 || n = 0xA0 || n = 0x1680 ||
    (0x2000 ≤ n && n ≤ 0x200A) || n = 0x2028 || n = 0x2029 || n = 0x202F || n = 0x205F || n = 0x3000

/-- The text without blanks at its front. -/
def stripLeft (t : Text) : Text := dropLeft isBlank t

/-- The text without blanks at its end. -/
def stripRight (t : Text) : Text := dropRight isBlank t

/-- The text without blanks at both ends. -/
def strip (t : Text) : Text := trim isBlank t

/-- No character but blanks. -/
def isBlankText (t : Text) : Bool := t.all isBlank

/-- The width of the blanks at the front of a line. -/
def indentation (line : Text) : Nat := (line.takeWhile isBlank).length

/-- The words still to come, `current` being the word under way, last character first. -/
def wordsFrom (current : Text) : Text → List Text
  | [] => if current = [] then [] else [current.reverse]
  | c :: rest =>
    if isBlank c then
      if current = [] then wordsFrom [] rest else current.reverse :: wordsFrom [] rest
    else wordsFrom (c :: current) rest

/-- The maximal runs of characters that are not blank. -/
def words (t : Text) : List Text := wordsFrom [] t

/-- The first word and the text after it without the blanks in front, where both are there. -/
def firstWordAndRest? (t : Text) : Option (Text × Text) :=
  let body := stripLeft t
  let word := body.takeWhile (!isBlank ·)
  let rest := stripLeft (body.dropWhile (!isBlank ·))
  if rest = [] then none else some (word, rest)

/-- The text without blanks at both ends, where anything is left. -/
def stripped? (t : Text) : Option Text :=
  match strip t with
  | [] => none
  | c :: rest => some (c :: rest)

/-! ## Line boundaries -/

/-- A character that ends a line. -/
def isBoundary (c : Char) : Bool :=
  let n := c.toNat
  (10 ≤ n && n ≤ 13) || (28 ≤ n && n ≤ 30) || n = 0x85 || n = 0x2028 || n = 0x2029

/-- The lines still to come, `current` being the line under way, last character first. -/
def boundaryLinesFrom (current : Text) : Text → List Text
  | [] => if current = [] then [] else [current.reverse]
  | '\r' :: '\n' :: rest => current.reverse :: boundaryLinesFrom [] rest
  | c :: rest =>
    if isBoundary c then current.reverse :: boundaryLinesFrom [] rest
    else boundaryLinesFrom (c :: current) rest

/-- The lines of a text, each ended by a boundary or by the end of the text. -/
def boundaryLines (t : Text) : List Text := boundaryLinesFrom [] t

/-- Every carriage return, with the newline after it if there is one, becomes a newline. -/
def unifyNewlines : Text → Text
  | [] => []
  | '\r' :: '\n' :: rest => '\n' :: unifyNewlines rest
  | c :: rest => (if c = '\r' then '\n' else c) :: unifyNewlines rest

end SourceDoc.Text
