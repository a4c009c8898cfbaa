import SourceDoc.Table
import SourceDoc.Text.Blank
import SourceDoc.Text.Case
import SourceDoc.Text.Pattern

/-!
# The layout of Markdown pages

`lint` brings a page into its normal layout: newlines only, no blanks at the ends of lines except the two
that break a line, outside code no two blank lines in a row and a blank line above every heading, and one newline at
the end.

`addContents` puts a table of contents in the place that a page marks for it: a link to every heading of the
second and third level outside code.  The link leads to the slug of the heading; where the slug was there before, to
the slug with a number.
-/

namespace SourceDoc.Markdown

open Text

/-! ## Tidy pages -/

/-- The mark in front and at the end of code. -/
def fence : Text := ['\x60', '\x60', '\x60']

/-- A line without blanks at its end; two spaces at the end of a line that is not blank stay. -/
def tidyEnd (line : Text) : Text :=
  if endsWith line [' ', ' '] && !isBlankText line then line else stripRight line

/-- What is known of the lines so far: whether they end in code, whether a blank line was kept last, and the last line
kept, if any. -/
structure Layout where
  inCode : Bool := false
  afterBlank : Bool := false
  last : Option Text := none
  deriving DecidableEq, Repr

/-- The lines kept for a line, and the layout after them. -/
def Layout.add (l : Layout) (line : Text) : List Text × Layout :=
  if startsWith line fence then ([line], ⟨!l.inCode, false, some line⟩)
  else if l.inCode then ([line], ⟨true, false, some line⟩)
  else if line = [] then
    if l.afterBlank then ([], l) else ([[]], ⟨false, true, some []⟩)
  else if startsWith line ['#'] ∧ l.last.any (· ≠ []) then ([[], line], ⟨false, false, some line⟩)
  else ([line], ⟨false, false, some line⟩)

/-- The lines kept from some lines. -/
def layoutLines (l : Layout) : List Text → List Text
  | [] => []
  | line :: rest =>
    let (kept, after) := l.add (tidyEnd line)
    kept ++ layoutLines after rest

/-- The lines without the empty ones at the end. -/
def dropEmptyEnd (ls : List Text) : List Text := (ls.reverse.dropWhile (· = [])).reverse

/-- The text in its normal layout. -/
def lint (t : Text) : Text :=
  joinLines (dropEmptyEnd (layoutLines {} (lines (unifyNewlines t)))) ++ ['\n']

/-! ## Tables of contents -/

/-- The mark in the place of the table of contents. -/
def contentsMark : Text := "<!-- autodocs:toc -->".toList

/-- The anchor of a heading: lower case, without punctuation, with a dash for every blank. -/
def slug (title : Text) : Text :=
  ((lower title).filter fun c => isWord c || isBlank c || c = '-').map fun c => if isBlank c then '-' else c

/-- A heading with its level. -/
structure Heading where
  level : Nat
  title : Text
  deriving DecidableEq, Repr

/-- The heading of the second or third level on a line. -/
def heading? (line : Text) : Option Heading :=
  let level := (line.takeWhile (· = '#')).length
  if level = 2 ∨ level = 3 then (afterBlanks? (line.drop level)).map fun title => ⟨level, strip title⟩ else none

/-- The headings on some lines; lines between fences are code. -/
def headingsFrom (inCode : Bool) : List Text → List Heading
  | [] => []
  | line :: rest =>
    let line := strip line
    if startsWith line fence then headingsFrom (!inCode) rest
    else if inCode then headingsFrom inCode rest
    else (heading? line).toList ++ headingsFrom inCode rest

/-- The headings of a page. -/
def headings (page : Text) : List Heading := headingsFrom false (boundaryLines page)

/-- The anchors of some headings; `seen` counts the slugs before them. -/
def anchorsFrom (seen : List (Text × Nat)) : List Heading → List Text
  | [] => []
  | h :: rest =>
    let s := slug h.title
    let count := (Table.get? s seen).getD 0
    (if count = 0 then s else s ++ '-' :: ofNat count) :: anchorsFrom (Table.put s (count + 1) seen) rest

/-- The anchors of some headings. -/
def anchors (hs : List Heading) : List Text := anchorsFrom [] hs

/-- The line of the table for a heading. -/
def contentsLine (h : Heading) (anchor : Text) : Text :=
  List.replicate (2 * (h.level - 2)) ' ' ++ "- [".toList ++ h.title.filter (· ≠ '\x60') ++ "](#".toList ++
    anchor ++ [')']

/-- The table of contents for some headings, empty where there are none. -/
def contents (hs : List Heading) : Text :=
  if hs = [] then []
  else joinLines ("## Table of Contents".toList :: [] :: List.zipWith contentsLine hs (anchors hs))

/-- The page with the table of contents in the place of the first mark. -/
def addContents (page : Text) : Text := replaceFirst contentsMark (contents (headings page)) page

end SourceDoc.Markdown
